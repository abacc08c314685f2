import ConanPipeline.Cmake
import ConanPipeline.Pipeline

/-! The four standard steps. -/

namespace ConanPipeline

namespace Step

/-- Takes the build tree of the active build type away. -/
def clean : Step where
  kind := .clean
  run console plan := do
    if plan.workflow.clean then
      let tree := plan.buildRoot
      console.say .cleaning tree.text
      if ← removeDirectory tree then
        log .info .steps ("removed " ++ tree.text)
        console.say .removed tree.text
      else
        console.say .skipped "nothing to clean"

/-- The calls of the package manager that build a project. -/
def buildCalls (plan : Plan) : List (List String) :=
  let setting := "build_type=" ++ plan.buildType.name
  let verbose := if plan.workflow.verbose then ["-vverbose"] else []
  [["install", plan.root.text, "--build=missing", "-s", setting] ++ verbose,
    ["build", plan.root.text, "-s", setting] ++ verbose]

/-- Installs the dependencies and builds the project. -/
def build : Step where
  kind := .build
  run console plan := do
    if plan.workflow.build then
      let conan ← Conan.locate plan
      let work ← (console.start .building
        (plan.projectName ++ " (" ++ plan.buildType.name ++ ")") : Effect _)
      (buildCalls plan).forM (conan.stream console)
      console.finish work

/-- Fails unless there is a build tree. -/
def requireTree (tree : Path) : Action Unit := do
  if !(← get).isDirectory tree then Action.failWith (.missing "build tree" tree)

/-- Installs what was built. -/
def pack : Step where
  kind := .pack
  run console plan := do
    if plan.workflow.pack then
      let tree := plan.buildRoot
      requireTree tree
      let cmake ← Cmake.locate plan
      let work ← (console.start .packing ("into " ++ plan.distDir.text) : Effect _)
      cmake.stream console
        ["--install", tree.text, "--prefix", plan.distDir.text, "--config", plan.buildType.name]
      console.finish work

/-- The call of the test runner. -/
def testCommand (ctest : Path) (plan : Plan) : Command where
  program := ctest
  args := ["--test-dir", plan.buildRoot.text, "-C", plan.buildType.name, "--output-on-failure"]

/-- Runs the tests. -/
def test : Step where
  kind := .test
  run console plan := do
    if plan.workflow.test then
      requireTree plan.buildRoot
      let cmake ← Cmake.locate plan
      let ctest ← cmake.ctest
      let work ← (console.start .testing
        (plan.projectName ++ " (" ++ plan.buildType.name ++ ")") : Effect _)
      (testCommand ctest plan).streamShown console
      console.finish work

end Step

/-- The pipeline of the standard steps. -/
def Pipeline.standard : Pipeline :=
  [Step.clean, Step.build, Step.pack, Step.test].foldl Pipeline.register {}

/-- Runs the standard steps by a plan. -/
def build (console : Console) (plan : Plan) : Action Unit :=
  (Pipeline.standard.setup plan).run console

end ConanPipeline
