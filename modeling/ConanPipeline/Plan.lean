import ConanPipeline.Project

/-! What one run of the pipeline is to do, and where. -/

namespace ConanPipeline

inductive BuildType where
  | debug
  | release
  deriving DecidableEq, Repr

def BuildType.name : BuildType → String
  | debug => "Debug"
  | release => "Release"

/-- The steps that a run has been asked for, and the flags that shape them. -/
structure Workflow where
  clean : Bool := false
  build : Bool := false
  pack : Bool := false
  test : Bool := false
  debug : Bool := false
  verbose : Bool := false
  deriving DecidableEq, Repr

def Workflow.anyStep (w : Workflow) : Bool := w.clean || w.build || w.pack || w.test

structure Plan where
  workflow : Workflow
  projectName : String
  root : Path
  buildDir : Path
  distDir : Path
  conanHome : Path
  venv : Option Path
  deriving DecidableEq, Repr

namespace Plan

def ofProject (p : Project) (workflow : Workflow) : Plan where
  workflow
  projectName := p.name
  root := p.root
  buildDir := p.buildDir
  distDir := p.distDir
  conanHome := p.conanHome
  venv := p.venv

def buildType (p : Plan) : BuildType := if p.workflow.debug then .debug else .release

/-- The build tree of the active build type. -/
def buildRoot (p : Plan) : Path := p.buildDir.join ⟨p.buildType.name⟩

/-- Where the toolchain file may be: beside the active build type, or shared by all of them. -/
def toolchains (p : Plan) : List Path :=
  let file (dir : Path) : Path := (dir.join ⟨"generators"⟩).join ⟨"conan_toolchain.cmake"⟩
  [file p.buildRoot, file p.buildDir]

/-- The plan in one line. -/
def describe (p : Plan) : String :=
  let flag (name : String) (b : Bool) : String := name ++ ": " ++ toString b
  let path (name : String) (q : Path) : String := name ++ ": " ++ Text.quotedPath q.text
  let braced (name : String) (fields : List String) : String :=
    name ++ " \x7b " ++ ", ".intercalate fields ++ " \x7d"
  let w := p.workflow
  braced "BuildConfig" [
    "workflow: " ++ braced "Workflow" [flag "clean" w.clean, flag "build" w.build,
      flag "pack" w.pack, flag "test" w.test, flag "debug" w.debug, flag "verbose" w.verbose],
    "project_name: " ++ Text.quoted p.projectName,
    path "project_root" p.root, path "build_dir" p.buildDir, path "dist_dir" p.distDir,
    path "conan_home" p.conanHome,
    "venv: " ++ (match p.venv with
      | none => "None"
      | some v => "Some(" ++ Text.quotedPath v.text ++ ")")]

end Plan

end ConanPipeline
