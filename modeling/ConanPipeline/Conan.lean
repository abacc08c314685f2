import ConanPipeline.Plan
import ConanPipeline.Tool
import ConanPipeline.Venv

/-! The package manager: where it is found, and how it is run in a home of its own. -/

namespace ConanPipeline

/-- The variable that names the package manager's home. -/
def conanHomeVar : String := "CONAN_HOME"

/-- Looks for the package manager in a virtual environment. One that is there has to work. -/
def findConan (venv : Path) : Action (Option Tool) := do
  let m ← get
  if !m.isDirectory venv then
    log .warn .conan
      ("virtual environment " ++ venv.text ++ " does not exist or is not a directory")
    return none
  let places := [(venv.join ⟨"bin"⟩).join ⟨"conan"⟩,
    (venv.join ⟨"Scripts"⟩).join ⟨"conan.exe"⟩]
  match places.find? m.isFile with
  | none =>
    log .info .conan ("no conan found in virtual environment " ++ venv.text)
    return none
  | some path =>
    let tool ← Tool.probe path Tool.conanVersion
    log .info .conan ("found conan " ++ tool.version ++ " in " ++ venv.text)
    return some tool

/-- The places where the package manager was looked for. -/
def searchedForConan : Option Path → String
  | some venv => venv.text ++ " and PATH"
  | none => "PATH"

/-- Finds the package manager for a run: in the virtual environment, then on `PATH`. -/
def resolveConan (plan : Plan) : Action Tool := do
  let venv ← (findVenv plan.venv plan.root : Effect _)
  let inVenv ← match venv with
    | some v => findConan v
    | none => pure none
  match inVenv with
  | some tool => return tool
  | none =>
    match (← get).which "conan" with
    | some path =>
      let tool ← Tool.probe path Tool.conanVersion
      log .info .conan ("using conan " ++ tool.version ++ " from PATH")
      return tool
    | none => Action.failWith (.toolMissing "conan" (searchedForConan venv))

/-- The package manager with a fixed home. -/
structure Conan where
  executable : Path
  home : Path
  deriving DecidableEq, Repr

namespace Conan

def locate (plan : Plan) : Action Conan := do
  let tool ← resolveConan plan
  return ⟨tool.path, plan.conanHome⟩

/-- A command in the home. A first argument that names the tool is dropped. -/
def command (c : Conan) (args : List String) : Command where
  program := c.executable
  args := withoutToolName "conan" args
  vars := [(conanHomeVar, c.home.text)]

def run (c : Conan) (args : List String) (check : Bool) : Action Output := do
  let cmd := c.command args
  log .debug .conan ("conan home: " ++ c.home.text)
  Action.during (.runningConan cmd.display) (cmd.run check)

end Conan

/-- Runs a command on the terminal, shown first on a verbose console. It has to succeed. -/
def Command.streamShown (cmd : Command) (console : Console) : Action Unit := do
  console.sayVerbose .running cmd.display
  let _ ← cmd.stream true

def Conan.stream (c : Conan) (console : Console) (args : List String) : Action Unit :=
  (c.command args).streamShown console

end ConanPipeline
