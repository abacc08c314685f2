import ConanPipeline.Machine.Processes
import ConanPipeline.Version

/-! Tools that were found, and the versions that they report. -/

namespace ConanPipeline

/-- An executable and the version it reports. -/
structure Tool where
  path : Path
  version : String
  deriving DecidableEq, Repr

namespace Tool

def describe (t : Tool) : String := t.path.text ++ " (" ++ t.version ++ ")"

/-- The version that a reader finds in the output of a tool. -/
def version? (name : String) (read : List Char → Option (List Char)) (output : String) :
    Except Cause String :=
  match read output.toList with
  | some v => .ok (.ofList v)
  | none => .error (.unreadable name (Text.trimmed output))

def conanVersion (output : String) : Except Cause String :=
  version? "conan" (fun cs => VersionLine.conan? (Text.spans cs)) output

def cmakeVersion (output : String) : Except Cause String :=
  version? "cmake" VersionLine.cmake? output

/-- Asks a program for its version. -/
def probe (path : Path) (read : String → Except Cause String) : Action Tool := do
  let output ← Command.run { program := path, args := ["--version"] } true
  match read output.stdout with
  | .ok version => return { path, version }
  | .error c => Action.failWith c

end Tool

/-- Arguments without a first one that only repeats the tool's name. -/
def withoutToolName (tool : String) : List String → List String
  | [] => []
  | a :: args => if Path.isNamed ⟨a⟩ tool then args else a :: args

end ConanPipeline
