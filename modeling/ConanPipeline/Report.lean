import ConanPipeline.Cmake

/-! What a run would find on this machine. A tool that is missing is an entry of the
report and no failure. -/

namespace ConanPipeline

structure ReportEntry where
  name : String
  found : Bool
  /-- Where it is, or why it is not there. -/
  detail : String
  deriving DecidableEq, Repr

structure Report where
  platform : Platform
  root : Path
  conanHome : Path
  entries : List ReportEntry
  deriving Repr

namespace Report

def allFound (r : Report) : Bool := r.entries.all ReportEntry.found

def find? (r : Report) (name : String) : Option ReportEntry :=
  r.entries.find? fun e => e.name == name

def line (e : ReportEntry) : String :=
  "  " ++ (if e.found then "[OK]" else "[!!]") ++ " " ++ flushLeft 10 e.name ++ " " ++ e.detail ++
    "\n"

def text (r : Report) : String :=
  "platform:    " ++ r.platform.name ++ "\n" ++
  "project:     " ++ r.root.text ++ "\n" ++
  "conan home:  " ++ r.conanHome.text ++ "\n\n" ++
  String.join (r.entries.map line)

end Report

/-- An entry for something that was found, or that failed to be. -/
def ReportEntry.of {α : Type} (name : String) (show_ : α → String) :
    Except Failure α → ReportEntry
  | .ok a => ⟨name, true, show_ a⟩
  | .error f => ⟨name, false, f.message⟩

/-- Looks for everything that a run needs. -/
def inspect (plan : Plan) : Effect Report := do
  let venv := match ← findVenv plan.venv plan.root with
    | some v => ⟨"venv", true, v.text⟩
    | none => ⟨"venv", false, "no configured, active or pipenv environment"⟩
  let conan := ReportEntry.of "conan" Tool.describe (← (resolveConan plan).run)
  let found ← (resolveCmake plan).run
  let cmake := ReportEntry.of "cmake" Path.text found
  let generator ← match found with
    | .ok path => do
      let g ← (detectGenerator path).run
      pure (ReportEntry.of "generator" id g)
    | .error _ => pure ⟨"generator", false, "needs cmake"⟩
  return {
    platform := Platform.host
    root := plan.root
    conanHome := plan.conanHome
    entries := [venv, conan, cmake, generator] }

end ConanPipeline
