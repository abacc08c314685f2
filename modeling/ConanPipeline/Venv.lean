import ConanPipeline.Machine.Processes

/-! The virtual environment of a project: the one that is configured, else the active
one, else the one that `pipenv` knows. Having none is no failure. -/

namespace ConanPipeline

namespace Venv

/-- The environment that is known without asking, and how it is known. -/
def known? (configured active : Option Path) : Option (String × Path) :=
  match configured, active with
  | some p, _ => some ("configured", p)
  | none, some p => if p.isEmpty then none else some ("active", p)
  | none, none => none

/-- The environment that the last line of an answer names. -/
def ofAnswer (stdout : String) : Option Path :=
  match (Text.lines stdout.toList).getLast? with
  | none => none
  | some l => if (Text.trim l).isEmpty then none else some (Path.ofChars (Text.trim l))

end Venv

/-- Asks `pipenv` for the environment of a project. -/
def askPipenv (root : Path) : Effect (Option Path) := do
  match (← get).which "pipenv" with
  | none => return none
  | some program =>
    match ← (Command.run { program, args := ["--venv"], cwd := some root } false).run with
    | .error f =>
      log .debug .venv ("pipenv --venv failed: " ++ f.message)
      return none
    | .ok output =>
      if output.success then return Venv.ofAnswer output.stdout
      else
        log .debug .venv ("pipenv has no environment for " ++ root.text)
        return none

def findVenv (configured : Option Path) (root : Path) : Effect (Option Path) := do
  let active := ((← get).env.var? "VIRTUAL_ENV").map Path.mk
  match Venv.known? configured active with
  | some (how, p) =>
    log .debug .venv ("using " ++ how ++ " venv " ++ p.text)
    return some p
  | none => askPipenv root

/-- A command to be run by `pipenv` in a project. -/
def pipenvRun (root : Path) (args : List String) : Action Command := do
  match (← get).which "pipenv" with
  | none => Action.failWith (.toolMissing "pipenv" "PATH")
  | some program => return { program, args := "run" :: args, cwd := some root }

end ConanPipeline
