import ConanPipeline.Command.Words
import ConanPipeline.Failure

/-! Commands to be run: a program, its arguments as they are, variables set for it
and the directory it starts in. -/

namespace ConanPipeline

structure Command where
  program : Path
  args : List String := []
  /-- Variables set for this command. -/
  vars : List (String × String) := []
  cwd : Option Path := none
  /-- Whether the shown command is handed to `sh -c` instead. -/
  viaShell : Bool := false
  deriving DecidableEq, Repr

namespace Command

/-- A command from one line; see `Words.split`. -/
def ofLine (line : String) : Except Failure Command :=
  match Words.ofLine line with
  | none => .error (.of (.badArgument ("unterminated quote in command line: " ++ line)))
  | some [] => .error (.of (.badArgument "command line is empty"))
  | some (program :: args) => .ok { program := ⟨program⟩, args }

def addArgs (c : Command) (args : List String) : Command := { c with args := c.args ++ args }

def setVar (c : Command) (name value : String) : Command :=
  { c with vars := c.vars.filter (·.1 != name) ++ [(name, value)] }

def var? (c : Command) (name : String) : Option String := c.vars.lookup name

/-- The command as it is shown, and as `sh -c` gets it. -/
def display (c : Command) : String :=
  .ofList (Words.display ((c.program.text :: c.args).map String.toList))

/-- The program to start and its arguments. -/
def toRun (c : Command) : Path × List String :=
  if c.viaShell then (⟨"sh"⟩, ["-c", c.display]) else (c.program, c.args)

end Command

end ConanPipeline
