import ConanPipeline.Command
import ConanPipeline.Console
import ConanPipeline.FileSystem.Replace

/-! The machine that a run works on: files, variables, programs, and the record of
everything that was said and started. Actions change the machine and may fail; what
they did before failing stays done. -/

namespace ConanPipeline

structure Environment where
  vars : List (String × String)
  /-- Home directory of the account, for when no variable names one. -/
  accountHome : String := "/root"

namespace Environment

def var? (env : Environment) (name : String) : Option String := env.vars.lookup name

def unset (env : Environment) (name : String) : Environment :=
  { env with vars := env.vars.filter (·.1 != name) }

def set (env : Environment) (name value : String) : Environment :=
  { env with vars := (env.unset name).vars ++ [(name, value)] }

/-- The environment with a command's own variables. -/
def override (env : Environment) (vars : List (String × String)) : Environment :=
  vars.foldl (fun env v => env.set v.1 v.2) env

def home (env : Environment) : Path :=
  match env.var? "HOME" with
  | some h => if h.isEmpty then ⟨env.accountHome⟩ else ⟨h⟩
  | none => ⟨env.accountHome⟩

end Environment

/-- A program that has been started. -/
structure Invocation where
  program : Location
  /-- The name that it is told to have. -/
  name : String
  /-- The path by which it was started. -/
  path : Path
  args : List String
  env : Environment
  cwd : Location
  stdin : ByteArray := ByteArray.empty
  /-- The common streams that are closed, by their numbers. -/
  closed : List Nat := []
  /-- The signals that do not reach it. -/
  ignored : List Nat := []

/-- How a process ends. -/
inductive Exit where
  | code (n : Nat)
  | killed (signal : Nat)
  deriving DecidableEq, Repr

def Exit.code? : Exit → Option Int
  | .code n => some n
  | .killed _ => none

/-- What a program does: the files it leaves, what it writes, and how it ends. -/
structure Outcome where
  files : FileSystem
  stdout : ByteArray := ByteArray.empty
  stderr : ByteArray := ByteArray.empty
  exit : Exit := .code 0
  /-- The calls that were put on record while it ran. -/
  calls : List Invocation := []
  nanos : Nat := 0

/-- The behaviour of every program on the machine. A file that is no program is refused. -/
abbrev Programs := FileSystem → Invocation → Except Errno Outcome

inductive Level where
  | error
  | warn
  | info
  | debug
  | trace
  deriving DecidableEq, Repr

def Level.rank : Level → Nat
  | error => 1
  | warn => 2
  | info => 3
  | debug => 4
  | trace => 5

def Level.name : Level → String
  | error => "ERROR"
  | warn => "WARN"
  | info => "INFO"
  | debug => "DEBUG"
  | trace => "TRACE"

/-- The part of the program that logs a message. -/
inductive Source where
  | profile
  | descriptor
  | settings
  | process
  | venv
  | conan
  | cmake
  | pipeline
  | steps
  | configure
  | buildCommand
  deriving DecidableEq, Repr

/-- The name by which a log filter selects messages. -/
def Source.name : Source → String
  | profile => "buildkit::profile"
  | descriptor => "buildkit::descriptor"
  | settings => "buildkit::util::config"
  | process => "buildkit::util::process"
  | venv => "buildkit::env::venv"
  | conan => "buildkit::env::conan"
  | cmake => "buildkit::env::cmake"
  | pipeline => "buildkit::builder"
  | steps => "buildkit::builder::steps"
  | configure => "buildkit::ops::configure"
  | buildCommand => "buildkit::commands::build"

/-- One entry of the record. -/
inductive Event where
  | shown (status : Status) (message : String)
  /-- The line that closes some announced work. -/
  | finished (message : String) (took : Duration)
  | logged (level : Level) (source : Source) (message : String)
  | printed (text : String)
  | complained (text : String)
  /-- An attempt to start a command, its streams captured or left to the terminal. -/
  | ran (command : Command) (streamed : Bool) (started : Except Errno Invocation)
  | called (call : Invocation)
  | childOut (bytes : ByteArray)
  | childErr (bytes : ByteArray)

structure Machine where
  files : FileSystem
  env : Environment
  cwd : Location
  programs : Programs
  clock : Nat := 0
  events : List Event := []

/-- Something that works on the machine and cannot fail. -/
abbrev Effect := StateM Machine

/-- Something that works on the machine and may fail. -/
abbrev Action := ExceptT Failure Effect

def Action.failWith {α : Type} (c : Cause) : Action α := throw (Failure.of c)

/-- Names the activity that a failure happened in. -/
def Action.during {α : Type} (a : Activity) (x : Action α) : Action α :=
  tryCatch x fun f => throw (f.inside a)

/-- Runs an action and gives its failure as a value. -/
def Action.attempt {α : Type} (x : Action α) : Action (Except Failure α) := ExceptT.lift x.run

def record (e : Event) : Effect Unit := modify fun m => { m with events := m.events ++ [e] }

def log (level : Level) (source : Source) (message : String) : Effect Unit :=
  record (.logged level source message)

namespace Console

/-- Shows a status line, if the console allows it. -/
def say (c : Console) (s : Status) (message : String) : Effect Unit :=
  if c.allows s then record (.shown s message) else pure ()

def sayVerbose (c : Console) (s : Status) (message : String) : Effect Unit :=
  if c.verbosity = .verbose then c.say s message else pure ()

def note (c : Console) (message : String) : Effect Unit := c.say .info message

def warn (c : Console) (message : String) : Effect Unit := c.say .warning message

end Console

/-- Work that was announced, and when. -/
structure Span where
  message : String
  start : Nat

namespace Console

def start (c : Console) (s : Status) (message : String) : Effect Span := do
  c.say s message
  return ⟨message, (← get).clock⟩

def finish (c : Console) (work : Span) : Effect Unit := do
  let nanos := (← get).clock - work.start
  if c.allows .finished then
    record (.finished work.message ⟨nanos / 1000000000, nanos % 1000000000⟩)

end Console

/-! Queries and changes of files, seen from the working directory. -/

namespace Machine

/-- The machine with changed files. A working directory that was taken away stays a place of its
own, whatever is made under its name afterwards. -/
def withFiles (m : Machine) (files : FileSystem) : Machine :=
  { m with files, cwd := files.seat m.cwd }

def isFile (m : Machine) (p : Path) : Bool := m.files.isFile m.cwd p

def isDirectory (m : Machine) (p : Path) : Bool := m.files.isDirectory m.cwd p

def isExecutable (m : Machine) (p : Path) : Bool := m.files.isExecutable m.cwd p

end Machine

/-- Runs an activity on files. -/
def onFiles {α : Type} (f : FileSystem → Location → FileSystem.Attempt α) : Action α := do
  let m ← get
  let (result, files) := f m.files m.cwd
  set (m.withFiles files)
  match result with
  | .ok a => return a
  | .error e => throw e

/-- Reads the text of a file. -/
def fileText (p : Path) : Action String := do
  let m ← get
  match m.files.readText m.cwd p with
  | .ok s => return s
  | .error c => throw ((Failure.of c).inside (.readingFile p))

def removeDirectory (p : Path) : Action Bool := onFiles fun fs cwd => fs.removeIfPresent cwd p

def ensureDirectory (p : Path) : Action Unit := onFiles fun fs cwd => fs.ensureDirectory cwd p

def replaceFile (p : Path) (contents : String) : Action Unit :=
  onFiles fun fs cwd => fs.replace cwd p contents

/-- The working directory as a path. -/
def workingDirectory : Action Path := do
  let m ← get
  if FileSystem.isGone m.cwd then
    throw ((Failure.of (.refused .noEntry)).inside .findingDirectory)
  return FileSystem.pathOf m.cwd

end ConanPipeline
