import ConanPipeline.Machine
import ConanPipeline.Text.Utf8

/-! Starting programs. A program without a slash is looked for in the directories
of `PATH`; a command runs either with its output captured or on the terminal.

Starting follows `execvp`. Looking a program up without starting it (`Machine.which`) follows
version 8 of `which`: a `~` in front of a directory is the home, and a directory that is not from
the top down gives a path that is not either. -/

namespace ConanPipeline

/-- The directories that a value of `PATH` lists; an empty one is the working directory. -/
def searchDirectories (value : String) : List Path :=
  (value.toList.splitOn ':').map Path.ofChars

/-- The bytes that one argument or variable may have, its end included. -/
def argumentLimit : Nat := 131072

namespace FileSystem

/-- The file that would be started for a path. -/
def startable (fs : FileSystem) (cwd : Location) (p : Path) : Except Errno Location :=
  match fs.status cwd p with
  | .ok (l, .file _ mode) =>
    match fs.refused .start l with
    | some r => .error r.errno
    | none => if mayExecute mode then .ok l else .error .accessDenied
  | .ok _ => .error .accessDenied
  | .error e => .error e

/-- The directory that a command starts in. -/
def startDirectory (fs : FileSystem) (cwd : Location) : Option Path → Except Errno Location
  | none => .ok cwd
  | some p =>
    match fs.status cwd p with
    | .ok (l, .directory) =>
      match fs.refused .search l with
      | some r => .error r.errno
      | none => .ok l
    | .ok _ => .error .notDirectory
    | .error e => .error e

end FileSystem

/-- What is to be started: a program by its name or path, and all it is given. -/
structure Launch where
  program : Path
  args : List String
  env : Environment
  cwd : Location
  stdin : ByteArray := ByteArray.empty
  closed : List Nat := []
  ignored : List Nat := []
  /-- Whether a file that is no program is handed to the shell. -/
  asScript : Bool := false

namespace Launch

def tooLong (r : Launch) : Bool :=
  (r.args.any fun a => a.utf8ByteSize ≥ argumentLimit) ||
    r.env.vars.any fun v => v.1.utf8ByteSize + 1 + v.2.utf8ByteSize ≥ argumentLimit

/-- The paths that the program is looked for under, one after the other. -/
def paths (r : Launch) : List Path :=
  if r.program.chars.contains '/' then [r.program]
  else
    (searchDirectories ((r.env.var? "PATH").getD "/bin:/usr/bin")).map fun d =>
      if d.isEmpty then r.program else ⟨d.text ++ "/" ++ r.program.text⟩

/-- The shell that every machine has. -/
def commonShell : Path := ⟨"/bin/sh"⟩

/-- Starts the file of one path. -/
def startFile (programs : Programs) (fs : FileSystem) (r : Launch) (name : String) (p : Path)
    (args : List String) : Except Errno (Invocation × Outcome) := do
  let program ← fs.startable r.cwd p
  if r.tooLong then throw .argumentsTooLong
  let inv : Invocation := {
    program, name, path := p, args, env := r.env, cwd := r.cwd, stdin := r.stdin
    closed := r.closed, ignored := r.ignored }
  return (inv, ← programs fs inv)

/-- Starts the file of one path, or the shell on it. -/
def startPath (programs : Programs) (fs : FileSystem) (r : Launch) (p : Path) :
    Except Errno (Invocation × Outcome) :=
  match startFile programs fs r r.program.text p r.args with
  | .error .notExecutable =>
    if r.asScript then
      startFile programs fs r commonShell.text commonShell (p.text :: r.args)
    else .error .notExecutable
  | r => r

/-- Starts the first program of some paths. One that may not be started is passed over, and is the
reason given if there is no other. -/
def startFirst (programs : Programs) (fs : FileSystem) (r : Launch) :
    List Path → Bool → Errno → Except Errno (Invocation × Outcome)
  | [], denied, last => .error (if denied then .accessDenied else last)
  | p :: ps, denied, last =>
    match startPath programs fs r p with
    | .error .accessDenied => startFirst programs fs r ps true last
    | .error .noEntry => startFirst programs fs r ps denied .noEntry
    | .error .notDirectory => startFirst programs fs r ps denied .notDirectory
    | result => result

/-- Looks for the program and runs it. -/
def start (programs : Programs) (fs : FileSystem) (r : Launch) :
    Except Errno (Invocation × Outcome) :=
  if r.program.isEmpty then .error .noEntry
  else if r.program.chars.contains '/' then startPath programs fs r r.program
  else startFirst programs fs r r.paths false .noEntry

end Launch

namespace Command

/-- Whether a text of the command cannot be handed to a program. -/
def holdsNul (c : Command) : Bool :=
  let bad (s : String) : Bool := s.toList.contains '\x00'
  bad c.program.text || c.args.any bad || (c.vars.any fun v => bad v.1 || bad v.2) ||
    c.cwd.any fun p => bad p.text

end Command

namespace Machine

/-- What a command asks the machine to start. If the command sets a `PATH` of its own, what is
found there without being a program is handed to the shell. -/
def launchOf (m : Machine) (c : Command) : Except Errno Launch := do
  if c.holdsNul then throw .nulInCommand
  let (program, args) := c.toRun
  return {
    program, args
    env := m.env.override c.vars
    cwd := ← m.files.startDirectory m.cwd c.cwd
    asScript := (c.var? "PATH").isSome && !program.chars.contains '/' }

/-- The paths that a program of this name is looked for under. -/
def candidates (m : Machine) (name : Path) : List Path :=
  let expand (d : Path) : Path := match d.components, m.env.var? "HOME" with
    | .name "~" :: rest, some home => if home.isEmpty then d else (Path.mk home).extend rest
    | _, _ => d
  if name.components.length > 1 && !FileSystem.isGone m.cwd then
    [if name.isAbsolute then name else (FileSystem.pathOf m.cwd).extend name.components]
  else
    match m.env.var? "PATH" with
    | none => []
    | some value => (searchDirectories value).map fun d => (expand d).join name

/-- The program that a name stands for. One that is found in a relative directory of `PATH` has a
relative path. -/
def which (m : Machine) (name : String) : Option Path :=
  (m.candidates ⟨name⟩).find? fun p => (m.files.startable m.cwd p).isOk

end Machine

/-- Starts a command and waits for its end. -/
def launch (c : Command) (streamed : Bool) : Effect (Except Errno Outcome) := do
  let m ← get
  match m.launchOf c >>= Launch.start m.programs m.files with
  | .error e =>
    record (.ran c streamed (.error e))
    return .error e
  | .ok (inv, out) =>
    record (.ran c streamed (.ok inv))
    out.calls.forM fun call => record (.called call)
    modify fun m => { m.withFiles out.files with clock := m.clock + out.nanos }
    return .ok out

/-- What a finished command left: its exit code, unless it was killed, and its output. -/
structure Output where
  code : Option Int
  stdout : String
  stderr : String
  deriving DecidableEq, Repr

def Output.success (o : Output) : Bool := o.code == some 0

namespace Command

def announce (c : Command) : Effect Unit :=
  log .debug .process ("running `" ++ c.display ++ "`")

/-- Runs a command and captures its output. With `check`, only exit code zero is success. -/
def run (c : Command) (check : Bool) : Action Output := do
  c.announce
  match ← launch c false with
  | .error e => throw ((Failure.of (.refused e)).inside (.spawning c.program))
  | .ok out =>
    let output : Output := ⟨out.exit.code?, Text.ofBytes out.stdout, Text.ofBytes out.stderr⟩
    if check && !output.success then
      Action.failWith (.commandFailed c.display output.code (Text.trimmedEnd output.stderr))
    return output

/-- Runs a command on the terminal and returns its exit code. -/
def stream (c : Command) (check : Bool) : Action (Option Int) := do
  c.announce
  match ← launch c true with
  | .error e => throw ((Failure.of (.refused e)).inside (.executing c.program))
  | .ok out =>
    record (.childOut out.stdout)
    record (.childErr out.stderr)
    let code := out.exit.code?
    if check && code != some 0 then Action.failWith (.commandFailed c.display code "")
    return code

end Command

end ConanPipeline
