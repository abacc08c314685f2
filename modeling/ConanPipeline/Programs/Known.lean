import ConanPipeline.Cli.Run
import ConanPipeline.Shell.Start

/-! The programs of a machine: shells, stand-ins, files whose first line names the program that
reads them, and the program itself.

They serve runs on test inputs only. The programs of a machine may be any (`Programs`), so that no
proof depends on these. -/

namespace ConanPipeline

/-- The first line of a text, after the mark that it names a program. -/
def interpreterLine? (contents : ByteArray) : Option (List Char) :=
  (Text.after? ['#', '!'] (Shell.ofBytes contents)).map fun cs => cs.takeWhile (· ≠ '\n')

def isGap (c : Char) : Bool := c = ' ' || c = '\t'

/-- The program that a file names in its first line, and the one argument it may give it. -/
def interpreter? (contents : ByteArray) : Option (Path × List String) := do
  let line ← interpreterLine? contents
  let trimmed := ((line.dropWhile isGap).reverse.dropWhile isGap).reverse
  let program := trimmed.takeWhile fun c => !isGap c
  let rest := (trimmed.drop program.length).dropWhile isGap
  if program.isEmpty then none
  else some (Shell.asPath program, if rest.isEmpty then [] else [Shell.asString rest])

/-- What a program does that starts another one, after setting variables for it. -/
def startOther (programs : Programs) (fs : FileSystem) (inv : Invocation) : Outcome :=
  let isSetting (a : String) : Bool := a.toList.contains '=' && a.toList.head? ≠ some '='
  let settings := inv.args.takeWhile isSetting
  let env := settings.foldl (fun (env : Environment) a =>
    match Text.cutAt '=' a.toList with
    | some (name, value) => env.set (.ofList name) (.ofList value)
    | none => env) inv.env
  match inv.args.drop settings.length with
  | [] =>
    let lines := env.vars.map fun v => v.1 ++ "=" ++ v.2 ++ "\n"
    { files := fs, stdout := (String.join lines).toUTF8 }
  | name :: args =>
    let launch : Launch := {
      program := ⟨name⟩, args, env, cwd := inv.cwd, stdin := inv.stdin, closed := inv.closed
      ignored := inv.ignored, asScript := true }
    match launch.start programs fs with
    | .ok (_, out) => out
    | .error e =>
      { files := fs
        stderr := ("env: '" ++ name ++ "': " ++ e.phrase ++ "\n").toUTF8
        exit := .code (if e = .noEntry then 127 else 126) }

/-- What the program itself does when another one starts it. -/
def startSelf (programs : Programs) (fs : FileSystem) (inv : Invocation) : Outcome :=
  let m : Machine := { files := fs, env := inv.env, cwd := inv.cwd, programs }
  let (reply, after) := (Cli.perform inv.args false).run m
  let said (code : Nat) (out err : String) : Outcome := {
    files := after.files, stdout := out.toUTF8, stderr := err.toUTF8, exit := .code code
    calls := Transcript.calls after.events, nanos := after.clock }
  match reply with
  | .usage => said 2 "" ""
  | .help text | .version text | .completions text => said 0 text ""
  | .ran code style =>
    said code (Transcript.collect Transcript.stdout? after.events)
      (Transcript.collect (Transcript.stderr? style) after.events)

/-- Where the programs of the system are. -/
structure SystemPrograms where
  shells : List Location
  starters : List Location
  /-- Where the program itself is. -/
  selves : List Location := []

/-- A machine with stand-ins, which are known by their contents. The count limits how many
programs start one another. -/
def Programs.withStandIns (system : SystemPrograms) (rules? : ByteArray → Option (List Rule)) :
    Nat → Programs
  | 0 => fun _ _ => .error .linkLoop
  | n + 1 => fun fs inv =>
    let inner := withStandIns system rules? n
    if system.shells.contains inv.program then .ok (Shell.run inner fs inv)
    else if system.starters.contains inv.program then .ok (startOther inner fs inv)
    else if system.selves.contains inv.program then .ok (startSelf inner fs inv)
    else
      match fs.node? inv.program with
      | some (.file contents _) =>
        match rules? contents, interpreter? contents with
        | some rules, _ => .ok (Rule.answer rules fs inv)
        | none, none => .error .notExecutable
        | none, some (path, args) => do
          let program ← fs.startable inv.cwd path
          inner fs { inv with
            program, path, name := path.text, args := args ++ [inv.path.text] ++ inv.args }
      | _ => .error .accessDenied

end ConanPipeline
