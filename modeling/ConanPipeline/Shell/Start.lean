import ConanPipeline.Shell.Evaluate

/-! A shell from its start to its end: what it takes from the arguments and variables
that it is given, and where it reads its commands.

Serves runs on test inputs only (`Programs/Known`); no theorem depends on it. -/

namespace ConanPipeline.Shell

/-- What the arguments of a shell ask for. -/
structure Start where
  /-- Whether the first argument after the options is the script itself. -/
  spelled : Bool := false
  rest : Args := []

namespace Start

/-- Sets the options that one argument spells. -/
def letters (on : Bool) (start : Start) : List Char → Args → Run (Start × Args)
  | [], rest => return (start, rest)
  | c :: cs, rest => do
    if c = 'c' then letters on { start with spelled := true } cs rest
    else if c = 'l' then letters on start cs rest
    else if c = 'o' then
      if rest.isEmpty then adjust fun s => { s with options := optionNames.map Prod.fst }
      setNamed on rest.head?
      let _ ← flush
      if rest.isEmpty then adjust fun s => { s with options := [] }
      letters on start cs (rest.drop 1)
    else
      setLetter on c
      letters on start cs rest

/-- Reads the options in front of the arguments. -/
def options : Nat → Start → Args → Run Start
  | 0, start, args => return { start with rest := args }
  | n + 1, start, args => do
    match args with
    | ['-'] :: rest | ['-', '-'] :: rest => return { start with rest }
    | ('-' :: cs) :: rest => do
      let (start, rest) ← letters true start cs rest
      options n start rest
    | ('+' :: cs) :: rest => do
      let (start, rest) ← letters false start cs rest
      options n start rest
    | _ => return { start with rest := args }

end Start

/-- The variables that every shell has, unless it is given others. -/
def ownVariables : List (String × String) :=
  [("PATH", String.ofList Found.commonPath), ("PPID", "1"), ("PS1", "# "), ("PS2", "> "),
    ("PS4", "+ "), ("IFS", " \t\n"), ("OPTIND", "1")]

/-- The variables of a shell at its start. Of those given, only the ones with proper names
count, and `IFS` and `OPTIND` keep their own values. -/
def variablesOf (given : List (String × String)) : List Variable :=
  let fixed := ["IFS", "OPTIND", "PPID"]
  let proper := given.filter fun v => isName (ofString v.1)
  let own := ownVariables.map fun (name, value) =>
    let known := proper.any fun v => v.1 = name
    let value := if fixed.contains name then value else (proper.lookup name).getD value
    { name := ofString name, value := some (ofString value), exported := known : Variable }
  let others := proper.filter fun v => !(ownVariables.any fun o => o.1 = v.1)
  own ++ others.map fun v =>
    { name := ofString v.1, value := some (ofString v.2), exported := true }

/-- The path of the working directory: the one that is set, if it leads there. -/
def directoryName (fs : FileSystem) (cwd : Location) (given : Option (List Char)) :
    Option (List Char) :=
  let there (p : List Char) : Bool :=
    p.head? = some '/' && (match fs.status cwd (asPath p) with
      | .ok (l, _) => l = cwd
      | .error _ => false)
  match given.filter there with
  | some p => some p
  | none => if FileSystem.isGone cwd then none else some (ofString (FileSystem.pathOf cwd).text)

/-- Sets the path of the working directory. -/
def findDirectory : Run Unit := do
  let s ← get
  let found := directoryName s.files s.cwd (s.value "PWD")
  if found.isNone then
    complain (ofString ("getcwd() failed: " ++ Errno.noEntry.phrase))
  let pwd := found.getD []
  adjust fun s => { s with pwd }
  assign (ofString "PWD") pwd true

/-- How many commands may be inside one another. -/
def depthLimit : Nat := 20000

/-- Does what a shell with some arguments does. -/
def obey (args : Args) : Run Unit := do
  let ev := evaluate depthLimit
  findDirectory
  let start ← Start.options args.length {} args
  let named (name : List Char) (params : Args) : Run Unit := adjust fun s =>
    { s with name, params }
  if start.spelled then
    match start.rest with
    | [] => giveUp (ofString "-c requires an argument")
    | text :: rest =>
      match rest with
      | name :: params => named name params
      | [] => pure ()
      setCode (← Evaluator.script ev {} text)
  else
    let fromFile : Bool := !start.rest.isEmpty && !(← get).option 's'
    match start.rest with
    | file :: params =>
      if fromFile then
        let s ← get
        let text ← match s.files.status s.cwd (asPath file) with
          | .ok (_, .file contents _) => pure (ofBytes contents)
          | .ok _ => pure []
          | .error e => Target.cannotOpen file e
        named file params
        setCode (← Evaluator.script ev {} text)
      else adjust fun s => { s with params := start.rest }
    | [] => pure ()
    if !fromFile then
      let text := (← remaining 0).getD []
      advance 0 text.length
      setCode (← Evaluator.script ev {} text)

/-- Runs a shell, and then what it has left to run beside it. -/
def whole (args : Args) : Run Exit := do
  let ev := evaluate depthLimit
  let e ← tryCatch (Evaluator.toEnd ev (obey args)) fun
    | .killed n => return .killed n
    | _ => return .code (← get).code
  Evaluator.catchUp ev
  return e

/-- What a shell does as a program among others. -/
def run (programs : Programs) (fs : FileSystem) (inv : Invocation) : Outcome :=
  let context : Context := {
    cwd := inv.cwd, pwd := [], vars := variablesOf inv.env.vars, name := ofString inv.name
    deaf := inv.ignored
    streams := [(0, 0), (1, 1), (2, 2)].filter fun p => !inv.closed.contains p.1 }
  let s : State := { context with
    files := fs, programs, accountHome := inv.env.accountHome
    handles := #[.input (ofBytes inv.stdin), .sink [], .sink []] }
  let (result, s) := (whole (inv.args.map ofString)).run.run s
  let written (h : Nat) : ByteArray := match s.handles[h]? with
    | some (.sink text) => toBytes text
    | _ => ByteArray.empty
  { files := s.files, stdout := written 1, stderr := written 2, calls := s.calls, nanos := s.nanos
    exit := match result with
      | .ok e => e
      | .error _ => .code s.code }

end ConanPipeline.Shell
