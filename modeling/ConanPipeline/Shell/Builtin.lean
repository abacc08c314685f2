import ConanPipeline.Shell.Condition
import ConanPipeline.Shell.Search
import ConanPipeline.Shell.Signal
import ConanPipeline.Shell.Variables

/-! The builtin commands that run no other commands.

Serves runs on test inputs only (`Programs/Known`); no theorem depends on it. -/

namespace ConanPipeline.Shell

/-! The working directory. -/

/-- A path from the top directory down with the names of another path worked into it; two dots
take a name away. -/
def extendPath (start : List (List Char)) (path : List Char) : List (List Char) :=
  ((Path.pieces path).filter fun w => !Path.isIdle w).foldl
    (fun names w => if w = ['.', '.'] then names.dropLast else names ++ [w]) start

/-- The slashes in front of a path from the top directory down. Just two of them are kept, as they
may mean something else than one. -/
def front (path : List Char) : List Char :=
  match path.takeWhile (· = '/') with
  | ['/', '/'] => ['/', '/']
  | _ => ['/']

/-- The names of a path. -/
def namesOf (path : List Char) : List (List Char) :=
  (Path.pieces path).filter fun w => !w.isEmpty

/-- Goes to a directory, if it is one. -/
def goTo (physical : Bool) (path : List Char) : Run Bool := do
  let s ← get
  let pwd :=
    if path.head? = some '/' then front path ++ ['/'].intercalate (extendPath [] path)
    else front s.pwd ++ ['/'].intercalate (extendPath (namesOf s.pwd) path)
  let target := if physical then asPath path else asPath pwd
  match s.files.status s.cwd target with
  | .ok (l, .directory) =>
    let pwd := if physical then ofString (FileSystem.pathOf l).text else pwd
    assign (ofString "OLDPWD") s.pwd true
    assign (ofString "PWD") pwd true
    adjust fun s => { s with
      cwd := l, pwd, tracked := s.tracked.map fun t => { t with stale := true } }
    return true
  | _ => return false

/-- Whether a path starts with one or two dots that stand alone. -/
def startsWithDots (path : List Char) : Bool :=
  match path.takeWhile (· ≠ '/') with
  | ['.'] | ['.', '.'] => true
  | _ => false

def changeDirectory (args : Args) : Run Nat := do
  let (os, args) ← options "LP" args
  let physical := os.getLast?.any fun o => o.1 = 'P'
  let s ← get
  let (dest, back) : List Char × Bool := match args with
    | [] => ((s.value "HOME").getD [], false)
    | ['-'] :: _ => ((s.value "OLDPWD").getD [], true)
    | d :: _ => (d, false)
  let direct := dest.head? = some '/' || startsWithDots dest
  let place := if dest.isEmpty then ['.'] else dest
  let among : List (List Char) := match s.value "CDPATH" with
    | some path => path.splitOn ':'
    | none => []
  let isDirectory (d : List Char) : Bool :=
    s.files.isDirectory s.cwd (asPath (if d.isEmpty then place else d ++ ['/'] ++ place))
  match if direct then none else among.find? isDirectory with
  | some d =>
    if !(← goTo physical (if d.isEmpty then place else d ++ ['/'] ++ place)) then
      giveUp (ofString "can't cd to " ++ dest)
    if back || !d.isEmpty then emit ((← get).pwd ++ ['\n'])
  | none =>
    if !(← goTo physical place) then giveUp (ofString "can't cd to " ++ dest)
    if back then emit ((← get).pwd ++ ['\n'])
  return 0

def printDirectory (args : Args) : Run Nat := do
  let (os, _) ← options "LP" args
  let s ← get
  let physical := os.getLast?.any fun o => o.1 = 'P'
  emit ((if physical then ofString (FileSystem.pathOf s.cwd).text else s.pwd) ++ ['\n'])
  return 0

/-! The mask of new files. -/

/-- The places of the bits of a class of users. -/
def usersOf (c : Char) : Option Nat :=
  match c with
  | 'u' => some 6
  | 'g' => some 3
  | 'o' => some 0
  | _ => none

def bitOf (c : Char) : Option Nat :=
  match c with
  | 'r' => some 4
  | 'w' => some 2
  | 'x' => some 1
  | _ => none

/-- Permissions with a clause of a symbolic mode worked into them. -/
def clause? (mode : Nat) (cs : List Char) : Option Nat := do
  let who := cs.takeWhile fun c => "ugoa".toList.contains c
  let who := if who.isEmpty || who.contains 'a' then ['u', 'g', 'o'] else who
  let op :: perms := cs.dropWhile fun c => "ugoa".toList.contains c | none
  if !"+-=".toList.contains op then none
  let bits ← perms.foldlM (fun n c => do
    match usersOf c, bitOf c with
    | some k, _ => some (n ||| (mode >>> k &&& 7))
    | none, some b => some (n ||| b)
    | none, none => none) 0
  let places := who.filterMap usersOf
  return places.foldl (fun mode k =>
    let old := mode >>> k &&& 7
    let new := match op with
      | '+' => old ||| bits
      | '-' => old - (old &&& bits)
      | _ => bits
    mode - (old <<< k) + (new <<< k)) mode

def maskFiles (args : Args) : Run Nat := do
  let (os, args) ← options "S" args
  let mask := (← get).mask
  match args with
  | [] =>
    if os.isEmpty then
      let ds := Nat.toDigits 8 mask
      emit (List.replicate (4 - ds.length) '0' ++ ds ++ ['\n'])
    else
      let shown (k : Nat) : List Char := "rwx".toList.filter fun c =>
        mask >>> k &&& (bitOf c).getD 0 = 0
      emit (ofString "u=" ++ shown 6 ++ ofString ",g=" ++ shown 3 ++ ofString ",o=" ++ shown 0 ++
        ['\n'])
  | a :: _ =>
    if (a.headD ' ').isDigit then
      if a.all Format.isOctal then
        adjust fun s => { s with mask := Number.valueOf 8 a &&& 0o777 }
      else giveUp (ofString "Illegal number: " ++ a)
    else
      match (a.splitOn ',').foldlM clause? (0o777 - mask) with
      | some mode => adjust fun s => { s with mask := 0o777 - mode }
      | none => giveUp (ofString "Illegal mode: " ++ a)
  return 0

/-! Signals. -/

/-- What a signal does to the shell that it is sent to. -/
def receive (n : Nat) : Run Unit := do
  if n ≠ 9 && (← get).deaf.contains n then return
  match (← get).traps.lookup n with
  | some action =>
    if n = 9 then throw (.killed n)
    if !action.isEmpty then adjust fun s => { s with signals := s.signals ++ [n] }
  | none => if n ≠ 0 && !Signal.harmless.contains n then throw (.killed n)

def killUsage : List Char :=
  ofString ("Usage: kill [-s sigspec | -signum | -sigspec] [pid | job]... or\n" ++
    "kill -l [exitstatus]")

/-- Sends a signal to a process. -/
def signalProcess (n : Nat) (target : List Char) : Run Nat := do
  if target.head? = some '%' then giveUp (ofString "No such job: " ++ target)
  let pid : Int ← match target with
    | '-' :: group => do pure (-(← Number.readCount group : Int))
    | _ => do pure (← Number.readCount target : Int)
  let s ← get
  if pid = Expand.processNumber || pid = 0 then
    receive n
    return 0
  else if s.jobs.any fun j => (j.1 : Int) = pid then
    if n ≠ 0 && !Signal.harmless.contains n then
      set { s with
        jobs := s.jobs.filter fun j => (j.1 : Int) ≠ pid
        done := (pid.toNat, 128 + n) :: s.done }
    return 0
  else
    complain (ofString "No such process\n")
    return 1

/-- What the arguments of `kill` ask for. -/
structure KillRequest where
  lists : Bool := false
  signal : Option Nat := none
  rest : Args

/-- Reads the front of the arguments of `kill`: one signal after a dash, or options. -/
def KillRequest.read (args : Args) : Run KillRequest := do
  match args with
  | ('-' :: cs) :: rest =>
    match Signal.ofText? 1 cs with
    | some n => return { signal := some n, rest }
    | none =>
      let (os, rest) ← options "ls:" args
      let signals ← (os.filter fun o => o.1 = 's').mapM fun o => do
        match Signal.ofText? 1 o.2 with
        | some n => pure n
        | none => giveUp (ofString "invalid signal number or name: " ++ o.2)
      return { lists := os.any fun o => o.1 = 'l', signal := signals.getLast?, rest }
  | _ => return { rest := args }

/-- Lists the names of all signals, or tells the name of one, which may be given by the code of a
process that it has killed. -/
def listSignals (args : Args) : Run Unit := do
  match args with
  | [] =>
    emit (ofString "0\n")
    for n in List.range (Signal.limit - 1) do
      emit (ofString (Signal.name (n + 1) ++ "\n"))
  | a :: _ =>
    let n ← Number.readCount a
    let n := if n > 128 then n - 128 else n
    if 0 < n && n < Signal.limit then emit (ofString (Signal.name n ++ "\n"))
    else giveUp (ofString "invalid signal number or exit status: " ++ a)

def kill (args : Args) : Run Nat := do
  if args.isEmpty then giveUp killUsage
  let asked ← KillRequest.read args
  if asked.lists then
    if asked.signal.isSome && !asked.rest.isEmpty then giveUp killUsage
    listSignals asked.rest
    return 0
  if asked.rest.isEmpty then giveUp killUsage
  let mut code := 0
  for target in asked.rest do
    if (← signalProcess (asked.signal.getD 15) target) ≠ 0 then code := 1
  return code

def setTraps (args : Args) : Run Nat := do
  let (_, args) ← options "" args
  match args with
  | [] =>
    for n in List.range Signal.limit do
      match (← get).traps.lookup n with
      | some action =>
        emit (ofString "trap -- " ++ quoteValue action ++ ofString (" " ++ Signal.name n ++ "\n"))
      | none => pure ()
    return 0
  | first :: rest =>
    let resets := rest.isEmpty || (Signal.ofNumber? first).isSome
    let action := if resets || first = ['-'] then none else some first
    set' action (if resets then args else rest)
where
  set' (action : Option (List Char)) : Args → Run Nat
    | [] => return 0
    | a :: rest =>
      match Signal.ofText? 0 a with
      | some n => do
        adjust fun s =>
          let others := s.traps.filter fun t => t.1 ≠ n
          { s with traps := match action with
            | some text => (n, text) :: others
            | none => others }
        set' action rest
      | none => do
        let _ ← write 2 (ofString "trap: " ++ a ++ ofString ": bad trap\n")
        return 1

/-! The way out. -/

def exitShell (args : Args) : Run Nat := do
  match args with
  | a :: _ =>
    let n ← Number.readCount a
    throw (.ended (n % 256))
  | [] => throw (.ended (← get).code)

def returnFrom (args : Args) : Run Nat := do
  match args with
  | a :: _ => setCode (← Number.readCount a)
  | [] => pure ()
  throw .returned

def leaveLoop (continues : Bool) (args : Args) : Run Nat := do
  let n ← match args with
    | a :: _ => do
      let n ← Number.readCount a
      if n = 0 then giveUp (ofString "Illegal number: " ++ a)
      pure n
    | [] => pure 1
  let depth := (← get).loopDepth
  setCode 0
  if depth = 0 then return 0
  throw (if continues then .continued (min n depth) else .broken (min n depth))

/-! What there is. -/

def tellTypes (args : Args) : Run Nat := do
  let mut code := 0
  for name in args do
    let s ← get
    let (text, found) ← describe (searchPath s.toContext) false name
    emit (text ++ ['\n'])
    if !found then code := 127
  return code

/-- The forms of the command `command` that only describe. -/
def describeCommand (brief : Bool) (path : List Char) (args : Args) : Run Nat := do
  match args with
  | [] => return 0
  | name :: _ =>
    let (text, found) ← describe path brief name
    if found || !brief then emit (text ++ ['\n'])
    return if found then 0 else 127

/-- The drawer that a tracked program is listed from. -/
def drawer (name : List Char) : Nat :=
  (name.foldl (fun n c => n + c.toNat) (16 * (name.headD '\x00').toNat)) % 0x8000 % 31

/-- The command `hash`. -/
def hashNames (args : Args) : Run Nat := do
  let (os, names) ← options "r" args
  if !os.isEmpty then
    adjust fun s => { s with tracked := [] }
    return 0
  if names.isEmpty then
    let known := (← get).tracked
    for k in List.range 31 do
      for t in known.filter fun t => drawer t.name = k do
        emit (t.path ++ (if t.stale then ['*', '\n'] else ['\n']))
  let mut code := 0
  for name in names do
    untrack name
    match ← lookUp (searchPath (← get).toContext) true name with
    | .missing e =>
      complain (name ++ ofString ": " ++ Errno.ofStart e)
      code := 1
    | _ => pure ()
  return code

def noJob (args : Args) : Run Nat := do
  let (_, args) ← options "" args
  match args with
  | a :: _ => giveUp (ofString "No such job: " ++ a)
  | [] => giveUp (ofString "No current job")

def tellTimes : Run Nat := do
  emit (ofString "0m0.000000s 0m0.000000s\n0m0.000000s 0m0.000000s\n")
  return 0

/-- The command `ulimit`. Of the limits only that of open files is kept. -/
def limitUse (args : Args) : Run Nat := do
  let (os, args) ← options "HSatfdscmlpnvwr" args
  let onFiles := os.getLast?.any fun o => o.1 = 'n'
  match args with
  | [] =>
    match (← get).openLimit.filter fun _ => onFiles with
    | some n => emit (decimal n ++ ['\n'])
    | none => emit (ofString "unlimited\n")
  | a :: _ =>
    if onFiles then
      let openLimit ← if a = ofString "unlimited" then pure none else some <$> Number.readCount a
      adjust fun s => { s with openLimit }
  return 0

/-- Runs a builtin command by its name. -/
def runBuiltin (name : List Char) (args : Args) : Run Nat := do
  match String.ofList name with
  | "echo" => emit (Format.echo args); return 0
  | "printf" => Format.print args
  | "test" | "[" => Condition.test name args
  | "false" => return 1
  | "cd" | "chdir" => changeDirectory args
  | "pwd" => printDirectory args
  | "umask" => maskFiles args
  | "kill" => kill args
  | "trap" => setTraps args
  | "exit" => exitShell args
  | "return" => returnFrom args
  | "break" => leaveLoop false args
  | "continue" => leaveLoop true args
  | "type" => tellTypes args
  | "hash" => hashNames args
  | "bg" | "fg" => noJob args
  | "times" => tellTimes
  | "ulimit" => limitUse args
  | "set" => setCommand args
  | "shift" => shiftParams args
  | "read" => readLine args
  | "getopts" => getOption args
  | "alias" => aliasNames args
  | "unalias" => unaliasNames args
  | "unset" => unsetNames args
  | "local" => makeLocal args
  | "export" =>
    markVariables name (fun v => { v with exported := true }) (fun v => v.exported) args
  | "readonly" =>
    markVariables name (fun v => { v with readOnly := true }) (fun v => v.readOnly) args
  | _ => return 0

end ConanPipeline.Shell
