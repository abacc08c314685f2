import ConanPipeline.Shell.Format
import ConanPipeline.Shell.Expand

/-! Builtin commands that set and show variables, options, parameters and aliases.

Serves runs on test inputs only (`Programs/Known`); no theorem depends on it. -/

namespace ConanPipeline.Shell

abbrev Args := List (List Char)

/-- A name and the value after its equals sign. -/
def nameAndValue (cs : List Char) : List Char × Option (List Char) :=
  match Text.cutAt '=' cs with
  | some (name, value) => (name, some value)
  | none => (cs, none)

def checkName (name : List Char) : Run Unit := do
  if !isName name then giveUp (name ++ ofString ": bad variable name")

/-- Sets a variable whose name has still to be looked at. -/
def assignChecked (name value : List Char) : Run Unit := do
  checkName name
  assign name value

/-- Lists variables by their names, with a word in front. -/
def listVariables (front : List Char) (shown : Variable → Bool) : Run Unit := do
  let vs := ((← get).vars.filter shown).mergeSort fun a b => !b.name.lex a.name
  for v in vs do
    let value := match v.value with
      | some x => ['='] ++ quoteValue x
      | none => []
    emit (front ++ v.name ++ value ++ ['\n'])

/-- The commands `export` and `readonly`. -/
def markVariables (command : List Char) (mark : Variable → Variable) (marked : Variable → Bool)
    (args : Args) : Run Nat := do
  let (os, names) ← options "p" args
  if os.isEmpty && !names.isEmpty then
    for a in names do
      let (name, value) := nameAndValue a
      checkName name
      match value with
      | some x => assign name x
      | none => pure ()
      adjust fun s => s.put (mark ((s.find? name).getD { name }))
  else listVariables (command ++ [' ']) marked
  return 0

/-- The command `local`. -/
def makeLocal (args : Args) : Run Nat := do
  if (← get).hidden.isEmpty then giveUp (ofString "not in a function")
  for a in args do
    if a = ['-'] then hide a
    else
      let (name, value) := nameAndValue a
      checkName name
      hide name
      match value with
      | some x => assign name x
      | none => pure ()
  return 0

/-- The command `unset`. -/
def unsetNames (args : Args) : Run Nat := do
  let (os, names) ← options "vf" args
  let functions := os.getLast?.any fun o => o.1 = 'f'
  for a in names do
    if functions then
      adjust fun s => { s with functions := s.functions.filter fun f => f.1 ≠ a }
    else
      let name := (nameAndValue a).1
      checkName name
      unsetVariable name
  return 0

/-! Options of the shell. -/

/-- The options by letter and by name. -/
def optionNames : List (Char × String) :=
  [('e', "errexit"), ('f', "noglob"), ('I', "ignoreeof"), ('i', "interactive"), ('m', "monitor"),
    ('n', "noexec"), ('s', "stdin"), ('x', "xtrace"), ('v', "verbose"), ('V', "vi"),
    ('E', "emacs"), ('C', "noclobber"), ('a', "allexport"), ('b', "notify"), ('u', "nounset"),
    ('p', "privileged"), ('?', "nolog"), ('!', "debug")]

def setOption (on : Bool) (c : Char) : Run Unit := adjust fun s =>
  let others := s.options.filter (· ≠ c)
  { s with options := if on then c :: others else others }

/-- Sets an option by its letter. -/
def setLetter (on : Bool) (c : Char) : Run Unit := do
  if !(optionNames.any fun o => o.1 = c && c.isAlpha) then
    giveUp (ofString "Illegal option -" ++ [c])
  setOption on c

/-- Sets an option by its name, or lists all options. -/
def setNamed (on : Bool) (name : Option (List Char)) : Run Unit := do
  match name with
  | some cs =>
    match optionNames.find? fun o => o.2.toList = cs with
    | some (c, _) => setOption on c
    | none => giveUp (ofString "Illegal option -o " ++ cs)
  | none =>
    let s ← get
    if on then
      emit (ofString "Current option settings\n")
      for (c, name) in optionNames do
        let blanks := List.replicate (16 - name.length) ' '
        emit (name.toList ++ blanks ++ ofString (if s.option c then "on\n" else "off\n"))
    else
      for (c, name) in optionNames do
        emit (ofString ("set " ++ (if s.option c then "-o " else "+o ") ++ name ++ "\n"))

/-- Sets the options that one argument spells. An `o` takes its name from the arguments that
follow. -/
def setLetters (on : Bool) : List Char → Args → Run Args
  | [], rest => return rest
  | c :: cs, rest => do
    if c = 'o' then
      setNamed on rest.head?
      setLetters on cs (rest.drop 1)
    else
      setLetter on c
      setLetters on cs rest

/-- Sets the options at the front of the arguments of `set`, and the parameters after them. -/
def setArgs : Nat → Args → Run Unit
  | 0, _ => return
  | n + 1, args => do
    let params (ps : Args) : Run Unit := adjust fun s => { s with params := ps, optionIndex := 1,
                                                                  optionOffset := none }
    match args with
    | [] => return
    | ['-'] :: rest =>
      setOption false 'x'
      setOption false 'v'
      if !rest.isEmpty then params rest
    | ['-', '-'] :: rest => params rest
    | ('-' :: cs) :: rest => do setArgs n (← setLetters true cs rest)
    | ('+' :: cs) :: rest => do setArgs n (← setLetters false cs rest)
    | rest => params rest

/-- The command `set`. -/
def setCommand (args : Args) : Run Nat := do
  if args.isEmpty then listVariables [] fun v => v.value.isSome
  else setArgs args.length args
  return 0

/-- The command `shift`. -/
def shiftParams (args : Args) : Run Nat := do
  let n ← match args with
    | a :: _ => Number.readCount a
    | [] => pure 1
  if n > (← get).params.length then giveUp (ofString "can't shift that many")
  adjust fun s => { s with params := s.params.drop n, optionIndex := 1, optionOffset := none }
  return 0

/-! Reading. -/

/-- The characters of a line and whether each may be a separator; how many characters the line
takes; and whether it has an end. A backslash quotes what follows it, unless reading is raw. -/
def lineMarks (raw : Bool) : List Char → List (Char × Bool) × Nat × Bool
  | [] => ([], 0, false)
  | '\n' :: _ => ([], 1, true)
  | '\\' :: rest =>
    if raw then
      let (ms, n, ended) := lineMarks raw rest
      (('\\', true) :: ms, n + 1, ended)
    else match rest with
      | [] => ([], 1, false)
      | '\n' :: rest =>
        let (ms, n, ended) := lineMarks raw rest
        (ms, n + 2, ended)
      | c :: rest =>
        let (ms, n, ended) := lineMarks raw rest
        ((c, false) :: ms, n + 2, ended)
  | c :: rest =>
    let (ms, n, ended) := lineMarks raw rest
    (if c = '\x00' then ms else (c, true) :: ms, n + 1, ended)

/-- How far a line has been cut. The last field takes all that is left, but for what may stand at
the end of it. -/
structure Share where
  left : Nat
  done : Args := []
  current : List Char := []
  spaced : Bool := false
  /-- The last field without what may have to be dropped from its end. -/
  kept : Option (List Char) := none

namespace Share

def step (separators : List Char) (k : Share) (mark : Char × Bool) : Share :=
  let (c, loose) := mark
  let separates := loose && separators.contains c
  let blank := separates && Expand.blanks.contains c
  let add : Share := { k with current := k.current ++ [c] }
  if !loose then { add with spaced := false }
  else if k.left = 0 then
    if blank then { add with kept := k.kept.or (some k.current) }
    else { add with spaced := false, kept := if separates && k.spaced then k.kept else none }
  else if k.spaced then
    { k with current := if separates then [] else [c], spaced := blank }
  else if separates then
    if blank && k.current.isEmpty then k
    else if k.left = 1 then { add with left := 0, kept := some k.current, spaced := blank }
    else
      { k with
        left := k.left - 1, done := k.done ++ [k.current], current := [], spaced := blank }
  else add

def fields (k : Share) : Args :=
  let last := k.kept.getD k.current
  if last.isEmpty then k.done else k.done ++ [last]

end Share

/-- The command `read`. -/
def readLine (args : Args) : Run Nat := do
  let (os, names) ← options "p:r" args
  if names.isEmpty then giveUp (ofString "arg count")
  let (ms, n, ended) := lineMarks (os.any fun o => o.1 = 'r') ((← remaining 0).getD [])
  advance 0 n
  let separators := Expand.separators (← get).toContext
  let fields := (ms.foldl (Share.step separators) { left := names.length }).fields
  for (name, i) in names.zipIdx do
    assignChecked name (fields[i]?.getD [])
  return if ended then 0 else 1

/-! Options of scripts. -/

/-- Where the next option letter is: what is left of its argument, and the number of the argument
that comes after; `none` after the last option. -/
def nextLetters (args : Args) (index : Nat) (offset : Option Nat) :
    Option (List Char) × Nat :=
  let inside := (offset.filter fun _ => index > 1) >>= fun o =>
    (args[index - 2]?.filter fun a => o < a.length).map fun a => a.drop o
  match inside with
  | some cs => (some cs, index)
  | none =>
    match args[index - 1]? with
    | some ('-' :: c :: cs) =>
      if c = '-' && cs.isEmpty then (none, index + 1) else (some (c :: cs), index + 1)
    | _ => (none, index)

/-- The command `getopts`. -/
def getOption (args : Args) : Run Nat := do
  let (_, args) ← options "" args
  match args with
  | spec :: name :: rest => do
    let s ← get
    let args := if rest.isEmpty then s.params else rest
    let fresh : Bool := s.optionIndex > args.length + 1
    let index := if fresh then 1 else s.optionIndex
    let quiet := spec.head? = some ':'
    let finish (letter : Char) (left : List Char) (next : Nat) : Run Unit := do
      assign (ofString "OPTIND") (decimal next)
      assignChecked name [letter]
      let offset := if left.isEmpty then none
        else (args[next - 2]?).map fun a => a.length - left.length
      adjust fun s => { s with optionIndex := next, optionOffset := offset }
    let optarg (text : List Char) : Run Unit := assign (ofString "OPTARG") text
    let wrong (words : List Char) : Run Unit := do
      let _ ← write 2 (words ++ ['\n'])
      unsetVariable (ofString "OPTARG")
    match nextLetters args index (if fresh then none else s.optionOffset) with
    | (none, next) | (some [], next) =>
      finish '?' [] next
      return 1
    | (some (c :: left), next) =>
      let after := spec.dropWhile (· ≠ c)
      if c = ':' || after.isEmpty then
        if quiet then optarg [c]
        else wrong (ofString "Illegal option -" ++ [c])
        finish '?' left next
      else if after[1]? = some ':' then
        if !left.isEmpty then
          optarg left
          finish c [] next
        else match args[next - 1]? with
          | some a =>
            optarg a
            finish c [] (next + 1)
          | none =>
            if quiet then
              optarg [c]
              finish ':' [] next
            else
              wrong (ofString "No arg for -" ++ [c] ++ ofString " option")
              finish '?' [] next
      else
        optarg []
        finish c left next
      return 0
  | _ => giveUp (ofString "Usage: getopts optstring var [arg...]")

/-! Aliases. -/

/-- The command `alias`. -/
def aliasNames (args : Args) : Run Nat := do
  let shown (a : List Char × List Char) : List Char := a.1 ++ ['='] ++ quoteValue a.2 ++ ['\n']
  if args.isEmpty then
    for a in (← get).aliases do
      emit (shown a)
    return 0
  let mut code := 0
  for a in args do
    match nameAndValue a with
    | (name, some value) =>
      adjust fun s => { s with aliases := (name, value) :: s.aliases.filter fun p => p.1 ≠ name }
    | (name, none) =>
      match (← get).aliases.lookup name with
      | some value => emit (shown (name, value))
      | none =>
        let _ ← write 2 (ofString "alias: " ++ name ++ ofString " not found\n")
        code := 1
  return code

/-- The command `unalias`. -/
def unaliasNames (args : Args) : Run Nat := do
  let (os, names) ← options "a" args
  if !os.isEmpty then
    adjust fun s => { s with aliases := [] }
    return 0
  let mut code := 0
  for name in names do
    if ((← get).aliases.lookup name).isSome then
      adjust fun s => { s with aliases := s.aliases.filter fun p => p.1 ≠ name }
    else
      let _ ← write 2 (ofString "unalias: " ++ name ++ ofString " not found\n")
      code := 1
  return code

end ConanPipeline.Shell
