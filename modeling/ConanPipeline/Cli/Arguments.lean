/-! Command line arguments by the usual rules: long options with `=` or a word after
them, short ones in clusters, `--` before words that only look like options, and
subcommands with arguments of their own. -/

namespace ConanPipeline.Cli

/-- What an option or a positional argument takes. -/
inductive Takes where
  | nothing
  /-- Any text. -/
  | text
  /-- A text that is not empty. -/
  | path
  | oneOf (words : List String)
  deriving DecidableEq, Repr

def Takes.accepts : Takes → String → Bool
  | nothing, _ => false
  | text, _ => true
  | path, v => !v.isEmpty
  | oneOf words, v => words.contains v

structure OptionSpec where
  long : String
  short : Option Char := none
  takes : Takes := .nothing
  /-- The variable that gives the value if the option is not there. -/
  var : Option String := none
  help : String := ""
  deriving DecidableEq, Repr

structure PositionalSpec where
  name : String
  required : Bool := true
  takes : Takes := .text
  deriving DecidableEq, Repr

/-- What a command accepts, apart from the options that all commands accept. -/
structure CommandSpec where
  name : String
  help : String := ""
  options : List OptionSpec := []
  positionals : List PositionalSpec := []
  /-- Pairs of options that exclude each other. -/
  excludes : List (String × String) := []
  /-- Names of the subcommands. One of them is required if there are any. -/
  subcommands : List String := []
  deriving DecidableEq, Repr

/-- The commands of a program. A subcommand is found by the names that lead to it. -/
structure Grammar where
  program : String
  version : String
  /-- Options that every command accepts. -/
  global : List OptionSpec
  globalExcludes : List (String × String) := []
  commands : List (List String × CommandSpec)

/-- Why the arguments are not run as a command. -/
inductive Stop where
  | usage
  | help (command : List String)
  | version
  deriving DecidableEq, Repr

/-- What one command of a line was given. -/
structure Level where
  spec : CommandSpec
  /-- Options in the order of their appearance, with their values. -/
  options : List (String × String) := []
  positionals : List String := []

/-- An option that waits for its value, or for the check of it. -/
inductive Waiting where
  | nothing
  | value (o : OptionSpec)
  | check (o : OptionSpec) (v : String)

/-- The state between two words. -/
structure Scan where
  /-- The commands above the current one, nearest first. -/
  above : List Level := []
  level : Level
  waiting : Waiting := .nothing
  /-- Whether a command above was given a value that it does not take. -/
  failed : Bool := false
  /-- Whether `--` has been seen. -/
  literal : Bool := false
  /-- The names that led to the current command. -/
  names : List String := []

namespace Level

/-- Adds an option. It may be given once, and with a value that it takes. -/
def give (l : Level) (o : OptionSpec) (v : String) : Except Stop Level :=
  if l.options.any fun p => p.1 == o.long then .error .usage
  else if o.takes != .nothing && !o.takes.accepts v then .error .usage
  else .ok { l with options := l.options ++ [(o.long, v)] }

/-- Adds a positional argument. -/
def push (l : Level) (v : String) : Except Stop Level :=
  match l.spec.positionals[l.positionals.length]? with
  | none => .error .usage
  | some p => if p.takes.accepts v then .ok { l with positionals := l.positionals ++ [v] }
    else .error .usage

def excluded (l : Level) (pairs : List (String × String)) : Bool :=
  let has (n : String) : Bool := l.options.any fun p => p.1 == n
  pairs.any fun p => has p.1 && has p.2

end Level

namespace Grammar

def find? (g : Grammar) (names : List String) : Option CommandSpec := g.commands.lookup names

/-- The options of the current command. The program itself also has `version`. -/
def options (g : Grammar) (s : Scan) : List OptionSpec :=
  s.level.spec.options ++ g.global ++ [{ long := "help", short := some 'h' }] ++
    (if s.names.isEmpty then [{ long := "version", short := some 'V' }] else [])

/-- Settles the option that waits. -/
def settle (s : Scan) : Except Stop Scan :=
  match s.waiting with
  | .nothing => .ok s
  | .value _ => .error .usage
  | .check o v => do
    let level ← s.level.give o v
    .ok { s with level, waiting := .nothing }

/-- Takes an option that has no value. -/
def flag (s : Scan) (o : OptionSpec) : Except Stop Scan := do
  let s ← settle s
  if o.long = "help" then .error (.help s.names)
  else if o.long = "version" then .error .version
  else .ok { s with level := ← s.level.give o "" }

def long (g : Grammar) (s : Scan) (body : List Char) : Except Stop Scan :=
  let name : String := .ofList (body.takeWhile (· != '='))
  let value? := match body.dropWhile (· != '=') with
    | _ :: v => some (String.ofList v)
    | [] => none
  match (g.options s).find? fun o => o.long == name with
  | none => .error .usage
  | some o =>
    match o.takes, value? with
    | .nothing, none => flag s o
    | .nothing, some _ => .error .usage
    | _, some v => do
      let s ← settle s
      .ok { s with level := ← s.level.give o v }
    | _, none => do
      let s ← settle s
      .ok { s with waiting := .value o }

/-- Takes the letters of a cluster one by one. -/
def cluster (g : Grammar) : Scan → List Char → Except Stop Scan
  | s, [] => .ok s
  | s, c :: cs =>
    match (g.options s).find? fun o => o.short == some c with
    | none => .error .usage
    | some o => do g.cluster (← flag s o) cs

/-- Follows names from a command down, as `help` does. -/
def helpFor (g : Grammar) : List String → List String → Stop
  | names, [] => .help names
  | names, w :: ws =>
    match g.find? names with
    | none => .usage
    | some spec =>
      if w = "help" && !spec.subcommands.isEmpty then
        if ws.isEmpty then .help names else .usage
      else if spec.subcommands.contains w then g.helpFor (names ++ [w]) ws
      else .usage

/-- Takes a word that is no option. A value that waits to be checked does not keep a subcommand
from being read first. -/
def plain (g : Grammar) (s : Scan) (w : String) (rest : List String) : Except Stop Scan :=
  if !s.literal && w = "help" && !s.level.spec.subcommands.isEmpty then
    .error (g.helpFor s.names rest)
  else if !s.literal && s.level.spec.subcommands.contains w then
    match g.find? (s.names ++ [w]) with
    | none => .error .usage
    | some spec =>
      let (level, bad) := match settle s with
        | .ok s => (s.level, false)
        | .error _ => (s.level, true)
      .ok {
        above := level :: s.above
        level := { spec }
        failed := s.failed || bad
        names := s.names ++ [w] }
  else do
    let s ← settle s
    .ok { s with level := ← s.level.push w }

def word (g : Grammar) (s : Scan) (w : String) (rest : List String) : Except Stop Scan :=
  if s.literal then plain g s w rest
  else
    match s.waiting, w.toList with
    | _, ['-', '-'] => .ok { s with literal := true }
    | _, '-' :: '-' :: body => g.long s body
    | _, '-' :: c :: cs => g.cluster s (c :: cs)
    | .value o, _ => .ok { s with waiting := .check o w }
    | _, _ => plain g s w rest

def words (g : Grammar) : Scan → List String → Except Stop Scan
  | s, [] => .ok s
  | s, w :: ws => do g.words (← g.word s w ws) ws

/-- Checks a command that is complete. `var?` gives the variables that stand in for options. -/
def complete (g : Grammar) (var? : String → Option String) (l : Level) : Except Stop Unit := do
  let missing := (l.spec.positionals.drop l.positionals.length).any PositionalSpec.required
  if missing || l.excluded l.spec.excludes || l.excluded g.globalExcludes then throw .usage
  for o in g.global do
    if let some v := o.var >>= var? then
      if !(l.options.any fun p => p.1 == o.long) && !o.takes.accepts v then throw .usage

/-- The commands that a line names, the last one first, each with what it was given. -/
def read (g : Grammar) (var? : String → Option String) (args : List String) :
    Except Stop (List String × List Level) := do
  let some spec := g.find? [] | throw .usage
  let s ← g.words { level := { spec } } args
  if !s.level.spec.subcommands.isEmpty then throw .usage
  let s ← settle s
  if s.failed then throw .usage
  let levels := s.level :: s.above
  for l in levels do
    g.complete var? l
  return (s.names, levels)

end Grammar

/-- The value of an option, from the last command that has it. -/
def value? (levels : List Level) (name : String) : Option String :=
  levels.findSome? fun l => l.options.lookup name

def isSet (levels : List Level) (name : String) : Bool := (value? levels name).isSome

end ConanPipeline.Cli
