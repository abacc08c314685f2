import ConanPipeline.Machine.Processes
import ConanPipeline.Shell.Reader

/-! What a shell knows while it runs: its variables, functions and open streams, and
the files and the record that it shares with the shells inside it.

Serves runs on test inputs only (`Programs/Known`); no theorem depends on it. -/

namespace ConanPipeline.Shell

/-! Bytes and characters. -/

def ofBytes (b : ByteArray) : List Char := b.toList.map fun x => Char.ofNat x.toNat

def toBytes (cs : List Char) : ByteArray := ⟨(cs.map fun c => UInt8.ofNat c.toNat).toArray⟩

def ofString (s : String) : List Char := ofBytes s.toUTF8

def asString (cs : List Char) : String := Text.ofBytes (toBytes cs)

def asPath (cs : List Char) : Path := ⟨asString cs⟩

def decimal (n : Int) : List Char := (toString n).toList

/-! State. -/

structure Variable where
  name : List Char
  /-- A variable may be marked without having a value. -/
  value : Option (List Char) := none
  exported : Bool := false
  readOnly : Bool := false
  deriving Inhabited

/-- What a stream leads to. -/
inductive Handle where
  | input (rest : List Char)
  | sink (text : List Char)
  | file (place : Location) (position : Nat) (append reads writes : Bool)
  | nowhere

/-- A program that was found on the search path and is found again without a search. -/
structure Tracked where
  name : List Char
  path : List Char
  /-- Whether the shell has gone to another directory since. -/
  stale : Bool := false

/-- What a shell has to itself. -/
structure Context where
  cwd : Location
  /-- The path of the working directory, as it was gone to. -/
  pwd : List Char
  vars : List Variable := []
  functions : List (List Char × Node) := []
  aliases : List (List Char × List Char) := []
  tracked : List Tracked := []
  name : List Char := ofString "sh"
  params : List (List Char) := []
  /-- The line of the command that is run. -/
  line : Nat := 0
  /-- The builtin command that is run, for what it complains about. -/
  label : List Char := []
  code : Nat := 0
  /-- The code of the last command in backquotes, if the present command had one. -/
  inner : Nat := 0
  /-- Output that a builtin command has not yet written. -/
  pending : List Char := []
  /-- The handle of each open stream. -/
  streams : List (Nat × Nat) := [(0, 0), (1, 1), (2, 2)]
  options : List Char := []
  mask : Nat := 0o022
  /-- What is done at a signal; the end of the shell is signal zero. -/
  traps : List (Nat × List Char) := []
  /-- Signals that do not reach the shell, whatever is set for them. -/
  deaf : List Nat := []
  /-- Signals that have come and were not yet attended to. -/
  signals : List Nat := []
  loopDepth : Nat := 0
  /-- Variables as they were before they were set for a while, latest first, by the function or
  command that they were set for. -/
  hidden : List (List (List Char × Option Variable)) := []
  /-- How many functions are being run. -/
  functionDepth : Nat := 0
  /-- The argument that `getopts` comes to, and how far it is in the one before. -/
  optionIndex : Nat := 1
  optionOffset : Option Nat := none
  /-- The number of the last command that was left to run beside the shell. -/
  beside : Option Nat := none
  /-- How many shells this one is inside of. -/
  nesting : Nat := 0
  /-- How many files a program may have open that the shell starts, if that is limited. -/
  openLimit : Option Nat := none

structure State extends Context where
  files : FileSystem
  programs : Programs
  accountHome : String := "/root"
  handles : Array Handle := #[.input [], .sink [], .sink []]
  calls : List Invocation := []
  documents : List (Nat × Word) := []
  /-- Commands that run beside the shell and have not yet come to their turn, by their numbers. -/
  jobs : List (Nat × Context × Node) := []
  /-- The codes of those that have ended. -/
  done : List (Nat × Nat) := []
  nanos : Nat := 0

/-- How a run of commands is left before its end. -/
inductive Flow where
  | ended (code : Nat)
  /-- The end of the process without a last word: it was killed, or became another program. -/
  | gone (exit : Exit)
  /-- The outermost shell was killed. -/
  | killed (signal : Nat)
  /-- A mistake that ends the shell, unless a builtin command made it. -/
  | fault
  | broken (levels : Nat)
  | continued (levels : Nat)
  | returned
  deriving DecidableEq

abbrev Run := ExceptT Flow (StateM State)

namespace Context

def find? (s : Context) (name : List Char) : Option Variable :=
  s.vars.find? fun v => v.name = name

def get? (s : Context) (name : List Char) : Option (List Char) := s.find? name >>= Variable.value

def value (s : Context) (name : String) : Option (List Char) := s.get? (ofString name)

def put (s : Context) (v : Variable) : Context :=
  { s with vars := s.vars.filter (fun w => w.name ≠ v.name) ++ [v] }

def drop (s : Context) (name : List Char) : Context :=
  { s with vars := s.vars.filter fun v => v.name ≠ name }

def option (s : Context) (c : Char) : Bool := s.options.contains c

/-- The signals that do not reach programs which the shell starts. -/
def ignored (s : Context) : List Nat :=
  s.deaf ++ (s.traps.filter fun t => t.1 ≠ 0 && t.2.isEmpty).map Prod.fst

/-- What programs get as their variables. -/
def exports (s : Context) : List (String × String) :=
  s.vars.filterMap fun v =>
    if v.exported then v.value.map fun x => (asString v.name, asString x) else none

/-- Forgets where programs are, if the variable is the one that they depend on. -/
def changed (s : Context) (name : List Char) : Context :=
  if name = ofString "PATH" then { s with tracked := [] } else s

/-- Variables as they were before they were set for a while. -/
def restore (s : Context) (saved : List (List Char × Option Variable)) : Context :=
  saved.foldl (fun s (name, old) => match old with
    | some v =>
      if name = ['-'] then { s with options := v.value.getD [] } else (s.put v).changed name
    | none => (s.drop name).changed name) s

end Context

/-- The files as they are for a program that the shell starts. One that goes down a tree has all
directories open that it is in, so it gets no deeper than the limit lets it. -/
def State.filesLent (s : State) : FileSystem :=
  match s.openLimit with
  | none => s.files
  | some n => { s.files with
    refused := fun d l =>
      match d, s.files.node? l with
      | .read, some .directory =>
        if n ≤ l.length then some .tooManyOpen else s.files.refused d l
      | _, _ => s.files.refused d l }

/-- Changes what the shell has to itself. -/
def adjust (f : Context → Context) : Run Unit :=
  modify fun s => { s with toContext := f s.toContext }

def setCode (n : Nat) : Run Unit := adjust fun s => { s with code := n }

/-- Runs something, and something else after it however it is left. -/
def finally' {α : Type} (body : Run α) (after : Run Unit) : Run α := do
  let a ← tryCatch body fun f => do
    after
    throw f
  after
  return a

/-! Streams. -/

/-- Replaces bytes of a file from a position on. -/
def patch (old new : List Char) (position : Nat) : List Char :=
  let front := old.take position
  front ++ List.replicate (position - front.length) '\x00' ++ new ++
    old.drop (position + new.length)

/-- Writes to a handle; no success if nothing can be written there. -/
def writeHandle (h : Nat) (text : List Char) : Run Bool := do
  let s ← get
  match s.handles[h]? with
  | some (.sink before) =>
    set { s with handles := s.handles.set! h (.sink (before ++ text)) }
    return true
  | some .nowhere => return true
  | some (.file place position append reads true) =>
    match s.files.node? place with
    | some (.file contents mode) =>
      let old := ofBytes contents
      let here := if append then old.length else position
      set { s with
        files := s.files.put place (.file (toBytes (patch old text here)) mode)
        handles := s.handles.set! h (.file place (here + text.length) append reads true) }
      return true
    | _ => return true
  | _ => return false

def write (fd : Nat) (text : List Char) : Run Bool := do
  match (← get).streams.lookup fd with
  | none => return text.isEmpty
  | some h => if text.isEmpty then return true else writeHandle h text

/-- What is left to read from a stream; `none` if nothing can be read there. -/
def remaining (fd : Nat) : Run (Option (List Char)) := do
  let s ← get
  match s.streams.lookup fd >>= fun h => s.handles[h]? with
  | some (.input rest) => return some rest
  | some (.file place position _ true _) =>
    match s.files.node? place with
    | some (.file contents _) => return some ((ofBytes contents).drop position)
    | _ => return some []
  | some .nowhere => return some []
  | _ => return none

/-- Goes over the first bytes of a stream. -/
def advance (fd n : Nat) : Run Unit := modify fun s =>
  match s.streams.lookup fd with
  | none => s
  | some h =>
    match s.handles[h]? with
    | some (.input rest) => { s with handles := s.handles.set! h (.input (rest.drop n)) }
    | some (.file place position append reads writes) =>
      { s with handles := s.handles.set! h (.file place (position + n) append reads writes) }
    | _ => s

/-- Adds a handle, and gives its number. -/
def open' (h : Handle) : Run Nat := do
  let s ← get
  set { s with handles := s.handles.push h }
  return s.handles.size

def lead (fd h : Nat) : Run Unit :=
  adjust fun s => { s with streams := (fd, h) :: s.streams.filter fun p => p.1 ≠ fd }

def close (fd : Nat) : Run Unit :=
  adjust fun s => { s with streams := s.streams.filter fun p => p.1 ≠ fd }

/-- What was written to a handle. -/
def sunk (h : Nat) : Run (List Char) := do
  match (← get).handles[h]? with
  | some (.sink text) => return text
  | _ => return []

/-- Output of a builtin command. -/
def emit (text : List Char) : Run Unit := adjust fun s => { s with pending := s.pending ++ text }

/-- Writes the output that has gathered. -/
def flush : Run Bool := do
  let text := (← get).pending
  adjust fun s => { s with pending := [] }
  write 1 text

/-! Complaints. -/

def complain (text : List Char) : Run Unit := do
  let s ← get
  let label := if s.label.isEmpty then [] else s.label ++ ofString ": "
  let place := s.name ++ ofString ": " ++ decimal s.line ++ ofString ": "
  let _ ← write 2 (place ++ label ++ text ++ ['\n'])

/-- Complains and gives up the command, and with it the shell if the command is a special one. -/
def giveUp {α : Type} (text : List Char) (code : Nat := 2) : Run α := do
  complain text
  let _ ← flush
  setCode code
  throw .fault

/-! Variables. -/

/-- Puts a variable down as it is, to be set back when the present function or command ends. -/
def hide (name : List Char) : Run Unit := adjust fun s =>
  match s.hidden with
  | [] => s
  | saved :: more =>
    let old := if name = ['-'] then some { name, value := some s.options } else s.find? name
    { s with hidden := ((name, old) :: saved) :: more }

/-- Runs something for which variables may be set for a while. -/
def withHidden {α : Type} (body : Run α) : Run α := do
  adjust fun s => { s with hidden := [] :: s.hidden }
  finally' body <| adjust fun s =>
    match s.hidden with
    | [] => s
    | saved :: more => { s.restore saved with hidden := more }

/-- Sets a variable. -/
def assign (name value : List Char) (exported : Bool := false) : Run Unit := do
  let s ← get
  let old := (s.find? name).getD { name }
  if old.readOnly then giveUp (name ++ ofString ": is read only")
  adjust fun s => (s.put {
    old with
    value := some value
    exported := old.exported || exported || s.option 'a' }).changed name
  if name = ofString "OPTIND" then
    match (asString value).toNat? with
    | some n => adjust fun s => { s with optionIndex := max n 1, optionOffset := none }
    | none => giveUp (ofString "Illegal number: " ++ value)

def unsetVariable (name : List Char) : Run Unit := do
  match (← get).find? name with
  | some v =>
    if v.readOnly then giveUp (name ++ ofString ": is read only")
    adjust fun s => (s.drop name).changed name
  | none => return

/-- A text in quotes, piece by piece: single quotes stand in double ones, all else in single
ones. -/
def quoteWithin : Nat → List Char → List Char
  | 0, _ => []
  | n + 1, cs =>
    let plain := cs.takeWhile (· ≠ '\'')
    let rest := cs.drop plain.length
    let quotes := rest.takeWhile (· = '\'')
    let rest := rest.drop quotes.length
    ['\''] ++ plain ++ ['\''] ++ (if quotes.isEmpty then [] else ['"'] ++ quotes ++ ['"']) ++
      (if rest.isEmpty then [] else quoteWithin n rest)

/-- A value as the shell prints it. -/
def quoteValue (cs : List Char) : List Char := quoteWithin (cs.length + 1) cs

end ConanPipeline.Shell
