import ConanPipeline.Shell.Arithmetic

/-! What words stand for. A word is first turned into marked characters, which tell
where it may be cut into fields and what may be part of a file name pattern.

Serves runs on test inputs only (`Programs/Known`); no theorem depends on it. -/

namespace ConanPipeline.Shell

/-- The value of a parameter; of the list of all parameters, one by one. -/
inductive Value where
  | unset
  | one (text : List Char)
  | many (texts : List (List Char))

/-- The character between all parameters when they make one text. -/
def joint (s : Context) : List Char :=
  match s.value "IFS" with
  | some cs => cs.take 1
  | none => [' ']

namespace Value

/-- The value as one text. -/
def text (s : Context) : Value → List Char
  | .unset => []
  | .one cs => cs
  | .many ps => (joint s).intercalate ps

def isUnset : Value → Bool
  | .unset => true
  | _ => false

def isEmpty : Value → Bool
  | .unset => true
  | .one cs => cs.isEmpty
  | .many ps => ps.all List.isEmpty && ps.length ≤ 1

end Value

/-- A character of an expanded word. -/
inductive Mark where
  /-- Stands for itself. It may be part of a pattern if it is active, and is cut away as a separator
  if it is loose and `IFS` holds it. -/
  | char (c : Char) (active loose : Bool)
  /-- Quotes: there is a field, even if it is empty. -/
  | hold
  /-- Parts one parameter from the next. -/
  | gap
  /-- The start of a stretch that may be cut; if it is `whole`, only at gaps. -/
  | seam (whole : Bool)
  deriving DecidableEq

/-- How a word is expanded. -/
structure Manner where
  /-- Whether fields are made of it. -/
  full : Bool := false
  /-- Whether a tilde is looked at after each colon. -/
  colons : Bool := false
  /-- Whether text without quotes may be cut. -/
  loose : Bool := false
  /-- Runs commands and gives what they print. -/
  output : Option Node → Run (List Char)

namespace Expand

/-- The options that are set, in the order in which they are shown. -/
def optionLetters : List Char := "pubaCEVvxsnmiIfe".toList

/-- The number that stands for the process of a shell. -/
def processNumber : Nat := 1000

def valueOf (s : Context) (name : List Char) : Value :=
  let ofOption (v : Option (List Char)) : Value :=
    match v with
    | some cs => .one cs
    | none => .unset
  match name with
  | ['?'] => .one (decimal s.code)
  | ['$'] => .one (decimal processNumber)
  | ['#'] => .one (decimal s.params.length)
  | ['-'] => .one (optionLetters.filter s.option)
  | ['!'] => ofOption (s.beside.map fun n => decimal n)
  | ['@'] | ['*'] => .many s.params
  | c :: _ =>
    if c.isDigit then
      match Number.valueOf 10 name with
      | 0 => .one s.name
      | n + 1 => ofOption s.params[n]?
    else ofOption (s.get? name)
  | [] => .unset

/-- A text that a value gives. -/
def plainMarks (quoted : Bool) (cs : List Char) : List Mark :=
  cs.map fun c => .char c (!quoted) (!quoted)

/-- The marks of the value of a parameter. -/
def valueMarks (m : Manner) (s : Context) (name : List Char) (quoted : Bool) (v : Value) :
    List Mark :=
  match v with
  | .many ps =>
    if m.full && quoted && name = ['@'] then
      if ps.isEmpty then []
      else .seam true :: [Mark.gap].intercalate (ps.map (plainMarks true))
    else if m.full && !quoted then
      .seam false :: [Mark.gap].intercalate (ps.map (plainMarks false))
    else plainMarks quoted (v.text s)
  | v => (if quoted then [] else [.seam false]) ++ plainMarks quoted (v.text s)

/-- The home directories of the accounts that every system has. -/
def systemHomes : List (String × String) :=
  [("daemon", "/usr/sbin"), ("bin", "/bin"), ("sys", "/dev"), ("sync", "/bin"),
    ("games", "/usr/games"), ("man", "/var/cache/man"), ("lp", "/var/spool/lpd"),
    ("mail", "/var/mail"), ("news", "/var/spool/news"), ("uucp", "/var/spool/uucp"),
    ("proxy", "/bin"), ("www-data", "/var/www"), ("backup", "/var/backups"),
    ("list", "/var/list"), ("irc", "/run/ircd"), ("_apt", "/nonexistent"),
    ("nobody", "/nonexistent")]

/-- The directory that a tilde with a name stands for. -/
def home? (s : State) (name : List Char) : Option (List Char) :=
  if name.isEmpty then s.value "HOME"
  else if name = ofString "root" then some (ofString s.accountHome)
  else (systemHomes.lookup (String.ofList name)).map ofString

/-- Text without quotes that a tilde may start. The flag `ends` says that a name may reach up to
the end of the text. -/
def tildeMarks (s : State) (ends : Bool) (mark : Char → Mark) (cs : List Char) : List Mark :=
  match cs with
  | '~' :: rest =>
    let name := rest.takeWhile (· ≠ '/')
    let after := rest.drop name.length
    if after.isEmpty && !ends then cs.map mark
    else match home? s name with
      | some home => home.map (fun c => Mark.char c false false) ++ after.map mark
      | none => cs.map mark
  | _ => cs.map mark

/-- Text without quotes. The flags say whether it stands first and last in its word. -/
def textMarks (s : State) (m : Manner) (first last : Bool) (cs : List Char) : List Mark :=
  let mark (c : Char) : Mark := .char c true m.loose
  let start : List Mark := if m.loose then [.seam false] else []
  if m.colons then
    let parts := cs.splitOn ':'
    let marked := parts.zipIdx.map fun (part, i) =>
      if i = 0 && !first then part.map mark
      else tildeMarks s (last || i + 1 < parts.length) mark part
    start ++ [mark ':'].intercalate marked
  else start ++ (if first then tildeMarks s last mark cs else cs.map mark)

/-- Whether the next piece of a word still belongs to the quotes before it. -/
def goesOn : Word → Bool
  | .parameter _ _ true :: _ | .command _ true :: _ | .arithmetic _ true :: _ => true
  | _ => false

/-- Whether a word goes on with all parameters, quoted, and then leaves the quotes. -/
def isAllQuoted : Word → Bool
  | .parameter ['@'] .plain true :: rest => !goesOn rest
  | _ => false

/-- The flat text of marks. -/
def flat (ms : List Mark) : List Char :=
  ms.filterMap fun m => match m with
    | .char c _ _ => some c
    | .gap => some ' '
    | _ => none

/-- The marks as a pattern. -/
def asPattern (ms : List Mark) : Pattern :=
  ms.filterMap fun m => match m with
    | .char c active _ => some (c, active)
    | .gap => some (' ', true)
    | _ => none

def missing {α : Type} (name text : List Char) : Run α := giveUp (name ++ ofString ": " ++ text)

/-- A value that is needed. -/
def demand (name : List Char) (v : Value) : Run Unit := do
  if v.isUnset && (← get).option 'u' then missing name (ofString "parameter not set")

mutual

def pieces (m : Manner) (first : Bool) : List Piece → Run (List Mark)
  | [] => return []
  | p :: ps => do
    let front ← match p with
      | .text cs false => pure (textMarks (← get) m first ps.isEmpty cs)
      | .text [] true => pure (if isAllQuoted ps then [] else [.hold])
      | .text cs true => pure (cs.map fun c => .char c false false)
      | .parameter name use quoted => parameter m name quoted use
      | .command body quoted => do
        let text ← m.output body
        pure ((if quoted then [] else [.seam false]) ++ plainMarks quoted text)
      | .arithmetic expr quoted => do
        let text ← pieces { m with full := false, loose := false } false expr
        let n ← Arithmetic.evaluate (flat text)
        pure ((if quoted then [] else [.seam false]) ++ plainMarks quoted (decimal n))
    return front ++ (← pieces m false ps)

def parameter (m : Manner) (name : List Char) (quoted : Bool) : Use → Run (List Mark)
  | .plain => do
    let v := valueOf (← get).toContext name
    demand name v
    return valueMarks m (← get).toContext name quoted v
  | .broken => giveUp (ofString "Bad substitution")
  | .length => do
    let s ← get
    let v := valueOf s.toContext name
    demand name v
    let n := (v.text s.toContext).length
    return (if quoted then [] else [.seam false]) ++ plainMarks quoted (decimal n)
  | .orElse orEmpty w => do
    let v := valueOf (← get).toContext name
    if v.isUnset || (orEmpty && v.isEmpty) then pieces { m with loose := m.full && !quoted } true w
    else return valueMarks m (← get).toContext name quoted v
  | .instead orEmpty w => do
    let v := valueOf (← get).toContext name
    if v.isUnset || (orEmpty && v.isEmpty) then return []
    else pieces { m with loose := m.full && !quoted } true w
  | .assign orEmpty w => do
    let v := valueOf (← get).toContext name
    if v.isUnset || (orEmpty && v.isEmpty) then
      let text ← pieces { m with full := false, loose := false } true w
      if !isName name then giveUp (name ++ ofString ": bad variable name")
      Shell.assign name (flat text)
      let s := (← get).toContext
      return valueMarks m s name quoted (valueOf s name)
    else return valueMarks m (← get).toContext name quoted v
  | .demand orEmpty w => do
    let v := valueOf (← get).toContext name
    if v.isUnset || (orEmpty && v.isEmpty) then
      if w.isEmpty then
        missing name (ofString ("parameter not set" ++ (if orEmpty then " or null" else "")))
      else
        let text ← pieces { m with full := false, loose := false } true w
        missing name (flat text)
    else return valueMarks m (← get).toContext name quoted v
  | .trim fromEnd longest w => do
    let s := (← get).toContext
    let v := valueOf s name
    demand name v
    let p ← pieces { m with full := false, loose := false } true w
    let text := Pattern.trim (asPattern p) fromEnd longest (v.text s)
    return (if quoted then [] else [.seam false]) ++ plainMarks quoted text

end

/-! Fields. -/

def blanks : List Char := [' ', '\t', '\n']

/-- How far a word has been cut. -/
structure Cutting where
  done : List Pattern := []
  current : Pattern := []
  /-- Whether the present field is there, even if it should stay empty. -/
  present : Bool := false
  /-- Whether blanks have just ended a field. -/
  spaced : Bool := false
  whole : Bool := false
  /-- Whether the stretch before the present one was whole. -/
  afterWhole : Bool := false

namespace Cutting

def add (k : Cutting) (c : Char) (active : Bool) : Cutting :=
  { k with current := k.current ++ [(c, active)], present := true, spaced := false }

def restart (k : Cutting) : Cutting := { k with current := [], present := false }

/-- Goes over a separator. -/
def separate (k : Cutting) (blank : Bool) : Cutting :=
  if k.spaced then { k.restart with spaced := blank }
  else
    let spaced := blank && !(k.whole || k.afterWhole)
    if !k.present && spaced then k
    else { k.restart with done := k.done ++ [k.current], spaced }

def step (separators : List Char) (k : Cutting) : Mark → Cutting
  | .hold => { k with present := true, spaced := false }
  | .char c active loose =>
    if loose && separators.contains c then k.separate (blanks.contains c) else k.add c active
  | .gap => k.separate true
  | .seam whole => { k with whole, afterWhole := k.whole, spaced := false }

def fields (k : Cutting) : List Pattern :=
  if k.whole || k.present then k.done ++ [k.current] else k.done

end Cutting

/-- The separators that are set. -/
def separators (s : Context) : List Char := (s.value "IFS").getD blanks

/-- The fields of marks. -/
def cut (s : Context) (ms : List Mark) : List Pattern :=
  (ms.foldl (Cutting.step (separators s)) {}).fields

/-- The fields that a word stands for, file names included. -/
def fields (output : Option Node → Run (List Char)) (w : Word) : Run (List (List Char)) := do
  let ms ← pieces { full := true, output } true w
  let s ← get
  return (cut s.toContext ms).flatMap fun p =>
    if s.option 'f' then [p.text] else p.paths s.files s.cwd

/-- The text that a word stands for. -/
def text (output : Option Node → Run (List Char)) (w : Word) : Run (List Char) := do
  return flat (← pieces { output } true w)

/-- The value that a word stands for in an assignment. -/
def assigned (output : Option Node → Run (List Char)) (w : Word) : Run (List Char) := do
  return flat (← pieces { output, colons := true } true w)

def pattern (output : Option Node → Run (List Char)) (w : Word) : Run Pattern := do
  return asPattern (← pieces { output } true w)

/-- The text that a document of the script stands for. -/
def document (output : Option Node → Run (List Char)) (w : Word) : Run (List Char) := do
  return flat (← pieces { output } false w)

end Expand

end ConanPipeline.Shell
