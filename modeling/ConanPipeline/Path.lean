import ConanPipeline.Text.Blank

/-! Paths as they are written. Nothing is normalised: `join` only puts a slash
between its parts (`text_join`), and taking the parent drops the last component
with the separators around it. -/

namespace ConanPipeline

/-- A file path, relative or absolute, with `/` between its components. -/
structure Path where
  text : String
  deriving DecidableEq, Repr, Inhabited

/-- What a path names on the way to its end. -/
inductive Component where
  | root
  | current
  | parent
  | name (text : String)
  deriving DecidableEq, Repr

namespace Path

instance : Coe String Path := ⟨Path.mk⟩

def chars (p : Path) : List Char := p.text.toList

def ofChars (cs : List Char) : Path := ⟨.ofList cs⟩

@[simp] theorem chars_ofChars (cs : List Char) : (ofChars cs).chars = cs := by
  simp [chars, ofChars]

def isAbsolute (p : Path) : Bool := p.chars.head? == some '/'

def isEmpty (p : Path) : Bool := p.chars.isEmpty

/-- An absolute path replaces what stands before it. -/
def join (p q : Path) : Path :=
  if q.isAbsolute then q
  else if p.isEmpty || p.chars.getLast? == some '/' then ⟨p.text ++ q.text⟩
  else ⟨p.text ++ "/" ++ q.text⟩

theorem join_absolute {p q : Path} (h : q.isAbsolute = true) : p.join q = q := by simp [join, h]

theorem text_join {p q : Path} (hq : q.isAbsolute = false) (hp : p.isEmpty = false)
    (hl : p.chars.getLast? ≠ some '/') : (p.join q).text = p.text ++ "/" ++ q.text := by
  simp [join, hq, hp, hl]

/-- The parts between slashes, empty ones included. -/
def pieces : List Char → List (List Char)
  | [] => [[]]
  | c :: cs =>
    if c = '/' then [] :: pieces cs
    else match pieces cs with
      | [] => [[c]]
      | w :: ws => (c :: w) :: ws

theorem pieces_ne_nil (cs : List Char) : pieces cs ≠ [] := by
  induction cs with
  | nil => simp [pieces]
  | cons c cs ih =>
    rw [pieces]
    split
    · simp
    · split <;> simp

def componentOf (w : List Char) : Component :=
  if w = ['.', '.'] then .parent else .name (.ofList w)

/-- A piece that names nothing: an empty one, or a dot. -/
def isIdle (w : List Char) : Bool := w.isEmpty || w == ['.']

/-- The components of a path. A dot counts only at the start of a relative path. -/
def components (p : Path) : List Component :=
  let ws := pieces p.chars
  let body := (ws.filter fun w => !isIdle w).map componentOf
  if p.isAbsolute then .root :: body
  else if ws.head? = some ['.'] then .current :: body
  else body

/-- Goes on from a path by names and steps upward. -/
def extend (p : Path) (cs : List Component) : Path :=
  cs.foldl (fun q c => match c with
    | .name n => q.join ⟨n⟩
    | .parent => q.join ⟨".."⟩
    | _ => q) p

/-- How many characters at the front no `parent` takes away: the root, or a leading dot. -/
def anchor (cs : List Char) : Nat :=
  match cs with
  | '/' :: _ => 1
  | ['.'] => 1
  | '.' :: '/' :: _ => 1
  | _ => 0

/-- Drops idle pieces from the back of a text given in reverse. -/
def dropIdle : List Char → List Char
  | '/' :: r => dropIdle r
  | ['.'] => []
  | '.' :: '/' :: r => dropIdle r
  | r => r

/-- The front and the last piece of a body, both in reverse, the slash between them gone. -/
def cutLast (r : List Char) : List Char × List Char :=
  (r.dropWhile (· != '/') |>.drop 1, r.takeWhile (· != '/'))

/-- The path without its last component; `none` for the root and for an empty path. -/
def parent (p : Path) : Option Path :=
  let cs := p.chars
  let k := anchor cs
  let body := dropIdle (cs.drop k).reverse
  if body.isEmpty then
    if cs.head? = some '.' && k = 1 then some ⟨""⟩ else none
  else
    some (ofChars (cs.take k ++ (dropIdle (cutLast body).1).reverse))

def lastComponent? (p : Path) : Option Component := p.components.getLast?

/-- The last component, if it is a name. -/
def fileName (p : Path) : Option String :=
  match p.lastComponent? with
  | some (.name n) => some n
  | _ => none

/-- A file name up to its last dot; a dot in front does not count. -/
def stemOf (name : String) : String :=
  let r := name.toList.reverse
  match r.dropWhile (· != '.') with
  | [] => name
  | _ :: [] => name
  | _ :: front => .ofList front.reverse

def fileStem (p : Path) : Option String := p.fileName.map stemOf

/-- Drops idle pieces from the front. -/
def dropIdleFront : List Char → List Char
  | '/' :: r => dropIdleFront r
  | ['.'] => []
  | '.' :: '/' :: r => dropIdleFront r
  | r => r

/-- What follows a leading `~` component. -/
def belowHome? (p : Path) : Option Path :=
  match p.chars with
  | ['~'] => some ⟨""⟩
  | '~' :: '/' :: rest => some (ofChars (dropIdle (dropIdleFront rest).reverse).reverse)
  | _ => none

/-- The path and those above it, nearest first. -/
def ancestorsWithin : Nat → Path → List Path
  | 0, p => [p]
  | n + 1, p => p :: (match p.parent with
    | none => []
    | some q => ancestorsWithin n q)

def ancestors (p : Path) : List Path := ancestorsWithin p.chars.length p

instance : ToString Path := ⟨Path.text⟩

end Path

/-- Whether a word names a program: its stem is `tool`, in any letter case. -/
def Path.isNamed (word : Path) (tool : String) : Bool :=
  match word.fileStem with
  | some s => s.toList.map Char.toLower == tool.toList.map Char.toLower
  | none => false

end ConanPipeline
