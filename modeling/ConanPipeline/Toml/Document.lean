import ConanPipeline.Toml.Scalar

/-! Reading a document: values, nested up to a limit of depth, and then line after
line of keys and headers. Documents are those of TOML 1.0, with the limits that `toml` sets to the
depth and to numbers. -/

namespace ConanPipeline.Toml

/-- Skips spaces, line ends and comments between the elements of an array. -/
def skipBlankWithin : Nat → List Char → List Char
  | 0, cs => cs
  | n + 1, cs =>
    match skipSpaces cs with
    | '#' :: r =>
      match afterNewline? (r.dropWhile isPlain) with
      | some r => skipBlankWithin n r
      | none => '#' :: r
    | r =>
      match afterNewline? r with
      | some r => skipBlankWithin n r
      | none => r

def skipBlank (cs : List Char) : List Char := skipBlankWithin cs.length cs

/-- The elements of an array and its closing bracket. A comma may follow the last element. -/
def elementsWithin (item : Reader Value) : Nat → Reader (List Value)
  | 0, _ => none
  | n + 1, cs =>
    match skipBlank cs with
    | ']' :: r => some ([], r)
    | r => do
      let (v, r) ← item r
      match skipBlank r with
      | ',' :: r =>
        let (vs, r) ← elementsWithin item n r
        some (v :: vs, r)
      | ']' :: r => some ([v], r)
      | _ => none

/-- The entries of an inline table after the first one, and its closing brace. -/
def pairsWithin (item : Reader Value) : Nat → Entries → Reader Entries
  | 0, _, _ => none
  | n + 1, es, cs => do
    let ((path, k), r) ← key cs
    let (_, r) ← expect '=' r
    let (v, r) ← item (skipSpaces r)
    let es ← es.assign path k v .inline
    match skipSpaces r with
    | ',' :: r => pairsWithin item n es r
    | '\x7d' :: r => some (es, r)
    | _ => none

def inlineTable (item : Reader Value) : Reader Value := fun cs =>
  match skipSpaces cs with
  | '\x7d' :: r => some (.table .inline [], r)
  | r => (pairsWithin item (r.length + 1) [] r).map fun p => (.table .inline p.1, p.2)

def word (w : String) (v : Value) : Reader Value := fun cs =>
  let p := w.toList
  if p.isPrefixOf cs then some (v, cs.drop p.length) else none

/-- A value in which arrays and tables are nested at most `depth` levels deep. -/
def value : Nat → Reader Value
  | depth, cs =>
    match cs with
    | [] => none
    | '[' :: r =>
      match depth with
      | 0 => none
      | d + 1 => (elementsWithin (value d) (r.length + 1) r).map fun p => (.list p.1, p.2)
    | '\x7b' :: r =>
      match depth with
      | 0 => none
      | d + 1 => inlineTable (value d) r
    | '"' :: _ | '\'' :: _ => (string cs).map fun p => (.text p.1, p.2)
    | 't' :: _ => word "true" (.flag true) cs
    | 'f' :: _ => word "false" (.flag false) cs
    | 'i' :: _ => word "inf" .real cs
    | 'n' :: _ => word "nan" .real cs
    | c :: _ => if c.isDigit || c == '+' || c == '-' then number cs else none

/-- A document being read: the tables so far, and the open one. -/
structure Draft where
  root : Entries
  opened : List String

namespace Draft

/-- Sets a key in the open table. -/
def assign (d : Draft) (path : List String) (k : String) (v : Value) : Option Draft :=
  (d.root.alter false (fun o es => es.assign path k v o) d.opened .header).map fun root =>
    { d with root }

def openTable (d : Draft) (path : List String) (k : String) : Option Draft :=
  (d.root.openTable path k).map fun root => ⟨root, path ++ [k]⟩

def openElement (d : Draft) (path : List String) (k : String) : Option Draft :=
  (d.root.openElement path k).map fun root => ⟨root, path ++ [k]⟩

end Draft

/-- One line: blank, a comment, a header or a key with its value. -/
def line (d : Draft) : Reader Draft := fun cs => do
  match cs with
  | '[' :: '[' :: r =>
    let ((path, k), r) ← key r
    let (_, r) ← expect ']' r
    let (_, r) ← expect ']' r
    some (← d.openElement path k, ← endLine? r)
  | '[' :: r =>
    let ((path, k), r) ← key r
    let (_, r) ← expect ']' r
    some (← d.openTable path k, ← endLine? r)
  | '#' :: _ | '\n' :: _ | '\r' :: _ => some (d, ← endLine? cs)
  | _ =>
    let ((path, k), r) ← key cs
    let (_, r) ← expect '=' r
    let (v, r) ← value (depthLimit - 1) (skipSpaces r)
    some (← d.assign path k v, ← endLine? r)

def linesWithin : Nat → Draft → List Char → Option Draft
  | 0, _, _ => none
  | n + 1, d, cs =>
    match skipSpaces cs with
    | [] => some d
    | r => do
      let (d, r) ← line d r
      linesWithin n d r

/-- The entries of a document; `none` for a text that is none. A byte order mark is skipped. -/
def read? (text : String) : Option Entries :=
  let cs := match text.toList with
    | '\uFEFF' :: r => r
    | r => r
  (linesWithin (cs.length + 1) ⟨[], []⟩ cs).map Draft.root

end ConanPipeline.Toml
