import ConanPipeline.Machine
import ConanPipeline.Text.Letter
import ConanPipeline.Text.Regular

/-! Log filters, such as `buildkit=debug,warn`. Of the directives that match a message
the closest one decides: the one with the longest name, then the one with the most
fields. Without one the message is dropped. -/

namespace ConanPipeline

/-- A threshold for the sources whose names start with `target`. It may be limited to messages
inside of a span, or to those with certain fields. Rank zero is off. -/
structure Directive where
  target : Option (List UInt8) := none
  span : Option (List UInt8) := none
  /-- The names of fields, and the pattern that a field's value has to match. -/
  fields : List (List Char × Option (List Char)) := []
  rank : Nat := Level.trace.rank
  deriving DecidableEq, Repr

namespace Directive

def lower (s : List Char) : List Char := s.map Char.toLower

/-- A level by its name, in any letter case, or by its number. -/
def rank? (cs : List Char) : Option Nat :=
  let digits := if cs.head? = some '+' then cs.tail else cs
  if !digits.isEmpty && digits.all Char.isDigit then
    (String.ofList digits).toNat?.filter (· ≤ Level.trace.rank)
  else if lower cs = "off".toList then some 0
  else
    ([Level.error, .warn, .info, .debug, .trace].find? fun l =>
      lower l.name.toList = lower cs).map Level.rank

/-- A field with or without a value; `none` if its value is neither a number nor a pattern. -/
def field? (cs : List Char) : Option (List Char × Option (List Char)) :=
  match cs.splitOn '=' with
  | [] => none
  | [name] => if name.isEmpty then none else some (name, none)
  | name :: value :: _ =>
    if Text.isPlusNumber value || Text.isRegular value then some (name, some value) else none

/-- How far the reading of a directive has come: what is being read, and where it began. -/
inductive Reading where
  | start
  | word (from' : Nat)
  | span (from' : Nat)
  | field (from' : Nat)
  | afterField
  | afterSpan
  | level (from' : Nat)
  deriving DecidableEq, Repr

/-- A directive that is partly read. -/
structure Draft where
  directive : Directive := {}
  reading : Reading := .start
  deriving Repr

def startsWord (c : Char) : Bool :=
  c == '-' || c == ':' || c == '_' || Text.isAlphanumeric c

/-- The text from one byte to before another; `none` if that cuts a character in two. -/
def slice? (text : ByteArray) (a b : Nat) : Option (List Char) :=
  (String.fromUTF8? (text.extract a b)).map String.toList

/-- What a word alone stands for: a level, or else a name. -/
def ofWord? (d : Directive) (text : ByteArray) (a b : Nat) : Option Directive := do
  let w ← slice? text a b
  match rank? w with
  | some n => some { d with rank := n }
  | none => some { d with target := some (text.extract a b).toList }

def level? (text : ByteArray) (a b : Nat) : Option Nat := do
  let w ← slice? text a b
  if w.isEmpty then some Level.trace.rank else rank? w

/-- Reads the character `c` at byte `i` of a text. -/
def step (text : ByteArray) (d : Draft) (i : Nat) (c : Char) : Option Draft :=
  let part (a : Nat) : List UInt8 := (text.extract a i).toList
  match d.reading with
  | .start =>
    if c = '[' then some { d with reading := .span (i + 1) }
    else if startsWord c then some { d with reading := .word i }
    else none
  | .word a =>
    if c = '=' then some ⟨{ d.directive with target := some (part a) }, .level (i + 1)⟩
    else if c = '[' then some ⟨{ d.directive with target := some (part a) }, .span (i + 1)⟩
    else some d
  | .span a =>
    if c = ']' then some ⟨{ d.directive with span := some (part a) }, .afterSpan⟩
    else if c = '\x7b' then
      let span := if (part a).isEmpty then none else some (part a)
      some ⟨{ d.directive with span }, .field (i + 1)⟩
    else some d
  | .field a =>
    if c = '\x7d' then do
      let f ← slice? text a i >>= field?
      some ⟨{ d.directive with fields := d.directive.fields ++ [f] }, .afterField⟩
    else some d
  | .afterField => if c = ']' then some { d with reading := .afterSpan } else none
  | .afterSpan => if c = '=' then some { d with reading := .level (i + 1) } else none
  | .level _ => some d

/-- Ends the reading of a directive. -/
def finish (text : ByteArray) (d : Draft) : Option Directive :=
  match d.reading with
  | .word a => ofWord? d.directive text a text.size
  | .level a => (level? text a text.size).map fun n => { d.directive with rank := n }
  | .afterSpan => some d.directive
  | _ => none

/-- Reads one directive: a level, a name, or both with `=` between them, and a span in brackets
after the name. The blanks before it are skipped, but the positions of its parts are counted from
the text's first byte, so a name with a blank before or after it is another name. -/
def read? (text : List Char) : Option Directive :=
  let bytes := (String.ofList text).toUTF8
  let read := (Text.trim text).foldl (fun (p : Option Draft × Nat) c =>
    (p.1.bind fun d => step bytes d p.2 c, p.2 + c.utf8Size)) (some {}, 0)
  read.1 >>= finish bytes

/-- The only field of the messages. -/
def messageField : List Char := "message".toList

/-- How closely a directive fits a source, by the length of its name and the number of its
fields; `none` if it does not. No message is inside of a span, nor has fields with values. -/
def fit (d : Directive) (source : Source) : Option (Nat × Nat) :=
  if d.span.isSome || !(d.fields.all fun f => f.2.isNone && f.1 = messageField) then none
  else
    match d.target with
    | none => some (0, d.fields.length)
    | some t =>
      if t.isPrefixOf source.name.toUTF8.toList then some (t.length + 1, d.fields.length) else none

end Directive

abbrev Filter := List Directive

namespace Filter

/-- A filter with one threshold for everything that the program says itself. -/
def upTo (l : Level) : Filter := [{ target := some "buildkit".toUTF8.toList, rank := l.rank }]

/-- Reads a filter; `none` if a part of it is no directive. An empty one shows errors only. -/
def read? (text : String) : Option Filter := do
  let parts := (text.toList.splitOn ',').filter fun p => !p.isEmpty
  let ds ← parts.mapM Directive.read?
  if ds.isEmpty then some [{ rank := Level.error.rank }] else some ds

def noCloser (a b : Nat × Nat) : Bool := a.1 < b.1 || (a.1 = b.1 && a.2 ≤ b.2)

/-- The threshold for a source: that of the closest directive, of two equal ones the later. -/
def rank (f : Filter) (source : Source) : Nat :=
  (f.foldl (fun (best : Option ((Nat × Nat) × Nat)) d =>
    match d.fit source, best with
    | none, _ => best
    | some n, none => some (n, d.rank)
    | some n, some (m, _) => if noCloser m n then some (n, d.rank) else best) none).elim 0 Prod.snd

def allows (f : Filter) (l : Level) (source : Source) : Bool := l.rank ≤ f.rank source

end Filter

end ConanPipeline
