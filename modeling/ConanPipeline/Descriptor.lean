import ConanPipeline.Literal
import ConanPipeline.Text.Blank

/-! Descriptors: lines of the form `name = value`, indented at will. A line ends at
`\n`, `\r\n` or a lone `\r`. Only the first line that assigns an attribute is
changed.

The search is that for the pattern `^([ \t]*)name[ \t]*=[ \t]*(.+)$`, in lines with any of
these ends, as `regex` describes it. An attribute is looked for however long its name is: that a
compiled pattern may be too large for `regex`, which takes a name of some hundred thousand
characters, is not modelled. -/

namespace ConanPipeline.Descriptor

def isSpace (c : Char) : Bool := c == ' ' || c == '\t'

def isLineEnd (c : Char) : Bool := c == '\n' || c == '\r'

/-- The value of an assignment that follows the attribute's name: the text after `=` up to the
end of the line, at least one character; and what follows the line. -/
def valueAt? (cs : List Char) : Option (List Char × List Char) :=
  match cs.dropWhile isSpace with
  | '=' :: rest =>
    let value := rest.takeWhile fun c => !isLineEnd c
    if value.isEmpty then none else some (value, rest.dropWhile fun c => !isLineEnd c)
  | _ => none

/-- An assignment found in a text. -/
structure Found where
  before : List Char
  indent : List Char
  value : List Char
  rest : List Char
  deriving DecidableEq, Repr

/-- An assignment that starts here, after an indent of `n` characters. -/
def assignmentAt? (attr cs : List Char) (n : Nat) : Option Found :=
  (Text.after? attr (cs.drop n) >>= valueAt?).map fun v => ⟨[], cs.take n, v.1, v.2⟩

/-- An assignment that starts here after at most `n` characters, the longest indent first. -/
def assignmentWithin? (attr cs : List Char) : Nat → Option Found
  | 0 => assignmentAt? attr cs 0
  | n + 1 =>
    match assignmentAt? attr cs (n + 1) with
    | some f => some f
    | none => assignmentWithin? attr cs n

def assignment? (attr cs : List Char) : Option Found :=
  assignmentWithin? attr cs (cs.takeWhile isSpace).length

/-- Whether a line starts behind the character `prev` and before the text `cs`. -/
def startsLine (prev : Option Char) (cs : List Char) : Bool :=
  match prev with
  | none => true
  | some '\n' => true
  | some '\r' => cs.head? != some '\n'
  | some _ => false

/-- The first assignment of an attribute. -/
def find? (attr : List Char) (prev : Option Char) : List Char → Option Found
  | [] => if startsLine prev [] then assignment? attr [] else none
  | c :: cs =>
    match (if startsLine prev (c :: cs) then assignment? attr (c :: cs) else none) with
    | some f => some f
    | none => (find? attr (some c) cs).map fun f => { f with before := c :: f.before }

/-- Sets an attribute, however long its name, to a value; `none` if no line assigns it. Also gives
the old value. -/
def set? (attr value text : List Char) : Option (List Char × List Char) :=
  (find? attr none text).map fun f =>
    (f.before ++ f.indent ++ attr ++ " = ".toList ++ Literal.encode value ++ f.rest,
      Text.trim f.value)

end ConanPipeline.Descriptor
