import ConanPipeline.Text.Letter

/-! Which texts are regular expressions. Word boundaries and counted repetitions are not
among them. -/

namespace ConanPipeline.Text

namespace Regular

/-- What is written with a backslash or stands for itself. -/
inductive Atom where
  | char (c : Char)
  /-- A kind of characters. -/
  | kind
  /-- A place, such as the start of the text. -/
  | place

def controls : List (Char × Char) :=
  [('a', '\x07'), ('f', '\x0c'), ('n', '\n'), ('r', '\r'), ('t', '\t'), ('v', '\x0b')]

/-- Characters that stand for themselves after a backslash. -/
def escapable (c : Char) : Bool := c.toNat < 0x80 && !c.isAlphanum && c != '<' && c != '>'

/-- A character by so many hexadecimal digits, and what follows them. -/
def byNumber? (count : Nat) (cs : List Char) : Option (Atom × List Char) :=
  let ds := (cs.take count).map Char.toLower
  let value := ds.foldl (fun n c =>
    16 * n + (if c.isDigit then c.toNat - '0'.toNat else c.toNat - 'a'.toNat + 10)) 0
  let isHex (c : Char) : Bool := c.isDigit || ('a' ≤ c && c ≤ 'f')
  if ds.length = count && ds.all isHex && value.isValidChar then
    some (.char (Char.ofNat value), cs.drop count)
  else none

/-- What a backslash stands for with what follows it, and what comes after. -/
def escape? : List Char → Option (Atom × List Char)
  | [] => none
  | c :: cs =>
    if c = 'x' then byNumber? 2 cs
    else if c = 'u' then byNumber? 4 cs
    else if c = 'U' then byNumber? 8 cs
    else if c = 'p' || c = 'P' then
      match cs with
      | k :: cs => if "clmnpsz".toList.contains k.toLower then some (.kind, cs) else none
      | [] => none
    else if "dDsSwW".toList.contains c then some (.kind, cs)
    else if c = 'A' || c = 'z' then some (.place, cs)
    else match controls.lookup c with
      | some x => some (.char x, cs)
      | none => if escapable c then some (.char c, cs) else none

/-- A member of a set, and what follows it. -/
def member? : List Char → Option (Option Char × List Char)
  | [] => none
  | '\\' :: cs =>
    match escape? cs with
    | some (.char c, cs) => some (some c, cs)
    | some (.kind, cs) => some (none, cs)
    | _ => none
  | c :: cs => some (some c, cs)

/-- What follows the opening of a set: dashes, or else a closing bracket, stand for themselves
there. -/
def opened (cs : List Char) : List Char :=
  let cs := if cs.head? = some '^' then cs.tail else cs
  match cs with
  | ']' :: rest => rest
  | cs => cs.dropWhile (· = '-')

def namedKinds : List String :=
  ["alnum", "alpha", "ascii", "blank", "cntrl", "digit", "graph", "lower", "print", "punct",
    "space", "upper", "word", "xdigit"]

/-- What follows a kind of characters that is named between colons, if there is one after the
bracket. -/
def named? (cs : List Char) : Option (List Char) :=
  namedKinds.findSome? fun name =>
    [":", ":^"].findSome? fun front =>
      let text := (front ++ name ++ ":]").toList
      if text.isPrefixOf cs then some (cs.drop text.length) else none

/-- What follows a set in brackets, of which `depth` brackets are open. -/
def set? : Nat → Nat → List Char → Option (List Char)
  | 0, _, _ => none
  | n + 1, depth, cs =>
    match cs with
    | '[' :: cs =>
      match named? cs with
      | some rest => set? n depth rest
      | none => set? n (depth + 1) (opened cs)
    | ']' :: cs => if depth = 1 then some cs else set? n (depth - 1) cs
    | '&' :: '&' :: cs | '-' :: '-' :: cs | '~' :: '~' :: cs => set? n depth cs
    | cs => do
      let (least, cs) ← member? cs
      match cs with
      | '-' :: c :: rest =>
        if c = ']' || c = '-' then set? n depth cs
        else
          match least, ← member? (c :: rest) with
          | some a, (some b, rest) => if a ≤ b then set? n depth rest else none
          | _, _ => none
      | cs => set? n depth cs

/-- Whether these are flags: none twice, and something after a minus. -/
def areFlags (cs : List Char) : Bool :=
  cs.all "imsUuxR-".toList.contains && cs.eraseDups.length = cs.length &&
    cs.getLast? != some '-'

/-- What follows the opening of a group, of which the parenthesis has been read. The flag says
that it was only a setting of flags. -/
def opening? : List Char → Option (Bool × List Char)
  | '?' :: 'P' :: '<' :: cs | '?' :: '<' :: cs =>
    let inName (c : Char) : Bool := isAlphanumeric c || "_.[]".toList.contains c
    let name := cs.takeWhile inName
    match name, cs.drop name.length with
    | c :: _, '>' :: rest =>
      if c = '_' || (isAlphanumeric c && !isDigit c) then some (false, rest) else none
    | _, _ => none
  | '?' :: cs =>
    let flags := cs.takeWhile fun c => c ≠ ':' && c ≠ ')'
    match areFlags flags, cs.drop flags.length with
    | true, ':' :: rest => some (false, rest)
    | true, ')' :: rest => if flags.isEmpty then none else some (true, rest)
    | _, _ => none
  | cs => some (false, cs)

/-- Whether the rest of an expression is well formed, with `depth` groups open. The flag says that
there is something to repeat. -/
def accepts : Nat → Nat → Bool → List Char → Bool
  | 0, _, _, _ => false
  | n + 1, depth, some', cs =>
    match cs with
    | [] => depth = 0
    | '\\' :: cs =>
      match escape? cs with
      | some (_, rest) => accepts n depth true rest
      | none => false
    | '[' :: cs =>
      match set? n 1 (opened cs) with
      | some rest => accepts n depth true rest
      | none => false
    | '(' :: cs =>
      match opening? cs with
      | some (flagsOnly, rest) => accepts n (if flagsOnly then depth else depth + 1) false rest
      | none => false
    | ')' :: cs => depth != 0 && accepts n (depth - 1) true cs
    | '|' :: cs => accepts n depth false cs
    | '\x7b' :: _ => false
    | c :: cs =>
      if c = '*' || c = '+' || c = '?' then some' && accepts n depth true cs
      else accepts n depth true cs

end Regular

/-- Whether a text is a regular expression. -/
def isRegular (cs : List Char) : Bool := Regular.accepts (cs.length + 1) 0 false cs

/-- Whether a text is a number with a plus sign: digits with or without a point and an exponent,
or a word for infinity or for what is no number. -/
def isPlusNumber (cs : List Char) : Bool :=
  match cs with
  | '+' :: cs =>
    let whole := cs.takeWhile Char.isDigit
    let rest := cs.drop whole.length
    let (part, rest) := match rest with
      | '.' :: rest => (rest.takeWhile Char.isDigit, rest.dropWhile Char.isDigit)
      | rest => ([], rest)
    let exponent := match rest with
      | [] => true
      | e :: rest =>
        let ds := if rest.head? = some '+' || rest.head? = some '-' then rest.tail else rest
        (e = 'e' || e = 'E') && !ds.isEmpty && ds.all Char.isDigit
    (!(whole ++ part).isEmpty && exponent) ||
      ["inf", "infinity", "nan"].contains (String.ofList (cs.map Char.toLower))
  | _ => false

end ConanPipeline.Text
