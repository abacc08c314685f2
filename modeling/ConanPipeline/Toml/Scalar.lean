import ConanPipeline.Toml.Value

/-! Readers for the parts of a line: blanks, comments, strings, numbers and dates.
A reader gives what it read and the rest of the text, or `none`. -/

namespace ConanPipeline.Toml

abbrev Reader (α : Type) := List Char → Option (α × List Char)

/-- How deep arrays and tables may be nested, and how many parts a dotted key may have. -/
def depthLimit : Nat := 80

def isSpace (c : Char) : Bool := c == ' ' || c == '\t'

def skipSpaces (cs : List Char) : List Char := cs.dropWhile isSpace

/-- A character that comments and strings may hold: no control character but the tab. -/
def isPlain (c : Char) : Bool := c == '\t' || (0x20 ≤ c.toNat && c.toNat != 0x7f)

/-- What follows a line end. -/
def afterNewline? : List Char → Option (List Char)
  | '\n' :: cs => some cs
  | '\r' :: '\n' :: cs => some cs
  | _ => none

/-- What follows a comment, if there is one here. -/
def skipComment : List Char → List Char
  | '#' :: cs => cs.dropWhile isPlain
  | cs => cs

/-- The end of a line after a value or a header: spaces, perhaps a comment, then a line end or
the end of the text. -/
def endLine? (cs : List Char) : Option (List Char) :=
  match skipComment (skipSpaces cs) with
  | [] => some []
  | rest => afterNewline? rest

def hexValue? (c : Char) : Option Nat :=
  if c.isDigit then some (c.toNat - '0'.toNat)
  else if 'a' ≤ c && c ≤ 'f' then some (c.toNat - 'a'.toNat + 10)
  else if 'A' ≤ c && c ≤ 'F' then some (c.toNat - 'A'.toNat + 10)
  else none

/-- The character that a letter after a backslash stands for. -/
def shortEscape? : Char → Option Char
  | 'b' => some '\x08'
  | 't' => some '\t'
  | 'n' => some '\n'
  | 'f' => some '\x0c'
  | 'r' => some '\r'
  | '"' => some '"'
  | '\\' => some '\\'
  | _ => none

/-- What a reader of strings is in the middle of. -/
inductive Pending where
  | none
  | backslash
  /-- A code point with so many digits to come. -/
  | number (left value : Nat)
  /-- Spaces after a backslash; the line has to end. -/
  | lineTail
  /-- A line that ended after a backslash; blanks do not count. -/
  | lineHead
  deriving DecidableEq, Repr

/-- A code point that is a character. -/
def scalar? (n : Nat) : Option Char := if n.isValidChar then some (Char.ofNat n) else none

def push (c : Char) (r : Option (List Char × List Char)) : Option (List Char × List Char) :=
  r.map fun p => (c :: p.1, p.2)

/-- The rest of a basic string, up to its closing quote. -/
def basicBody : Pending → Reader (List Char)
  | _, [] => .none
  | .number left value, c :: cs =>
    match hexValue? c with
    | .none => .none
    | some d =>
      let v := value * 16 + d
      if left = 1 then
        match scalar? v with
        | .none => .none
        | some x => push x (basicBody .none cs)
      else basicBody (.number (left - 1) v) cs
  | .backslash, c :: cs =>
    if c = 'u' then basicBody (.number 4 0) cs
    else if c = 'U' then basicBody (.number 8 0) cs
    else
      match shortEscape? c with
      | .none => .none
      | some x => push x (basicBody .none cs)
  | _, c :: cs =>
    if c = '"' then some ([], cs)
    else if c = '\\' then basicBody .backslash cs
    else if isPlain c then push c (basicBody .none cs)
    else .none

/-- The rest of a basic string of several lines. A backslash at the end of a line takes away
all blanks up to the next word. -/
def longBasicBody : Pending → Reader (List Char)
  | .none, '"' :: '"' :: '"' :: '"' :: '"' :: cs => some (['"', '"'], cs)
  | .none, '"' :: '"' :: '"' :: '"' :: cs => some (['"'], cs)
  | .none, '"' :: '"' :: '"' :: cs => some ([], cs)
  | _, [] => .none
  | .number left value, c :: cs =>
    match hexValue? c with
    | .none => .none
    | some d =>
      let v := value * 16 + d
      if left = 1 then
        match scalar? v with
        | .none => .none
        | some x => push x (longBasicBody .none cs)
      else longBasicBody (.number (left - 1) v) cs
  | .lineHead, c :: cs =>
    if isSpace c || c = '\n' then longBasicBody .lineHead cs
    else if c = '\r' && cs.head? == some '\n' then longBasicBody .lineHead cs
    else longBasicBody .none (c :: cs)
  | .lineTail, c :: cs =>
    if isSpace c then longBasicBody .lineTail cs
    else if c = '\n' then longBasicBody .lineHead cs
    else if c = '\r' && cs.head? == some '\n' then longBasicBody .lineHead cs
    else .none
  | .backslash, c :: cs =>
    if c = 'u' then longBasicBody (.number 4 0) cs
    else if c = 'U' then longBasicBody (.number 8 0) cs
    else if isSpace c then longBasicBody .lineTail cs
    else if c = '\n' then longBasicBody .lineHead cs
    else if c = '\r' && cs.head? == some '\n' then longBasicBody .lineHead cs
    else
      match shortEscape? c with
      | .none => .none
      | some x => push x (longBasicBody .none cs)
  | .none, c :: cs =>
    if c = '\\' then longBasicBody .backslash cs
    else if c = '\n' then push c (longBasicBody .none cs)
    else if c = '\r' then if cs.head? == some '\n' then longBasicBody .none cs else .none
    else if isPlain c then push c (longBasicBody .none cs)
    else .none
termination_by p cs => (cs.length, if p = .lineHead then 1 else 0)

def literalBody : Reader (List Char)
  | [] => none
  | c :: cs =>
    if c = '\'' then some ([], cs)
    else if isPlain c then push c (literalBody cs)
    else none

def longLiteralBody : Reader (List Char)
  | '\'' :: '\'' :: '\'' :: '\'' :: '\'' :: cs => some (['\'', '\''], cs)
  | '\'' :: '\'' :: '\'' :: '\'' :: cs => some (['\''], cs)
  | '\'' :: '\'' :: '\'' :: cs => some ([], cs)
  | [] => none
  | c :: cs =>
    if c = '\n' then push c (longLiteralBody cs)
    else if c = '\r' then if cs.head? == some '\n' then longLiteralBody cs else none
    else if isPlain c then push c (longLiteralBody cs)
    else none

/-- A line end right after the opening quotes does not belong to the string. -/
def skipFirstNewline (cs : List Char) : List Char := (afterNewline? cs).getD cs

def string : Reader String := fun cs =>
  let body := match cs with
    | '"' :: '"' :: '"' :: r => longBasicBody .none (skipFirstNewline r)
    | '"' :: r => basicBody .none r
    | '\'' :: '\'' :: '\'' :: r => longLiteralBody (skipFirstNewline r)
    | '\'' :: r => literalBody r
    | _ => none
  body.map fun p => (.ofList p.1, p.2)

def isBare (c : Char) : Bool := c.isAlphanum || c == '_' || c == '-'

/-- One part of a key. -/
def keyPart : Reader String := fun cs =>
  match cs with
  | '"' :: r => (basicBody .none r).map fun p => (.ofList p.1, p.2)
  | '\'' :: r => (literalBody r).map fun p => (.ofList p.1, p.2)
  | _ =>
    let w := cs.takeWhile isBare
    if w.isEmpty then none else some (.ofList w, cs.dropWhile isBare)

/-- A key of at most `n + 1` parts with dots between them, and the spaces around it. -/
def keyWithin : Nat → Reader (List String)
  | n, cs => do
    let (k, r) ← keyPart (skipSpaces cs)
    match n, skipSpaces r with
    | n + 1, '.' :: r =>
      let (ks, r) ← keyWithin n r
      some (k :: ks, r)
    | 0, '.' :: _ => none
    | _, r => some ([k], r)

/-- The keys before the last one, and the last one. -/
def key : Reader (List String × String) := fun cs => do
  let (ks, r) ← keyWithin (depthLimit - 2) cs
  let last ← ks.getLast?
  some ((ks.dropLast, last), r)

/-- Digits with single underscores between them, at least one. -/
def digitRun (isDigit : Char → Bool) : Reader (List Char) := fun cs =>
  match cs with
  | c :: r => if isDigit c then go [c] r else none
  | [] => none
where
  go (done : List Char) : List Char → Option (List Char × List Char)
    | '_' :: c :: r => if isDigit c then go (c :: done) r else none
    | '_' :: [] => none
    | c :: r => if isDigit c then go (c :: done) r else some (done.reverse, c :: r)
    | [] => some (done.reverse, [])

def valueIn (base : Nat) (ds : List Char) : Nat :=
  ds.foldl (fun n c => n * base + (hexValue? c).getD 0) 0

/-- An integer without sign and without leading zeros. -/
def plainInteger : Reader (List Char) := fun cs =>
  match cs with
  | '0' :: r => some (['0'], r)
  | _ => digitRun Char.isDigit cs

def sign : List Char → Bool × List Char
  | '-' :: r => (true, r)
  | '+' :: r => (false, r)
  | r => (false, r)

/-- Integers stay below it, and negative ones reach it. -/
def integerBound : Nat := Nat.pow 2 63

/-- An integer of 64 bits: decimal, or with the prefix of another base. -/
def integer : Reader Value := fun cs =>
  let based (base : Nat) (ok : Char → Bool) (r : List Char) : Option (Value × List Char) := do
    let (ds, r) ← digitRun ok r
    if valueIn base ds < integerBound then some (.integer (valueIn base ds), r) else none
  match cs with
  | '0' :: 'x' :: r => based 16 (fun c => (hexValue? c).isSome) r
  | '0' :: 'o' :: r => based 8 (fun c => '0' ≤ c && c ≤ '7') r
  | '0' :: 'b' :: r => based 2 (fun c => c == '0' || c == '1') r
  | _ => do
    let (neg, r) := sign cs
    let (ds, r) ← plainInteger r
    let n := valueIn 10 ds
    if neg then if n ≤ integerBound then some (.integer (-n), r) else none
    else if n < integerBound then some (.integer n, r) else none

/-- Whether a decimal is too large for a binary fraction of 64 bits. -/
def isHuge (digits : List Char) (scale : Int) : Bool :=
  let m := valueIn 10 digits
  let limit := Nat.pow 2 1024 - Nat.pow 2 970
  if m = 0 then false
  else if scale + (digits.length : Int) < 0 then false
  else if scale < 0 then limit * Nat.pow 10 scale.natAbs ≤ m
  else if 400 < scale then true
  else limit ≤ m * Nat.pow 10 scale.natAbs

/-- The exponent of a number, with its sign. -/
def exponent? : List Char → Option (Int × List Char)
  | c :: r =>
    if c = 'e' || c = 'E' then do
      let (neg, r) := sign r
      let (ds, r) ← digitRun Char.isDigit r
      let n : Int := valueIn 10 ds
      some (if neg then -n else n, r)
    else none
  | [] => none

def fraction? : List Char → Option (List Char × List Char)
  | '.' :: r => digitRun Char.isDigit r
  | _ => none

/-- A number with a fraction or an exponent, or one of the words for infinity and no number. -/
def real : Reader Value := fun cs =>
  let (neg, r) := sign cs
  match r with
  | 'i' :: 'n' :: 'f' :: r => some (.real, r)
  | 'n' :: 'a' :: 'n' :: r => some (.real, r)
  | _ => do
    let (whole, r) ← plainInteger r
    let checked (digits : List Char) (scale : Int) (r : List Char) : Option (Value × List Char) :=
      if !neg && isHuge digits scale then none else some (.real, r)
    match r with
    | '.' :: _ =>
      let (frac, r) ← fraction? r
      match r with
      | 'e' :: _ | 'E' :: _ =>
        let (e, r) ← exponent? r
        checked (whole ++ frac) (e - frac.length) r
      | _ => checked (whole ++ frac) (-(frac.length : Int)) r
    | _ =>
      let (e, r) ← exponent? r
      checked whole e r

/-- Exactly two digits, as a number from `lo` to `hi`. -/
def twoDigits (lo hi : Nat) : Reader Nat := fun cs =>
  match cs with
  | a :: b :: r =>
    if a.isDigit && b.isDigit then
      let n := valueIn 10 [a, b]
      if lo ≤ n && n ≤ hi then some (n, r) else none
    else none
  | _ => none

def daysIn (year month : Nat) : Nat :=
  if month = 2 then
    if year % 4 = 0 && (year % 100 != 0 || year % 400 = 0) then 29 else 28
  else if month = 4 || month = 6 || month = 9 || month = 11 then 30
  else 31

def expect (c : Char) : Reader Unit
  | x :: r => if x = c then some ((), r) else none
  | [] => none

def date : Reader Unit := fun cs =>
  match cs with
  | a :: b :: c :: d :: r =>
    if [a, b, c, d].all Char.isDigit then do
      let (_, r) ← expect '-' r
      let (month, r) ← twoDigits 1 12 r
      let (_, r) ← expect '-' r
      let (_, r) ← twoDigits 1 (daysIn (valueIn 10 [a, b, c, d]) month) r
      some ((), r)
    else none
  | _ => none

def time : Reader Unit := fun cs => do
  let (_, r) ← twoDigits 0 23 cs
  let (_, r) ← expect ':' r
  let (_, r) ← twoDigits 0 59 r
  let (_, r) ← expect ':' r
  let (_, r) ← twoDigits 0 60 r
  match r with
  | '.' :: c :: r =>
    some ((), if c.isDigit then r.dropWhile Char.isDigit else '.' :: c :: r)
  | _ => some ((), r)

def offset : Reader Unit := fun cs =>
  match cs with
  | c :: r =>
    if c = 'Z' || c = 'z' then some ((), r)
    else if c = '+' || c = '-' then do
      let (_, r) ← twoDigits 0 23 r
      let (_, r) ← expect ':' r
      let (_, r) ← twoDigits 0 59 r
      some ((), r)
    else none
  | [] => none

/-- A date, a time, or both, with an offset or without. -/
def moment : Reader Value := fun cs =>
  match date cs with
  | some (_, r) =>
    match r with
    | c :: rest =>
      if c = 'T' || c = 't' || c = ' ' then
        match time rest with
        | some (_, r) =>
          match offset r with
          | some (_, r) => some (.moment, r)
          | none => some (.moment, r)
        | none => some (.moment, r)
      else some (.moment, r)
    | [] => some (.moment, r)
  | none => (time cs).map fun p => (.moment, p.2)

/-- A number or a moment; whichever form fits first. -/
def number : Reader Value := fun cs =>
  (moment cs).orElse fun _ => (real cs).orElse fun _ => integer cs

end ConanPipeline.Toml
