import ConanPipeline.Shell.Pattern

/-! Whole numbers as they are written: blanks and a sign in front, octal after `0` and
hexadecimal after `0x`. What is too large for 64 bits is cut to the largest number.

Serves runs on test inputs only (`Programs/Known`); no theorem depends on it. -/

namespace ConanPipeline.Shell.Number

def digitValue (c : Char) : Nat :=
  if c.isDigit then c.toNat - '0'.toNat
  else if c.isLower then c.toNat - 'a'.toNat + 10
  else if c.isUpper then c.toNat - 'A'.toNat + 10
  else 36

/-- The digits at the front, and what follows them. -/
def digits (base : Nat) (cs : List Char) : List Char × List Char :=
  (cs.takeWhile fun c => digitValue c < base, cs.dropWhile fun c => digitValue c < base)

def valueOf (base : Nat) (ds : List Char) : Nat := ds.foldl (fun n c => n * base + digitValue c) 0

/-- The size of a number that a text starts with, in the base that its front tells or in base ten,
and what follows. -/
def magnitude? (anyBase : Bool) (cs : List Char) : Option (Nat × List Char) :=
  let read (base : Nat) (cs : List Char) : Option (Nat × List Char) :=
    match digits base cs with
    | ([], _) => none
    | (ds, rest) => some (valueOf base ds, rest)
  match anyBase, cs with
  | true, '0' :: x :: rest =>
    if x = 'x' || x = 'X' then (read 16 rest).or (some (0, x :: rest)) else read 8 cs
  | _, _ => read 10 cs

/-- A sign at the front, and what follows. -/
def sign (cs : List Char) : Bool × List Char :=
  match cs with
  | '-' :: cs => (true, cs)
  | '+' :: cs => (false, cs)
  | _ => (false, cs)

/-- The number that a text starts with, and what follows it. -/
def leading? (anyBase : Bool) (cs : List Char) : Option (Int × List Char) :=
  let (negative, cs) := sign (cs.dropWhile Pattern.isSpace)
  (magnitude? anyBase cs).map fun (n, rest) => (if negative then -(n : Int) else n, rest)

def least : Int := Int64.minValue.toInt

def greatest : Int := Int64.maxValue.toInt

def fitsSigned (n : Int) : Bool := least ≤ n && n ≤ greatest

def clamp (n : Int) : Int := max least (min greatest n)

/-- The number of 64 bits that another one wraps to. -/
def wrap (n : Int) : Int := (Int64.ofInt n).toInt

/-- The number that a whole text stands for. -/
def whole? (anyBase : Bool) (cs : List Char) : Option Int :=
  match leading? anyBase cs with
  | some (n, rest) => if rest.all Pattern.isSpace && fitsSigned n then some n else none
  | none => if anyBase && cs.all Pattern.isSpace then some 0 else none

end Number

/-- The number that an argument stands for. -/
def Number.read (cs : List Char) : Run Int :=
  match Number.whole? false cs with
  | some n => return n
  | none => giveUp (ofString "Illegal number: " ++ cs)

/-- The same, for a count. -/
def Number.readCount (cs : List Char) : Run Nat := do
  let n ← Number.read cs
  if n < 0 || n > Int32.maxValue.toInt then giveUp (ofString "Illegal number: " ++ cs)
  return n.toNat

end ConanPipeline.Shell
