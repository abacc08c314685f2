import ConanPipeline.Shell.Number

/-! Numbers with a fraction: reading them to the nearest one that 64 bits can hold, and
writing them with a given number of places, ties going to the even neighbour.

Serves runs on test inputs only (`Programs/Known`); no theorem depends on it. -/

namespace ConanPipeline.Shell

inductive Real where
  /-- The number `size * 2 ^ scale`, or its negative. -/
  | finite (negative : Bool) (size : Nat) (scale : Int)
  | infinite (negative : Bool)
  | undefined (negative : Bool)
  deriving DecidableEq

namespace Real

/-- The whole number nearest to a quotient. -/
def roundDiv (num den : Nat) : Nat :=
  let q := num / den
  let r := num % den
  if 2 * r > den || (2 * r = den && q % 2 = 1) then q + 1 else q

/-- A quotient with a power of two taken out. -/
def scaled (num den : Nat) (scale : Int) : Nat × Nat :=
  if scale < 0 then (num * Nat.pow 2 (-scale).toNat, den) else (num, den * Nat.pow 2 scale.toNat)

def leastScale : Int := -1074

/-- The number nearest to a quotient, and whether it is out of range. -/
def nearest (negative : Bool) (num den : Nat) : Real × Bool :=
  if num = 0 then (finite negative 0 0, false)
  else
    let guess : Int := (Nat.log2 num : Int) - Nat.log2 den - 52
    let (a, b) := scaled num den guess
    let scale := max leastScale (if a / b ≥ Nat.pow 2 53 then guess + 1
      else if a / b < Nat.pow 2 52 then guess - 1 else guess)
    let (a, b) := scaled num den scale
    let size := roundDiv a b
    let (size, scale) := if size = Nat.pow 2 53 then (Nat.pow 2 52, scale + 1) else (size, scale)
    if scale > 971 then (infinite negative, true)
    else (finite negative size scale, size < Nat.pow 2 52 && a % b ≠ 0)

/-- The exponent that a text goes on with after one of two letters. -/
def exponent (lower upper : Char) (cs : List Char) : Int × List Char :=
  match cs with
  | c :: rest =>
    if c = lower || c = upper then
      let (negative, ds) := Number.sign rest
      match Number.digits 10 ds with
      | ([], _) => (0, cs)
      | (ds, rest) =>
        let n : Int := min (Number.valueOf 10 ds) 100000
        (if negative then -n else n, rest)
    else (0, cs)
  | [] => (0, cs)

/-- Digits with a point among them: the number that they make without it, how many stand behind
it, and what follows. -/
def mantissa? (base : Nat) (cs : List Char) : Option (Nat × Nat × List Char) :=
  let (whole, rest) := Number.digits base cs
  let (part, rest) := match rest with
    | '.' :: more => Number.digits base more
    | _ => ([], rest)
  if whole.isEmpty && part.isEmpty then none
  else some (Number.valueOf base (whole ++ part), part.length, rest)

/-- A quotient times a power. -/
def power (n base : Nat) (e : Int) : Nat × Nat :=
  if e < 0 then (n, Nat.pow base (-e).toNat) else (n * Nat.pow base e.toNat, 1)

/-- The word at the front of a text, in any letter case, and what follows it. -/
def word? (word : String) (cs : List Char) : Option (List Char) :=
  if (cs.take word.length).map Char.toLower = word.toList then some (cs.drop word.length) else none

/-- The number that a text starts with, whether it is out of range, and what follows it. -/
def leading? (cs : List Char) : Option (Real × Bool × List Char) :=
  let (negative, cs) := Number.sign (cs.dropWhile Pattern.isSpace)
  let made (base : Nat) (letters : Char × Char) (radix : Nat) (places : Nat)
      (cs : List Char) : Option (Real × Bool × List Char) := do
    let (n, behind, rest) ← mantissa? base cs
    let (e, rest) := exponent letters.1 letters.2 rest
    let (num, den) := power n radix (e - (behind * places : Nat))
    let (x, out) := nearest negative num den
    return (x, out, rest)
  let hex : Option (Real × Bool × List Char) :=
    match cs with
    | '0' :: x :: rest => if x = 'x' || x = 'X' then made 16 ('p', 'P') 2 4 rest else none
    | _ => none
  match (word? "infinity" cs).or (word? "inf" cs), word? "nan" cs with
  | some rest, _ => some (infinite negative, false, rest)
  | none, some rest => some (undefined negative, false, rest)
  | none, none => hex.or (made 10 ('e', 'E') 10 1 cs)

/-- The size of a number as a quotient. -/
def quotient (size : Nat) (scale : Int) : Nat × Nat := power size 2 scale

def padded (n width : Nat) : List Char :=
  let ds := (Nat.repr n).toList
  List.replicate (width - ds.length) '0' ++ ds

/-- With a number of places behind the point. -/
def fixed (sharp : Bool) (places size : Nat) (scale : Int) : List Char :=
  let (num, den) := quotient size scale
  let n := roundDiv (num * Nat.pow 10 places) den
  let whole := (Nat.repr (n / Nat.pow 10 places)).toList
  if places = 0 then whole ++ (if sharp then ['.'] else [])
  else whole ++ ['.'] ++ padded (n % Nat.pow 10 places) places

/-- The digits of a number, one before the point and so many behind it, and its power of ten. -/
def digitsOf (places size : Nat) (scale : Int) : Nat × Int :=
  if size = 0 then (0, 0)
  else
    let (num, den) := quotient size scale
    let guess : Int :=
      if num ≥ den then (Nat.repr (num / den)).length - 1
      else -((Nat.repr (den / num)).length : Int)
    let digitsAt (k : Int) : Nat :=
      let shift := (places : Int) - k
      if shift < 0 then roundDiv num (den * Nat.pow 10 (-shift).toNat)
      else roundDiv (num * Nat.pow 10 shift.toNat) den
    let exact (k : Int) : Bool :=
      if k < 0 then num * Nat.pow 10 (-k).toNat ≥ den else num ≥ den * Nat.pow 10 k.toNat
    let k := if exact (guess + 1) then guess + 1 else if exact guess then guess else guess - 1
    let n := digitsAt k
    if n ≥ Nat.pow 10 (places + 1) then (n / 10, k + 1) else (n, k)

def signed (e : Int) (width : Nat) : List Char :=
  (if e < 0 then '-' else '+') :: padded e.natAbs width

/-- With a power of ten. -/
def scientific (sharp : Bool) (places size : Nat) (scale : Int) : List Char :=
  let (n, k) := digitsOf places size scale
  let ds := padded n (places + 1)
  let point := if places > 0 || sharp then ['.'] else []
  ds.take 1 ++ point ++ ds.drop 1 ++ ['e'] ++ signed k 2

/-- Without the zeros at the end behind a point. -/
def stripped (cs : List Char) : List Char :=
  if cs.contains '.' then
    let r := cs.reverse.dropWhile (· = '0')
    (match r with
      | '.' :: r => r
      | r => r).reverse
  else cs

/-- In the shorter of the two ways. -/
def general (sharp : Bool) (precision size : Nat) (scale : Int) : List Char :=
  let p := max precision 1
  let (_, k) := digitsOf (p - 1) size scale
  if -4 ≤ k && k < p then
    let cs := fixed sharp ((p : Int) - 1 - k).toNat size scale
    if sharp then cs else stripped cs
  else
    let cs := scientific sharp (p - 1) size scale
    if sharp then cs
    else stripped (cs.takeWhile (· ≠ 'e')) ++ cs.dropWhile (· ≠ 'e')

/-- In base sixteen, with a power of two. -/
def hexadecimal (sharp : Bool) (precision : Option Nat) (size : Nat) (scale : Int) : List Char :=
  let up : Nat := if size = 0 then 0 else 52 - Nat.log2 size
  let normal := size < Nat.pow 2 52
  let (m, e) : Nat × Int :=
    if size = 0 then (0, 0)
    else if normal && scale ≠ leastScale then (size * Nat.pow 2 up, scale - up + 52)
    else (size, scale + 52)
  let hexDigits (n width : Nat) : List Char :=
    let ds := Nat.toDigits 16 n
    List.replicate (width - ds.length) '0' ++ ds
  let (lead, part) := match precision with
    | some p =>
      if p < 13 then
        let n := roundDiv m (Nat.pow 2 (52 - 4 * p))
        (n / Nat.pow 16 p, if p = 0 then [] else hexDigits (n % Nat.pow 16 p) p)
      else (m / Nat.pow 2 52, hexDigits (m % Nat.pow 2 52) 13 ++ List.replicate (p - 13) '0')
    | none =>
      (m / Nat.pow 2 52, ((hexDigits (m % Nat.pow 2 52) 13).reverse.dropWhile (· = '0')).reverse)
  ['0', 'x'] ++ (Nat.repr lead).toList ++ (if part.isEmpty && !sharp then [] else ['.']) ++ part ++
    ['p'] ++ signed e 1

end Real

end ConanPipeline.Shell
