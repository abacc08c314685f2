import ConanPipeline.Text.Property

/-! String literals on one line. The single quote is the delimiter unless the value
has single quotes and no double ones; what is invisible is written as a
hexadecimal escape of two, four or eight digits. -/

namespace ConanPipeline.Literal

/-- Code points that a literal shows by number. -/
def hidden : Text.Ranges := [
  (0x00, 0x1f), (0x7f, 0xa0), (0xad, 0xad), (0x600, 0x605), (0x61c, 0x61c), (0x6dd, 0x6dd),
  (0x70f, 0x70f), (0x1680, 0x1680), (0x180e, 0x180e), (0x2000, 0x200f), (0x2028, 0x202f),
  (0x205f, 0x2064), (0x2066, 0x206f), (0x3000, 0x3000), (0xd800, 0xf8ff), (0xfeff, 0xfeff),
  (0xfff9, 0xfffb), (0xe0001, 0xe0001), (0xe0020, 0xe007f), (0xf0000, 0x10ffff)]

def hexDigit (n : Nat) : Char := (Nat.toDigits 16 (n % 16)).headD '0'

/-- The last `width` hexadecimal digits of a number. -/
def hexPadded : Nat → Nat → List Char
  | 0, _ => []
  | width + 1, n => hexPadded width (n / 16) ++ [hexDigit n]

/-- The delimiter of a value's literal. -/
def delimiter (value : List Char) : Char :=
  if value.contains '\'' && !value.contains '"' then '"' else '\''

/-- One character inside a literal with the delimiter `q`. -/
def escape (q c : Char) : List Char :=
  if c = '\\' then ['\\', '\\']
  else if c = '\n' then ['\\', 'n']
  else if c = '\r' then ['\\', 'r']
  else if c = '\t' then ['\\', 't']
  else if c = q then ['\\', c]
  else if hidden.has c then
    if c.toNat ≤ 0xff then '\\' :: 'x' :: hexPadded 2 c.toNat
    else if c.toNat ≤ 0xffff then '\\' :: 'u' :: hexPadded 4 c.toNat
    else '\\' :: 'U' :: hexPadded 8 c.toNat
  else [c]

def encode (value : List Char) : List Char :=
  let q := delimiter value
  q :: value.flatMap (escape q) ++ [q]

/-- The literal of a string. -/
def ofString (s : String) : String := .ofList (encode s.toList)

end ConanPipeline.Literal
