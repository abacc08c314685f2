import ConanPipeline.Text.Blank
import ConanPipeline.Text.Property

/-! Versions that tools report, possibly abbreviated: missing parts are zero, and a
suffix after `-` or `+` does not count. -/

namespace ConanPipeline

structure Version where
  major : Nat
  minor : Nat
  patch : Nat
  deriving DecidableEq, Repr

namespace Version

def text (v : Version) : String :=
  toString v.major ++ "." ++ toString v.minor ++ "." ++ toString v.patch

/-- The value of a run of ASCII digits. -/
def digitsValue (cs : List Char) : Nat :=
  cs.foldl (fun n c => n * 10 + (c.toNat - '0'.toNat)) 0

/-- A decimal number below `bound`. A plus sign may stand before it. -/
def readNat? (bound : Nat) (cs : List Char) : Option Nat :=
  let ds := match cs with
    | '+' :: r => r
    | r => r
  if ds.isEmpty || !ds.all Char.isDigit then none
  else if digitsValue ds < bound then some (digitsValue ds)
  else none

/-- Reads a version of one to three numbers; what follows the third dot does not count. -/
def lenient? (cs : List Char) : Option Version :=
  let core := (Text.trim cs).takeWhile fun c => c != '-' && c != '+'
  match (core.splitOn '.').take 3 |>.map (readNat? (Nat.pow 2 64)) with
  | [some a] => some ⟨a, 0, 0⟩
  | [some a, some b] => some ⟨a, b, 0⟩
  | [some a, some b, some c] => some ⟨a, b, c⟩
  | _ => none

end Version

/-! Version lines that tools print. -/

namespace VersionLine

/-- Whether two characters are the same letter in any case; the long s counts as an s. -/
def sameLetter (a b : Char) : Bool :=
  a.toLower == b.toLower || (a == 's' && b == 'ſ')

/-- What follows `p`, in any letter case. -/
def afterAnyCase? : List Char → List Char → Option (List Char)
  | [], cs => some cs
  | _ :: _, [] => none
  | p :: ps, c :: cs => if sameLetter p c then afterAnyCase? ps cs else none

/-- The word after `conan version ` at the start of a text, blanks before it skipped. -/
def conanAt? (cs : List Char) : Option (List Char) := do
  let rest ← afterAnyCase? "conan version ".toList (Text.trimStart cs)
  let word := rest.takeWhile fun c => !Text.isBlank c
  if word.isEmpty then none else some word

/-- The version in the first line that gives one. -/
def conan? : List (List Char) → Option (List Char)
  | [] => none
  | l :: ls =>
    match conanAt? (l :: ls).flatten with
    | some w => some w
    | none => conan? ls

/-- Digits at the start of a text, at least one, and the rest. -/
def digits? (cs : List Char) : Option (List Char × List Char) :=
  let d := cs.takeWhile Text.isDigit
  if d.isEmpty then none else some (d, cs.dropWhile Text.isDigit)

/-- Three numbers with dots between them, at the start of a text. -/
def triple? (cs : List Char) : Option (List Char) := do
  let (a, r) ← digits? cs
  let r ← Text.after? ['.'] r
  let (b, r) ← digits? r
  let r ← Text.after? ['.'] r
  let (c, _) ← digits? r
  some (a ++ '.' :: b ++ '.' :: c)

/-- The first triple anywhere in a text that follows `cmake version `. -/
def cmake? : List Char → Option (List Char)
  | [] => none
  | c :: cs =>
    match Text.after? "cmake version ".toList (c :: cs) >>= triple? with
    | some w => some w
    | none => cmake? cs

end VersionLine

end ConanPipeline
