import Mathlib.Algebra.Group.Nat.Defs
import Mathlib.Tactic.SplitIfs
import ConanPipeline.Proofs.Literal

/-! Literals read back. A reader knows where in a literal it stands: in plain text, behind a
backslash, or in a number with some digits still to come. One character at a time it reads the
escape of a character as that character (`readInside_escape`), so the literal of a text gives
the text, and what follows the literal is left alone (`read?_encode`). -/

namespace ConanPipeline.Literal

/-- Where in a literal a reader stands. -/
inductive Place where
  | plain
  | escaped
  /-- In a number with `left + 1` digits to come, those read so far making `seen`. -/
  | number (left seen : Nat)
  deriving DecidableEq, Repr

/-- The value of a hexadecimal digit, in either letter case. -/
def digit? (c : Char) : Option Nat :=
  if '0' ≤ c ∧ c ≤ '9' then some (c.toNat - '0'.toNat)
  else if 'a' ≤ c ∧ c ≤ 'f' then some (c.toNat - 'a'.toNat + 10)
  else if 'A' ≤ c ∧ c ≤ 'F' then some (c.toNat - 'A'.toNat + 10)
  else none

/-- The character that a letter behind a backslash stands for. -/
def short? : Char → Option Char
  | '\\' => some '\\'
  | '\'' => some '\''
  | '"' => some '"'
  | 'n' => some '\n'
  | 'r' => some '\r'
  | 't' => some '\t'
  | _ => none

/-- How many digits, less one, a letter behind a backslash announces. -/
def digitsAfter? : Char → Option Nat
  | 'x' => some 1
  | 'u' => some 3
  | 'U' => some 7
  | _ => none

/-- The character of a code point. -/
def scalar? (n : Nat) : Option Char := if n.isValidChar then some (Char.ofNat n) else none

/-- Puts a character before a text that was read. -/
def push (c : Char) : List Char × List Char → List Char × List Char
  | (value, rest) => (c :: value, rest)

/-- Reads up to the first delimiter `q` that is not escaped. Gives the text and what follows. -/
def readInside (q : Char) : Place → List Char → Option (List Char × List Char)
  | _, [] => none
  | .plain, c :: cs =>
    if c = q then some ([], cs)
    else if c = '\\' then readInside q .escaped cs
    else if c = '\n' ∨ c = '\r' then none
    else (readInside q .plain cs).map (push c)
  | .escaped, c :: cs =>
    match short? c, digitsAfter? c with
    | some d, _ => (readInside q .plain cs).map (push d)
    | none, some left => readInside q (.number left 0) cs
    | none, none => none
  | .number left seen, c :: cs =>
    match digit? c, left with
    | none, _ => none
    | some d, left + 1 => readInside q (.number left (16 * seen + d)) cs
    | some d, 0 =>
      match scalar? (16 * seen + d) with
      | none => none
      | some x => (readInside q .plain cs).map (push x)

/-- Reads a literal on one line, between single or double quotes. Gives its text and what follows
the literal. -/
def read? : List Char → Option (List Char × List Char)
  | [] => none
  | q :: cs => if q = '\'' ∨ q = '"' then readInside q .plain cs else none

theorem digit?_hexDigit (n : Nat) : digit? (hexDigit n) = some (n % 16) := by
  have h : ∀ m < 16, digit? ((Nat.toDigits 16 m).headD '0') = some m := by decide
  exact h _ (Nat.mod_lt n (by decide))

theorem scalar?_toNat (c : Char) : scalar? c.toNat = some c := by
  have hv : c.toNat.isValidChar := c.valid
  rw [scalar?, if_pos hv, Char.ofNat_toNat]

section Inside

variable {q : Char}

theorem readInside_digit (n left seen : Nat) (cs : List Char) :
    readInside q (.number (left + 1) seen) (hexDigit n :: cs) =
      readInside q (.number left (16 * seen + n % 16)) cs := by
  simp only [readInside, digit?_hexDigit]

theorem readInside_lastDigit {n seen : Nat} {c : Char} (hc : 16 * seen + n % 16 = c.toNat)
    (cs : List Char) :
    readInside q (.number 0 seen) (hexDigit n :: cs) = (readInside q .plain cs).map (push c) := by
  simp only [readInside, digit?_hexDigit, hc, scalar?_toNat]

/-- The first digits of a number. As many as `left` says, and one more, are still to come. -/
theorem readInside_hexPadded (width n left seen : Nat) (cs : List Char) :
    readInside q (.number (left + width) seen) (hexPadded width n ++ cs) =
      readInside q (.number left (seen * 16 ^ width + n % 16 ^ width)) cs := by
  induction width generalizing n left cs with
  | zero => simp [hexPadded, Nat.mod_one]
  | succ width ih =>
    have hplace : left + (width + 1) = (left + 1) + width := by omega
    have hvalue : 16 * (seen * 16 ^ width + n / 16 % 16 ^ width) + n % 16 =
        seen * 16 ^ (width + 1) + n % 16 ^ (width + 1) := by
      rw [Nat.pow_succ, Nat.mul_comm (16 ^ width) 16, Nat.mod_mul, Nat.mul_add,
        Nat.mul_left_comm 16 seen]
      omega
    rw [hexPadded, List.append_assoc, List.singleton_append, hplace, ih, readInside_digit, hvalue]

theorem readInside_number {width : Nat} {c : Char} (hc : c.toNat < 16 ^ (width + 1))
    (cs : List Char) :
    readInside q (.number width 0) (hexPadded (width + 1) c.toNat ++ cs) =
      (readInside q .plain cs).map (push c) := by
  have hfront : c.toNat / 16 < 16 ^ width := by
    rw [Nat.pow_succ] at hc
    omega
  have hread := readInside_hexPadded (q := q) width (c.toNat / 16) 0 0 (hexDigit c.toNat :: cs)
  rw [Nat.zero_add, Nat.zero_mul, Nat.zero_add, Nat.mod_eq_of_lt hfront] at hread
  rw [hexPadded, List.append_assoc, List.singleton_append, hread]
  exact readInside_lastDigit (by omega) cs

theorem readInside_backslash (hq : q ≠ '\\') (cs : List Char) :
    readInside q .plain ('\\' :: cs) = readInside q .escaped cs := by
  rw [readInside, if_neg (Ne.symm hq), if_pos rfl]

theorem readInside_short {l c : Char} (hq : q ≠ '\\') (hl : short? l = some c) (cs : List Char) :
    readInside q .plain ('\\' :: l :: cs) = (readInside q .plain cs).map (push c) := by
  rw [readInside_backslash hq, readInside, hl]

theorem readInside_numbered {l c : Char} {width : Nat} (hq : q ≠ '\\') (hs : short? l = none)
    (hl : digitsAfter? l = some width) (hc : c.toNat < 16 ^ (width + 1)) (cs : List Char) :
    readInside q .plain ('\\' :: l :: hexPadded (width + 1) c.toNat ++ cs) =
      (readInside q .plain cs).map (push c) := by
  rw [List.cons_append, List.cons_append, readInside_backslash hq, readInside, hs, hl]
  exact readInside_number hc cs

theorem toNat_lt_pow (c : Char) : c.toNat < 16 ^ 8 := by
  have h := c.val.toNat_lt
  rw [Char.toNat]
  omega

/-- What stands for a character is read as that character, whatever follows. -/
theorem readInside_escape (hq : q = '\'' ∨ q = '"') (c : Char) (cs : List Char) :
    readInside q .plain (escape q c ++ cs) = (readInside q .plain cs).map (push c) := by
  have hb : q ≠ '\\' := by rcases hq with rfl | rfl <;> decide
  rw [escape]
  split_ifs with hbackslash hn hr ht hself hhidden hshort hmiddle
  · exact readInside_short hb (by rw [hbackslash]; rfl) cs
  · exact readInside_short hb (by rw [hn]; rfl) cs
  · exact readInside_short hb (by rw [hr]; rfl) cs
  · exact readInside_short hb (by rw [ht]; rfl) cs
  · refine readInside_short hb ?_ cs
    rw [hself]
    rcases hq with rfl | rfl <;> rfl
  · exact readInside_numbered hb rfl rfl (by omega) cs
  · exact readInside_numbered hb rfl rfl (by omega) cs
  · exact readInside_numbered hb rfl rfl (toNat_lt_pow c) cs
  · rw [List.singleton_append, readInside, if_neg hself, if_neg hbackslash, if_neg (by simp [hn, hr])]

theorem readInside_flatMap (hq : q = '\'' ∨ q = '"') (value rest : List Char) :
    readInside q .plain (value.flatMap (escape q) ++ q :: rest) = some (value, rest) := by
  induction value with
  | nil => rw [List.flatMap_nil, List.nil_append, readInside, if_pos rfl]
  | cons c value ih =>
    rw [List.flatMap_cons, List.append_assoc, readInside_escape hq, ih]
    rfl

end Inside

theorem read?_encode (value rest : List Char) : read? (encode value ++ rest) = some (value, rest) := by
  have hq : delimiter value = '\'' ∨ delimiter value = '"' := delimiter_cases value
  rw [encode, List.cons_append, List.cons_append, List.append_assoc, List.singleton_append, read?,
    if_pos hq, readInside_flatMap hq]

/-- The literal of a string gives the string back, with all that follows the literal left over,
and it stands on one line. -/
theorem read?_ofString (s : String) :
    (∀ rest, read? ((ofString s).toList ++ rest) = some (s.toList, rest)) ∧
      '\n' ∉ (ofString s).toList ∧ '\r' ∉ (ofString s).toList := by
  have hline := one_line_encode s.toList
  rw [ofString, String.toList_ofList]
  exact ⟨read?_encode s.toList, fun hn => (hline _ hn).1 rfl, fun hr => (hline _ hr).2 rfl⟩

/-- Digits behind a numbered escape are not taken into it. -/
example : (ofString "'\u0085" ++ "0\"").toList = "\"'\\x85\"0\"".toList ∧
    read? "\"'\\x85\"0\"".toList = some ("'\u0085".toList, "0\"".toList) := by
  decide

end ConanPipeline.Literal
