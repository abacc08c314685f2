/-! Blank characters and lines. A line ends after its `\n`, so the spans of a
text, put back together, are the text (`flatten_spans`). -/

namespace ConanPipeline.Text

/-- The characters of Unicode's `White_Space` property. -/
def isBlank (c : Char) : Bool :=
  let n := c.toNat
  (0x9 ≤ n && n ≤ 0xd) || n == 0x20 || n == 0x85 || n == 0xa0 || n == 0x1680 ||
    (0x2000 ≤ n && n ≤ 0x200a) || n == 0x2028 || n == 0x2029 || n == 0x202f || n == 0x205f ||
    n == 0x3000

def trimStart (cs : List Char) : List Char := cs.dropWhile isBlank

def trimEnd (cs : List Char) : List Char := (cs.reverse.dropWhile isBlank).reverse

def trim (cs : List Char) : List Char := trimEnd (trimStart cs)

/-- The text without the blanks at its two ends. -/
def trimmed (s : String) : String := .ofList (trim s.toList)

def trimmedEnd (s : String) : String := .ofList (trimEnd s.toList)

/-- The lines of a text, each with its terminator. -/
def spans : List Char → List (List Char)
  | [] => []
  | c :: cs =>
    if c = '\n' then [c] :: spans cs
    else match spans cs with
      | [] => [[c]]
      | l :: ls => (c :: l) :: ls

theorem flatten_spans (cs : List Char) : (spans cs).flatten = cs := by
  induction cs with
  | nil => rfl
  | cons c cs ih =>
    rw [spans]
    split
    · simp [ih]
    · split <;> simp_all

/-- A line without its terminator: `\n`, or `\r\n`. -/
def unterminated (line : List Char) : List Char :=
  match line.reverse with
  | '\n' :: '\r' :: rest => rest.reverse
  | '\n' :: rest => rest.reverse
  | _ => line

def lines (cs : List Char) : List (List Char) := (spans cs).map unterminated

/-- What precedes and what follows the first `c`. -/
def cutAt (c : Char) : List Char → Option (List Char × List Char)
  | [] => none
  | x :: xs => if x = c then some ([], xs) else (cutAt c xs).map fun p => (x :: p.1, p.2)

theorem eq_of_cutAt {c : Char} {cs a b : List Char} (h : cutAt c cs = some (a, b)) :
    cs = a ++ c :: b ∧ c ∉ a := by
  induction cs generalizing a b with
  | nil => simp [cutAt] at h
  | cons x xs ih =>
    rw [cutAt] at h
    split at h
    · simp_all
    · rename_i hx
      obtain ⟨⟨a', b'⟩, hp, he⟩ := Option.map_eq_some_iff.1 h
      obtain ⟨h1, h2⟩ := ih hp
      simp only [Prod.mk.injEq] at he
      obtain ⟨rfl, rfl⟩ := he
      exact ⟨by simp [h1], by simp [h2, Ne.symm hx]⟩

/-- What follows `p` in a text that starts with it. -/
def after? : List Char → List Char → Option (List Char)
  | [], cs => some cs
  | _ :: _, [] => none
  | p :: ps, c :: cs => if p = c then after? ps cs else none

theorem after?_eq_some_iff {p cs rest : List Char} :
    after? p cs = some rest ↔ cs = p ++ rest := by
  induction p generalizing cs with
  | nil => simp [after?, eq_comm]
  | cons a p ih =>
    cases cs with
    | nil => simp [after?]
    | cons c cs =>
      rw [after?]
      split
      · simp_all
      · rename_i h
        simp [Ne.symm h]

def startsWith (p cs : List Char) : Bool := (after? p cs).isSome

/-- Whether `p` occurs in the text. -/
def contains (p : List Char) : List Char → Bool
  | [] => startsWith p []
  | c :: cs => startsWith p (c :: cs) || contains p cs

end ConanPipeline.Text
