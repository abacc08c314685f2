import ConanPipeline.Proofs.Text.Lines
import ConanPipeline.Version

/-! Versions as they are written. Every spelling is read, whatever zeros stand before its numbers,
however many of them there are, and whatever comes behind the third (`lenient?_text`). -/

namespace ConanPipeline.Version

/-- A decimal number, with any zeros before it. -/
structure IsNumeral (cs : List Char) : Prop where
  ne_nil : cs ≠ []
  digits : ∀ c ∈ cs, c.isDigit = true

instance (cs : List Char) : Decidable (IsNumeral cs) :=
  decidable_of_iff (cs ≠ [] ∧ cs.all Char.isDigit = true)
    ⟨fun ⟨h1, h2⟩ => ⟨h1, List.all_eq_true.1 h2⟩,
      fun h => ⟨h.ne_nil, List.all_eq_true.2 h.digits⟩⟩

/-- What a numeral stands for. -/
def value (cs : List Char) : Nat := Nat.ofDigitChars 10 cs 0

/-- A version as it may be written: numbers with dots between them, more components after the third,
and a suffix. -/
structure Spelling where
  major : List Char
  more : List (List Char)
  suffix : List Char
  numbers : ∀ cs ∈ (major :: more).take 3, IsNumeral cs ∧ value cs < Nat.pow 2 64
  others : ∀ cs ∈ more.drop 2, '.' ∉ cs ∧ '-' ∉ cs ∧ '+' ∉ cs
  suffix_head : ∀ c ∈ suffix.head?, c = '-' ∨ c = '+'

variable {cs ds : List Char} {bound n : Nat}

section Numerals

theorem digitsValue_eq (cs : List Char) : digitsValue cs = value cs := by
  have hstep : (fun (n : Nat) (c : Char) => n * 10 + (c.toNat - '0'.toNat)) =
      fun n c => 10 * n + (c.toNat - '0'.toNat) := by
    funext n c
    rw [Nat.mul_comm]
  rw [digitsValue, value, Nat.ofDigitChars, hstep]

theorem IsNumeral.not_mem (h : IsNumeral cs) {c : Char} (hc : c.isDigit = false) : c ∉ cs := by
  intro hmem
  rw [h.digits c hmem] at hc
  cases hc

theorem isNumeral_iff : (ds.isEmpty || !ds.all Char.isDigit) = false ↔ IsNumeral ds := by
  rw [Bool.or_eq_false_iff, List.isEmpty_eq_false_iff, Bool.not_eq_false', List.all_eq_true]
  exact ⟨fun h => ⟨h.1, h.2⟩, fun h => ⟨h.ne_nil, h.digits⟩⟩

/-- A number that is read is a numeral, with a plus sign before it or without. -/
theorem readNat?_eq_some_iff : readNat? bound cs = some n ↔
    ∃ ds, (cs = ds ∨ cs = '+' :: ds) ∧ IsNumeral ds ∧ value ds = n ∧ n < bound := by
  have hread (ds : List Char) : (if ds.isEmpty || !ds.all Char.isDigit then none
      else if digitsValue ds < bound then some (digitsValue ds) else none) = some n ↔
      IsNumeral ds ∧ value ds = n ∧ n < bound := by
    rw [digitsValue_eq]
    by_cases hds : IsNumeral ds
    · rw [isNumeral_iff.2 hds, if_neg Bool.false_ne_true]
      split
      · rename_i hlt
        exact ⟨fun h => ⟨hds, Option.some.inj h, Option.some.inj h ▸ hlt⟩,
          fun h => congrArg some h.2.1⟩
      · rename_i hge
        exact iff_of_false nofun fun h => hge (h.2.1 ▸ h.2.2)
    · rw [if_pos (by rwa [← Bool.not_eq_false, isNumeral_iff])]
      exact iff_of_false nofun fun h => hds h.1
  by_cases hplus : ∃ rest, cs = '+' :: rest
  · obtain ⟨rest, rfl⟩ := hplus
    refine (hread rest).trans ⟨fun h => ⟨rest, .inr rfl, h⟩, ?_⟩
    rintro ⟨ds, rfl | hds, h⟩
    · exact absurd List.mem_cons_self (h.1.not_mem (by decide : '+'.isDigit = false))
    · cases hds
      exact h
  · rw [readNat?, hread]
    · refine ⟨fun h => ⟨cs, .inl rfl, h⟩, ?_⟩
      rintro ⟨ds, rfl | hds, h⟩
      · exact h
      · exact absurd ⟨ds, hds⟩ hplus
    · exact fun rest hrest => hplus ⟨rest, hrest⟩

theorem readNat?_of_isNumeral (h : IsNumeral cs) (hn : value cs < bound) :
    readNat? bound cs = some (value cs) :=
  readNat?_eq_some_iff.2 ⟨cs, .inl rfl, h, rfl, hn⟩

end Numerals

namespace Spelling

def text (s : Spelling) : List Char := ['.'].intercalate (s.major :: s.more) ++ s.suffix

/-- Numbers that are not written are zero. -/
def version (s : Spelling) : Version :=
  ⟨value s.major, value (s.more.getD 0 []), value (s.more.getD 1 [])⟩

theorem mem_intercalate {x c : Char} {ls : List (List Char)} (h : c ∈ [x].intercalate ls) :
    c = x ∨ ∃ l ∈ ls, c ∈ l := by
  induction ls with
  | nil => cases h
  | cons l ls ih =>
    cases ls with
    | nil => exact .inr ⟨l, List.mem_cons_self, by simpa using h⟩
    | cons l' ls =>
      rw [List.intercalate_cons_cons, List.mem_append, List.mem_append, List.mem_singleton] at h
      rcases h with (h | h) | h
      · exact .inr ⟨l, List.mem_cons_self, h⟩
      · exact .inl h
      · exact (ih h).imp_right fun ⟨l, hl, hc⟩ => ⟨l, List.mem_cons_of_mem _ hl, hc⟩

theorem component (s : Spelling) (h : cs ∈ s.major :: s.more) :
    '.' ∉ cs ∧ '-' ∉ cs ∧ '+' ∉ cs := by
  rw [← List.take_append_drop 3 (s.major :: s.more)] at h
  rcases List.mem_append.1 h with h | h
  · have hcs := (s.numbers cs h).1
    exact ⟨hcs.not_mem (by decide), hcs.not_mem (by decide), hcs.not_mem (by decide)⟩
  · exact s.others cs h

/-- A version is read by its first three numbers, if nothing is trimmed off its spelling. -/
theorem lenient?_text (s : Spelling) (h : Text.trim s.text = s.text) :
    lenient? s.text = some s.version := by
  have hcore : s.text.takeWhile (fun c => c != '-' && c != '+') =
      ['.'].intercalate (s.major :: s.more) := by
    refine Text.takeWhile_append_stop (fun c hc => ?_) fun c hc => ?_
    · rcases mem_intercalate hc with rfl | ⟨l, hl, hc⟩
      · decide
      · obtain ⟨-, hminus, hplus⟩ := s.component hl
        simp [ne_of_mem_of_not_mem hc hminus, ne_of_mem_of_not_mem hc hplus]
    · rcases s.suffix_head c hc with rfl | rfl <;> decide
  have hsplit : (['.'].intercalate (s.major :: s.more)).splitOn '.' = s.major :: s.more :=
    List.splitOn_intercalate '.' (fun l hl => (s.component hl).1) (List.cons_ne_nil _ _)
  have hread (cs : List Char) (hcs : cs ∈ (s.major :: s.more).take 3) :
      readNat? (Nat.pow 2 64) cs = some (value cs) :=
    readNat?_of_isNumeral (s.numbers cs hcs).1 (s.numbers cs hcs).2
  have hmap := List.map_congr_left hread
  rw [lenient?, h, hcore, hsplit, hmap, version]
  rcases s.more with _ | ⟨minor, _ | ⟨patch, others⟩⟩ <;> rfl

end Spelling

end ConanPipeline.Version
