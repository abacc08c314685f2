import ConanPipeline.Descriptor
import ConanPipeline.Proofs.Text.Lines
import Mathlib.Data.List.TakeWhile

/-! Lines that assign an attribute. Where the attribute can start a line, `find?` gives the
first line that is spaces, the attribute, spaces, `=` and a value (`find?_eq_some_iff`), and
nothing when there is none (`find?_eq_none_iff`). -/

namespace ConanPipeline.Descriptor

/-- An attribute that can stand behind the indent of a line. -/
structure IsAttribute (attr : List Char) : Prop where
  ne_nil : attr ≠ []
  start : ∀ c ∈ attr.head?, isSpace c = false
  one_line : ∀ c ∈ attr, isLineEnd c = false

/-- `f` is a line of the text, which follows `prev`, that assigns the attribute. -/
structure Found.IsLine (f : Found) (attr : List Char) (prev : Option Char) (text : List Char) :
    Prop where
  text_eq : ∃ gap, (∀ c ∈ gap, isSpace c = true) ∧
    text = f.before ++ (f.indent ++ (attr ++ (gap ++ '=' :: (f.value ++ f.rest))))
  starts : ∀ c ∈ f.before.getLast?.or prev, isLineEnd c = true
  indent : ∀ c ∈ f.indent, isSpace c = true
  value_ne : f.value ≠ []
  one_line : ∀ c ∈ f.value, isLineEnd c = false
  ends : ∀ c ∈ f.rest.head?, isLineEnd c = true

theorem isLineEnd_iff {c : Char} : isLineEnd c = true ↔ c = '\n' ∨ c = '\r' := by
  simp [isLineEnd]

theorem isLineEnd_of_isSpace {c : Char} (h : isSpace c = true) : isLineEnd c = false := by
  simp only [isSpace, Bool.or_eq_true, beq_iff_eq] at h
  rcases h with rfl | rfl <;> decide

section Assignment

variable {attr cs v r : List Char} {f : Found}

theorem valueAt?_eq_some_iff : valueAt? cs = some (v, r) ↔
    (∃ gap, (∀ c ∈ gap, isSpace c = true) ∧ cs = gap ++ '=' :: (v ++ r)) ∧ v ≠ [] ∧
      (∀ c ∈ v, isLineEnd c = false) ∧ ∀ c ∈ r.head?, isLineEnd c = true := by
  constructor
  · intro h
    rw [valueAt?] at h
    split at h
    · rename_i rest hd
      dsimp only at h
      split at h
      · exact absurd h (by simp)
      · rename_i hne
        rw [Option.some_inj, Prod.mk.injEq] at h
        obtain ⟨rfl, rfl⟩ := h
        refine ⟨⟨cs.takeWhile isSpace, ?_, ?_⟩, by simpa using hne, ?_, ?_⟩
        · intro c hc
          exact List.mem_takeWhile_imp hc
        · rw [List.takeWhile_append_dropWhile, ← hd, List.takeWhile_append_dropWhile]
        · intro c hc
          simpa using List.mem_takeWhile_imp hc
        · intro c hc
          simpa using Text.head?_dropWhile_stop _ _ c hc
    · exact absurd h (by simp)
  · rintro ⟨⟨gap, hgap, rfl⟩, hne, hv, hr⟩
    have hd : (gap ++ '=' :: (v ++ r)).dropWhile isSpace = '=' :: (v ++ r) :=
      Text.dropWhile_append_stop hgap (by simp; decide)
    have hv' : ∀ c ∈ v, (!isLineEnd c) = true := by simpa using hv
    have hr' : ∀ c ∈ r.head?, (!isLineEnd c) = false := by simpa using hr
    rw [valueAt?, hd]
    simp only [Text.takeWhile_append_stop hv' hr', Text.dropWhile_append_stop hv' hr']
    rw [if_neg (by simpa using hne)]

theorem assignmentAt?_eq_some_iff {n : Nat} : assignmentAt? attr cs n = some f ↔
    f.before = [] ∧ f.indent = cs.take n ∧
      ∃ t, cs.drop n = attr ++ t ∧ valueAt? t = some (f.value, f.rest) := by
  rw [assignmentAt?, Option.map_eq_some_iff]
  simp only [Option.bind_eq_bind, Option.bind_eq_some_iff, Text.after?_eq_some_iff]
  constructor
  · rintro ⟨⟨v, r⟩, ⟨t, ht, hv⟩, rfl⟩
    exact ⟨rfl, rfl, t, ht, hv⟩
  · rintro ⟨hb, hi, t, ht, hv⟩
    refine ⟨(f.value, f.rest), ⟨t, ht, hv⟩, ?_⟩
    rw [← hb, ← hi]

/-- Nothing is assigned behind less than the whole indent: the attribute starts with no
space. -/
theorem assignmentAt?_of_lt (ha : IsAttribute attr) {n : Nat}
    (h : n < (cs.takeWhile isSpace).length) : assignmentAt? attr cs n = none := by
  rw [Option.eq_none_iff_forall_ne_some]
  intro f hf
  obtain ⟨-, -, t, ht, -⟩ := assignmentAt?_eq_some_iff.1 hf
  obtain ⟨c, attr, rfl⟩ := List.exists_cons_of_ne_nil ha.ne_nil
  have hd : cs.drop n = (cs.takeWhile isSpace).drop n ++ cs.dropWhile isSpace := by
    conv => lhs; rw [← List.takeWhile_append_dropWhile (p := isSpace) (l := cs)]
    rw [List.drop_append_of_le_length (by omega)]
  rw [hd, List.drop_eq_getElem_cons h] at ht
  have hc := (List.cons.inj ht).1
  have hs : isSpace c = true := by
    rw [← hc]
    exact List.mem_takeWhile_imp (List.getElem_mem h)
  rw [ha.start c rfl] at hs
  exact absurd hs (by simp)

theorem assignmentWithin?_eq {n : Nat} (h : ∀ k < n, assignmentAt? attr cs k = none) :
    assignmentWithin? attr cs n = assignmentAt? attr cs n := by
  induction n with
  | zero => rfl
  | succ n ih =>
    rw [assignmentWithin?, ih fun k hk => h k (by omega), h n (by omega)]
    cases assignmentAt? attr cs (n + 1) <;> rfl

theorem assignment?_eq_some_iff (ha : IsAttribute attr) : assignment? attr cs = some f ↔
    f.before = [] ∧ f.IsLine attr none cs := by
  rw [assignment?, assignmentWithin?_eq fun k hk => assignmentAt?_of_lt ha hk,
    assignmentAt?_eq_some_iff]
  constructor
  · rintro ⟨hb, hi, t, ht, hv⟩
    obtain ⟨⟨gap, hgap, rfl⟩, hne, hline, hends⟩ := valueAt?_eq_some_iff.1 hv
    have hcs := List.take_append_drop (cs.takeWhile isSpace).length cs
    rw [ht, ← hi] at hcs
    refine ⟨hb, ⟨gap, hgap, ?_⟩, by simp [hb], ?_, hne, hline, hends⟩
    · rw [hb, List.nil_append, hcs]
    · intro c hc
      rw [hi, ← List.prefix_iff_eq_take.1 (List.takeWhile_prefix isSpace)] at hc
      exact List.mem_takeWhile_imp hc
  · rintro ⟨hb, ⟨gap, hgap, ht⟩, -, hindent, hne, hline, hends⟩
    rw [hb, List.nil_append] at ht
    have hi : cs.takeWhile isSpace = f.indent := by
      rw [ht]
      refine Text.takeWhile_append_stop hindent fun c hc => ha.start c ?_
      rwa [List.head?_append_of_ne_nil _ ha.ne_nil] at hc
    rw [hi]
    refine ⟨hb, ?_, gap ++ '=' :: (f.value ++ f.rest), ?_, ?_⟩
    · rw [ht, List.take_left]
    · rw [ht, List.drop_left]
    · exact valueAt?_eq_some_iff.2 ⟨⟨gap, hgap, rfl⟩, hne, hline, hends⟩

theorem assignment?_of_lineEnd (ha : IsAttribute attr) {c : Char} (hc : isLineEnd c = true) :
    assignment? attr (c :: cs) = none := by
  rw [Option.eq_none_iff_forall_ne_some]
  intro f hf
  obtain ⟨hb, ⟨gap, -, ht⟩, -, hindent, -, -, -⟩ := (assignment?_eq_some_iff ha).1 hf
  have hm : c ∈ f.indent ∨ c ∈ attr := by
    rw [hb, List.nil_append, ← List.append_assoc] at ht
    have hne : f.indent ++ attr ≠ [] := by simp [ha.ne_nil]
    have hh := congrArg List.head? ht
    rw [List.head?_append_of_ne_nil _ hne, List.head?_cons] at hh
    exact List.mem_append.1 (List.mem_of_head? hh.symm)
  rcases hm with hm | hm
  · exact absurd hc (by simp [isLineEnd_of_isSpace (hindent c hm)])
  · exact absurd hc (by simp [ha.one_line c hm])

theorem assignment?_nil (ha : IsAttribute attr) : assignment? attr [] = none := by
  rw [Option.eq_none_iff_forall_ne_some]
  intro f hf
  obtain ⟨hb, ⟨gap, -, ht⟩, -⟩ := (assignment?_eq_some_iff ha).1 hf
  simp [ha.ne_nil] at ht

end Assignment

theorem startsLine_iff {prev : Option Char} {c : Char} (hc : c ≠ '\n') (cs : List Char) :
    startsLine prev (c :: cs) = true ↔ ∀ d ∈ prev, isLineEnd d = true := by
  cases prev with
  | none => simp [startsLine]
  | some d =>
    have hs : (∀ e ∈ some d, isLineEnd e = true) ↔ d = '\n' ∨ d = '\r' := by
      simp [isLineEnd_iff]
    rw [hs]
    by_cases hn : d = '\n'
    · simp [hn, startsLine]
    · by_cases hr : d = '\r'
      · simp [hr, startsLine, hc]
      · simp [startsLine, hn, hr]

section Find

variable {attr cs : List Char} {prev : Option Char} {c : Char} {f : Found}

/-- The assignment that a line starting here would be. -/
def here? (attr : List Char) (prev : Option Char) (cs : List Char) : Option Found :=
  if startsLine prev cs then assignment? attr cs else none

theorem find?_cons : find? attr prev (c :: cs) = match here? attr prev (c :: cs) with
    | some f => some f
    | none => (find? attr (some c) cs).map fun f => { f with before := c :: f.before } := rfl

theorem isLine_iff_of_before_nil (hb : f.before = []) : f.IsLine attr prev cs ↔
    (∀ d ∈ prev, isLineEnd d = true) ∧ f.IsLine attr none cs := by
  constructor
  · rintro ⟨ht, hs, hi, hv, hl, he⟩
    exact ⟨by simpa [hb] using hs, ht, by simp [hb], hi, hv, hl, he⟩
  · rintro ⟨hs, ht, -, hi, hv, hl, he⟩
    exact ⟨ht, by simpa [hb] using hs, hi, hv, hl, he⟩

theorem here?_eq_some_iff (ha : IsAttribute attr) : here? attr prev (c :: cs) = some f ↔
    f.before = [] ∧ f.IsLine attr prev (c :: cs) := by
  have hiff : (f.before = [] ∧ f.IsLine attr prev (c :: cs)) ↔
      (∀ d ∈ prev, isLineEnd d = true) ∧ assignment? attr (c :: cs) = some f := by
    rw [assignment?_eq_some_iff ha, and_left_comm]
    exact and_congr_right isLine_iff_of_before_nil
  rw [hiff, here?]
  by_cases hc : isLineEnd c = true
  · -- between `\r` and `\n` no line starts, and none could be assigned there
    rw [assignment?_of_lineEnd ha hc]
    simp
  · have hne : c ≠ '\n' := fun he => hc (by rw [he]; decide)
    have hstart : startsLine prev (c :: cs) = true ↔ _ := startsLine_iff hne cs
    rw [← hstart]
    cases startsLine prev (c :: cs) <;> simp

theorem find?_nil (ha : IsAttribute attr) : find? attr prev [] = none := by
  rw [find?, assignment?_nil ha]
  split <;> rfl

theorem not_isLine_nil (ha : IsAttribute attr) : ¬ f.IsLine attr prev [] := by
  rintro ⟨⟨gap, -, ht⟩, -⟩
  simp [ha.ne_nil] at ht

theorem isLine_cons_iff :
    Found.IsLine { f with before := c :: f.before } attr prev (c :: cs) ↔
      f.IsLine attr (some c) cs := by
  have hs : (c :: f.before).getLast?.or prev = f.before.getLast?.or (some c) := by
    rw [List.getLast?_cons]
    cases f.before.getLast? <;> rfl
  constructor
  · rintro ⟨⟨gap, hgap, ht⟩, hstarts, hi, hv, hl, he⟩
    exact ⟨⟨gap, hgap, (List.cons.inj ht).2⟩, by rw [← hs]; exact hstarts, hi, hv, hl, he⟩
  · rintro ⟨⟨gap, hgap, ht⟩, hstarts, hi, hv, hl, he⟩
    exact ⟨⟨gap, hgap, by rw [ht]; rfl⟩, by rw [hs]; exact hstarts, hi, hv, hl, he⟩

/-- A line starts at the first character or behind it. -/
theorem isLine_cases (h : f.IsLine attr prev (c :: cs)) : f.before = [] ∨
    ∃ g : Found, f = { g with before := c :: g.before } ∧ g.IsLine attr (some c) cs := by
  obtain ⟨before, indent, value, rest⟩ := f
  cases before with
  | nil => exact Or.inl rfl
  | cons d before =>
    obtain ⟨gap, -, ht⟩ := h.text_eq
    have hd : c = d := (List.cons.inj ht).1
    subst hd
    exact Or.inr ⟨⟨before, indent, value, rest⟩, rfl, isLine_cons_iff.1 h⟩

theorem exists_behind (ha : IsAttribute attr) (hh : here? attr prev (c :: cs) = none)
    (h : f.IsLine attr prev (c :: cs)) :
    ∃ g : Found, f = { g with before := c :: g.before } ∧ g.IsLine attr (some c) cs := by
  refine (isLine_cases h).resolve_left fun hb => ?_
  rw [(here?_eq_some_iff ha).2 ⟨hb, h⟩] at hh
  exact absurd hh (by simp)

theorem not_isLine_of_find? (ha : IsAttribute attr) (h : find? attr prev cs = none) :
    ¬ f.IsLine attr prev cs := by
  induction cs generalizing prev f with
  | nil => exact not_isLine_nil ha
  | cons c cs ih =>
    rw [find?_cons] at h
    split at h
    · exact absurd h (by simp)
    · rename_i hn
      intro hl
      obtain ⟨g, -, hg⟩ := exists_behind ha hn hl
      exact ih (Option.map_eq_none_iff.1 h) hg

/-- The first line of the text that assigns the attribute. -/
def Found.IsFirst (f : Found) (attr : List Char) (prev : Option Char) (text : List Char) : Prop :=
  f.IsLine attr prev text ∧ ∀ g : Found, g.IsLine attr prev text → f.before.length ≤ g.before.length

theorem find?_eq_some_iff (ha : IsAttribute attr) :
    find? attr prev cs = some f ↔ f.IsFirst attr prev cs := by
  induction cs generalizing prev f with
  | nil =>
    rw [find?_nil ha]
    exact iff_of_false (by simp) fun h => not_isLine_nil ha h.1
  | cons c cs ih =>
    rw [find?_cons]
    cases hh : here? attr prev (c :: cs) with
    | some g =>
      obtain ⟨hb, hg⟩ := (here?_eq_some_iff ha).1 hh
      rw [Option.some_inj]
      constructor
      · rintro rfl
        exact ⟨hg, fun g' _ => by simp [hb]⟩
      · rintro ⟨hf, hmin⟩
        have hlen := hmin g hg
        rw [hb, List.length_nil, Nat.le_zero, List.length_eq_zero_iff] at hlen
        have hf' := (here?_eq_some_iff ha).2 ⟨hlen, hf⟩
        rw [hh, Option.some_inj] at hf'
        exact hf'
    | none =>
      rw [Option.map_eq_some_iff]
      constructor
      · rintro ⟨f, hf, rfl⟩
        obtain ⟨hl, hmin⟩ := ih.1 hf
        refine ⟨isLine_cons_iff.2 hl, fun g hg => ?_⟩
        obtain ⟨g, rfl, hg'⟩ := exists_behind ha hh hg
        exact Nat.succ_le_succ (hmin g hg')
      · rintro ⟨hl, hmin⟩
        obtain ⟨f, rfl, hf⟩ := exists_behind ha hh hl
        refine ⟨f, ih.2 ⟨hf, fun g hg => ?_⟩, rfl⟩
        exact Nat.le_of_succ_le_succ (hmin _ (isLine_cons_iff.2 hg))

theorem find?_eq_none_iff (ha : IsAttribute attr) :
    find? attr prev cs = none ↔ ∀ f : Found, ¬ f.IsLine attr prev cs := by
  constructor
  · intro h f
    exact not_isLine_of_find? ha h
  · intro h
    rw [Option.eq_none_iff_forall_ne_some]
    intro f hf
    exact h f ((find?_eq_some_iff ha).1 hf).1

end Find

end ConanPipeline.Descriptor
