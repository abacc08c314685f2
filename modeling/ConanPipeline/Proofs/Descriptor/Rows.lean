import ConanPipeline.Proofs.Descriptor.Line

/-! Texts by rows. A row is what stands between two line ends, and a look-up asks one row
after the other (`find?_row`): a row that assigns the attribute answers it, whatever follows,
and any other row is passed over. -/

namespace ConanPipeline.Descriptor

/-- The text is empty or goes on with a line end. -/
def AtLineEnd (cs : List Char) : Prop := ∀ c ∈ cs.head?, isLineEnd c = true

structure IsRow (l : List Char) : Prop where
  ne_nil : l ≠ []
  one_line : ∀ c ∈ l, isLineEnd c = false

/-- A text is empty, or a line end or a row in front of another text. -/
@[elab_as_elim]
theorem row_induction {P : List Char → Prop} (nil : P [])
    (ending : ∀ c cs, isLineEnd c = true → P cs → P (c :: cs))
    (row : ∀ l cs, IsRow l → AtLineEnd cs → P cs → P (l ++ cs)) (cs : List Char) : P cs := by
  induction h : cs.length using Nat.strongRecOn generalizing cs with
  | ind n ih =>
    cases cs with
    | nil => exact nil
    | cons c cs =>
      by_cases hc : isLineEnd c = true
      · exact ending c cs hc (ih cs.length (by rw [← h]; simp) cs rfl)
      · let p : Char → Bool := fun d => !isLineEnd d
        have hp : p c = true := by simpa [p] using hc
        have hcut : c :: cs.takeWhile p ++ cs.dropWhile p = c :: cs := by
          rw [List.cons_append, List.takeWhile_append_dropWhile]
        have hrow : IsRow (c :: cs.takeWhile p) := by
          refine ⟨by simp, ?_⟩
          rw [List.forall_mem_cons]
          exact ⟨by simpa using hc, fun d hd => by simpa [p] using List.mem_takeWhile_imp hd⟩
        have hend : AtLineEnd (cs.dropWhile p) := by
          intro d hd
          simpa [p] using Text.head?_dropWhile_stop p cs d hd
        have hlen : (cs.dropWhile p).length < n := by
          have := (List.dropWhile_suffix p (l := cs)).length_le
          rw [← h, List.length_cons]
          omega
        rw [← hcut]
        exact row _ _ hrow hend (ih _ hlen _ rfl)

section Row

variable {attr l cs : List Char} {c : Char} {f : Found}

theorem atLineEnd_nil : AtLineEnd [] := by simp [AtLineEnd]

theorem atLineEnd_cons (h : isLineEnd c = true) (cs : List Char) : AtLineEnd (c :: cs) := by
  simpa [AtLineEnd] using h

/-- A row and what follows it are cut in one way only. -/
theorem append_inj_of_row {a b r s : List Char} (ha : ∀ c ∈ a, isLineEnd c = false)
    (hr : AtLineEnd r) (hb : ∀ c ∈ b, isLineEnd c = false) (hs : AtLineEnd s)
    (h : a ++ r = b ++ s) : a = b ∧ r = s := by
  have ha' : ∀ c ∈ a, (!isLineEnd c) = true := by simpa using ha
  have hb' : ∀ c ∈ b, (!isLineEnd c) = true := by simpa using hb
  have hr' : ∀ c ∈ r.head?, (!isLineEnd c) = false := by simpa [AtLineEnd] using hr
  have hs' : ∀ c ∈ s.head?, (!isLineEnd c) = false := by simpa [AtLineEnd] using hs
  constructor
  · rw [← Text.takeWhile_append_stop ha' hr', h, Text.takeWhile_append_stop hb' hs']
  · rw [← Text.dropWhile_append_stop ha' hr', h, Text.dropWhile_append_stop hb' hs']

theorem isLine_row_iff (ha : IsAttribute attr) (hl : IsRow l) (hcs : AtLineEnd cs)
    (hb : f.before = []) : f.IsLine attr none (l ++ cs) ↔
      f.rest = cs ∧ Found.IsLine { f with rest := [] } attr none l := by
  constructor
  · rintro ⟨⟨gap, hgap, ht⟩, hs, hi, hv, hline, hends⟩
    have hx : ∀ c ∈ f.indent ++ (attr ++ (gap ++ '=' :: f.value)), isLineEnd c = false := by
      intro c hc
      simp only [List.mem_append, List.mem_cons] at hc
      rcases hc with hc | hc | hc | rfl | hc
      · exact isLineEnd_of_isSpace (hi c hc)
      · exact ha.one_line c hc
      · exact isLineEnd_of_isSpace (hgap c hc)
      · decide
      · exact hline c hc
    have ht' : l ++ cs = (f.indent ++ (attr ++ (gap ++ '=' :: f.value))) ++ f.rest := by
      rw [ht, hb]
      simp
    obtain ⟨h1, h2⟩ := append_inj_of_row hl.one_line hcs hx hends ht'
    exact ⟨h2.symm, ⟨gap, hgap, by simp [h1, hb]⟩, hs, hi, hv, hline, by simp⟩
  · rintro ⟨rfl, ⟨gap, hgap, ht⟩, hs, hi, hv, hline, -⟩
    exact ⟨⟨gap, hgap, by simp [ht]⟩, hs, hi, hv, hline, hcs⟩

theorem assignment?_row (ha : IsAttribute attr) (hl : IsRow l) (hcs : AtLineEnd cs) :
    assignment? attr (l ++ cs) = (assignment? attr l).map fun f => { f with rest := cs } := by
  ext f
  rw [assignment?_eq_some_iff ha, Option.map_eq_some_iff]
  constructor
  · rintro ⟨hb, hf⟩
    obtain ⟨hr, hg⟩ := (isLine_row_iff ha hl hcs hb).1 hf
    refine ⟨{ f with rest := [] }, (assignment?_eq_some_iff ha).2 ⟨hb, hg⟩, ?_⟩
    rw [← hr]
  · rintro ⟨g, hg, rfl⟩
    obtain ⟨hb, hg⟩ := (assignment?_eq_some_iff ha).1 hg
    rw [← List.append_nil l, isLine_row_iff ha hl atLineEnd_nil hb] at hg
    exact ⟨hb, (@isLine_row_iff _ _ _ { g with rest := cs } ha hl hcs hb).2 ⟨rfl, hg.2⟩⟩

theorem find?_after_lineEnd (ha : IsAttribute attr) (hc : isLineEnd c = true) (cs : List Char) :
    find? attr (some c) cs = find? attr none cs := by
  have hline : ∀ f : Found, f.IsLine attr (some c) cs ↔ f.IsLine attr none cs := by
    intro f
    have hs : (∀ d ∈ f.before.getLast?.or (some c), isLineEnd d = true) ↔
        ∀ d ∈ f.before.getLast?.or none, isLineEnd d = true := by
      cases f.before.getLast? <;> simp [hc]
    constructor
    · rintro ⟨ht, h, hi, hv, hl, he⟩
      exact ⟨ht, hs.1 h, hi, hv, hl, he⟩
    · rintro ⟨ht, h, hi, hv, hl, he⟩
      exact ⟨ht, hs.2 h, hi, hv, hl, he⟩
  ext f
  rw [find?_eq_some_iff ha, find?_eq_some_iff ha, Found.IsFirst, Found.IsFirst, hline]
  simp only [hline]

theorem find?_lineEnd (ha : IsAttribute attr) (hc : isLineEnd c = true) (cs : List Char) :
    find? attr none (c :: cs) =
      (find? attr none cs).map fun f => { f with before := c :: f.before } := by
  have hh : here? attr none (c :: cs) = none := by
    rw [here?, assignment?_of_lineEnd ha hc]
    split <;> rfl
  rw [find?_cons, hh, find?_after_lineEnd ha hc]

theorem here?_inside (hc : isLineEnd c = false) (cs : List Char) :
    here? attr (some c) cs = none := by
  have hn : c ≠ '\n' ∧ c ≠ '\r' := by simpa [isLineEnd] using hc
  have hs : startsLine (some c) cs = false := by simp [startsLine, hn]
  rw [here?, hs]
  rfl

/-- Inside a row nothing is found before its end. -/
theorem find?_inside (ha : IsAttribute attr) (hc : isLineEnd c = false)
    (hl : ∀ c ∈ l, isLineEnd c = false) (hcs : AtLineEnd cs) :
    find? attr (some c) (l ++ cs) =
      (find? attr none cs).map fun f => { f with before := l ++ f.before } := by
  induction l generalizing c with
  | nil =>
    cases cs with
    | nil => rw [List.append_nil, find?_nil ha, find?_nil ha, Option.map_none]
    | cons d cs =>
      have hd : isLineEnd d = true := hcs d rfl
      rw [List.nil_append, find?_cons, here?_inside hc, find?_lineEnd ha hd,
        find?_after_lineEnd ha hd, Option.map_map]
      rfl
  | cons d l ih =>
    rw [List.forall_mem_cons] at hl
    rw [List.cons_append, find?_cons, here?_inside hc, ih hl.1 hl.2, Option.map_map]
    rfl

theorem find?_row (ha : IsAttribute attr) (hl : IsRow l) (hcs : AtLineEnd cs) :
    find? attr none (l ++ cs) = match assignment? attr l with
      | some f => some { f with rest := cs }
      | none => (find? attr none cs).map fun f => { f with before := l ++ f.before } := by
  have hhere : here? attr none (l ++ cs) =
      (assignment? attr l).map fun f => { f with rest := cs } := by
    rw [here?, show startsLine none (l ++ cs) = true from rfl, if_pos rfl,
      assignment?_row ha hl hcs]
  obtain ⟨c, l, rfl⟩ := List.exists_cons_of_ne_nil hl.ne_nil
  have hline := hl.one_line
  rw [List.forall_mem_cons] at hline
  rw [List.cons_append] at hhere ⊢
  rw [find?_cons, hhere, find?_inside ha hline.1 hline.2 hcs, Option.map_map]
  cases assignment? attr (c :: l) <;> rfl

end Row

end ConanPipeline.Descriptor
