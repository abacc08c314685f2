import ConanPipeline.Proofs.Profile.Store

/-! What an update leaves alone. The lines of a text are parted into those that set the key in a
block of the section and all the others. An update makes entries of the first, with one more of
them at most (`part_true_edit`), and keeps the second (`part_false_edit`). -/

namespace ConanPipeline.Profile

/-- Whether a line sets the key in a block of the section. -/
def Slot.owns (k : Slot) (inside : Bool) (l : List Char) : Bool := inside && k.kind l = .setting

/-- The lines that set the key in a block of the section, or all the others. A line is inside if
the last header or blank line above it is a header of the section. -/
def Slot.part (k : Slot) (own : Bool) : Bool → List (List Char) → List (List Char)
  | _, [] => []
  | inside, l :: ls =>
    if k.owns inside l = own then l :: k.part own (k.goesOn inside l) ls
    else k.part own (k.goesOn inside l) ls

/-- The lines that go before the entry, if no header of the section is there. -/
def Update.opener (u : Update) (s : Progress) (ls : List (List Char)) : List (List Char) :=
  if s.inside = true ∨ s.written = true ∨ ∃ l ∈ ls, u.kind l = .opening then []
  else [['\n'], heading u.sec]

section Parts

variable {k : Slot} {l : List Char} {inside : Bool}

theorem part_cons_of_other (h : inside = true → k.kind l ≠ .setting) (own : Bool)
    (ls : List (List Char)) : k.part own inside (l :: ls) =
      if own then k.part own (k.goesOn inside l) ls
      else l :: k.part own (k.goesOn inside l) ls := by
  have hother : k.owns inside l = false := by
    cases inside with
    | false => rfl
    | true => simp [Slot.owns, h rfl]
  rw [Slot.part, hother]
  cases own <;> rfl

theorem part_cons_of_setting (h : k.kind l = .setting) (own : Bool) (ls : List (List Char)) :
    k.part own true (l :: ls) = if own then l :: k.part own true ls else k.part own true ls := by
  have hown : k.owns true l = true := by simp [Slot.owns, h]
  have hgoes : k.goesOn true l = true := by simp [Slot.goesOn, h]
  rw [Slot.part, hown, hgoes]
  cases own <;> rfl

/-- Terminators make no difference to which lines are which. -/
theorem part_map_terminated (k : Slot) (own inside : Bool) (ls : List (List Char)) :
    k.part own inside (ls.map Text.terminated) = (k.part own inside ls).map Text.terminated := by
  induction ls generalizing inside with
  | nil => rfl
  | cons l ls ih =>
    have howns : k.owns inside (Text.terminated l) = k.owns inside l := by simp [Slot.owns]
    have hgoes : k.goesOn inside (Text.terminated l) = k.goesOn inside l := by simp [Slot.goesOn]
    rw [List.map_cons, Slot.part, Slot.part, howns, hgoes, ih]
    split <;> rfl

end Parts

section Editing

variable (u : Update)

/-- A line that ends a block is none of those that set the key, and what follows is outside. -/
theorem part_cons_of_ending {l : List Char} (h : u.kind l = .header ∨ u.kind l = .blank)
    (own : Bool) (ls : List (List Char)) : u.part own true (l :: ls) =
      if own then u.part own false ls else l :: u.part own false ls := by
  have hgoes : u.goesOn true l = false := by rcases h with h | h <;> simp [Slot.goesOn, h]
  rw [part_cons_of_other (by rcases h with h | h <;> simp [h]), hgoes]

/-- The lines that set the key are entries after an update. There are as many as before, or one
more, which is so only if the entry had not been written. -/
theorem part_true_edit (s : Progress) (ls : List (List Char)) :
    (∀ l ∈ u.part true s.inside (u.edit s ls), l = u.entry) ∧
      ∃ n, (u.part true s.inside (u.edit s ls)).length =
        (u.part true s.inside ls).length + n ∧ n ≤ 1 ∧ (s.written = true → n = 0) ∧
          (s.written = false → 0 < (u.part true s.inside ls).length + n) := by
  induction ls generalizing s with
  | nil =>
    obtain ⟨inside, written⟩ := s
    cases written <;> cases inside <;>
      simp [Update.edit, Slot.part, Slot.owns, Slot.goesOn]
  | cons l ls ih =>
    rw [Update.edit]
    rcases step_cases u s l with ⟨hl, -, hs⟩ | ⟨hi, hl, hs⟩ | ⟨rfl, hl, hs⟩
    · rw [hs, List.singleton_append, part_cons_of_other hl, part_cons_of_other hl]
      exact ih ⟨u.goesOn s.inside l, s.written⟩
    · obtain ⟨hentry, n, hn, -, hzero, -⟩ := ih ⟨true, true⟩
      obtain rfl := hzero rfl
      rw [hs, hi, List.singleton_append, part_cons_of_setting (kind_entry_self u),
        part_cons_of_setting hl]
      refine ⟨List.forall_mem_cons.2 ⟨rfl, hentry⟩, 0, ?_, by simp, by simp, by simp⟩
      simpa using hn
    · obtain ⟨hentry, n, hn, -, hzero, -⟩ := ih ⟨false, true⟩
      obtain rfl := hzero rfl
      rw [hs, List.cons_append, List.singleton_append, part_cons_of_setting (kind_entry_self u),
        part_cons_of_ending u hl, part_cons_of_ending u hl]
      refine ⟨List.forall_mem_cons.2 ⟨rfl, hentry⟩, 1, ?_, by simp, by simp, by simp⟩
      simpa using hn

theorem opener_of_begun {s : Progress} (h : s.inside = true ∨ s.written = true)
    (ls : List (List Char)) : u.opener s ls = [] :=
  if_pos (by tauto)

/-- A line that a step keeps leaves it open whether a header has to be added. -/
theorem opener_cons {s : Progress} {l : List Char} (h : s = ⟨true, false⟩ → u.goesOn true l = true)
    (ls : List (List Char)) :
    u.opener s (l :: ls) = u.opener ⟨u.goesOn s.inside l, s.written⟩ ls := by
  obtain ⟨inside, written⟩ := s
  cases written with
  | true => rw [opener_of_begun u (Or.inr rfl), opener_of_begun u (Or.inr rfl)]
  | false =>
    cases inside with
    | true => rw [opener_of_begun u (Or.inl rfl), opener_of_begun u (Or.inl (h rfl))]
    | false =>
      have hgoes : u.goesOn false l = true ↔ u.kind l = .opening := by
        cases hl : u.kind l <;> simp [Slot.goesOn, hl]
      simp [Update.opener, hgoes]

theorem part_false_edit (s : Progress) (ls : List (List Char)) :
    u.part false s.inside (u.edit s ls) = u.part false s.inside ls ++ u.opener s ls := by
  induction ls generalizing s with
  | nil =>
    obtain ⟨inside, written⟩ := s
    cases written <;> cases inside <;>
      simp [Update.edit, Update.opener, Slot.part, Slot.owns, Slot.goesOn]
  | cons l ls ih =>
    rw [Update.edit]
    rcases step_cases u s l with ⟨hl, hg, hs⟩ | ⟨hi, hl, hs⟩ | ⟨rfl, hl, hs⟩
    · have hrest := ih ⟨u.goesOn s.inside l, s.written⟩
      rw [hs, List.singleton_append, part_cons_of_other hl, part_cons_of_other hl, hrest,
        opener_cons u hg]
      rfl
    · have hrest := ih ⟨true, true⟩
      rw [opener_of_begun u (Or.inr rfl)] at hrest
      rw [hs, hi, List.singleton_append, part_cons_of_setting (kind_entry_self u),
        part_cons_of_setting hl, hrest, opener_of_begun u (Or.inl hi)]
      rfl
    · have hrest := ih ⟨false, true⟩
      rw [opener_of_begun u (Or.inr rfl)] at hrest
      rw [hs, List.cons_append, List.singleton_append, part_cons_of_setting (kind_entry_self u),
        part_cons_of_ending u hl, part_cons_of_ending u hl, hrest, opener_of_begun u (Or.inl rfl)]
      rfl

/-- The lines after an update are those of the pass, or the same with all of them terminated. -/
theorem spans_apply_cases (hu : '\n' ∉ u.sec) (text : List Char) :
    let lines := u.edit ⟨false, false⟩ (Text.spans text)
    Text.spans (u.apply text) = lines ∨ Text.spans (u.apply text) = lines.map Text.terminated := by
  intro lines
  rw [spans_apply u hu]
  cases hw : (editLines u.sec u.key u.value ⟨false, false⟩ (Text.spans text)).2.written with
  | true => exact Or.inl (closed_edit u hw (Text.closed_spans text))
  | false =>
    -- nothing has been changed, and the entry goes to the end
    obtain ⟨-, -, he⟩ := editLines_of_unwritten u hw
    obtain ⟨front, hfront⟩ : ∃ front, lines = front ++ [u.entry] := by
      rw [show lines = _ from he, Update.ending, hw]
      cases (editLines u.sec u.key u.value ⟨false, false⟩ (Text.spans text)).2.inside with
      | true => exact ⟨Text.spans text, rfl⟩
      | false => exact ⟨Text.spans text ++ [['\n'], heading u.sec], by simp⟩
    refine Or.inr ?_
    change Text.closed lines = _
    rw [hfront, Text.closed_concat (getLast?_entry u)]

end Editing

/-- An update touches the lines that set its key in a block of its section and no other. Those are
entries after it, at least one and at most one more than before. All others are left in their
order, with a terminator for the last one if it needs one, and with a blank line and a header
behind them if there was no header of the section. -/
theorem apply_own_lines (u : Update) (hu : '\n' ∉ u.sec) (text : List Char) :
    let own := fun t => u.part true false (Text.spans t)
    let others := fun t => u.part false false (Text.spans t)
    let kept := others text ++
      if ∃ l ∈ Text.spans text, u.kind l = .opening then [] else [['\n'], heading u.sec]
    (∀ l ∈ own (u.apply text), l = u.entry) ∧
      0 < (own (u.apply text)).length ∧
      (own text).length ≤ (own (u.apply text)).length ∧
      (own (u.apply text)).length ≤ (own text).length + 1 ∧
      (others (u.apply text) = kept ∨ others (u.apply text) = kept.map Text.terminated) := by
  intro own others kept
  obtain ⟨hentry, n, hlength, hn, -, hpos⟩ := part_true_edit u ⟨false, false⟩ (Text.spans text)
  have hopener : u.opener ⟨false, false⟩ (Text.spans text) =
      if ∃ l ∈ Text.spans text, u.kind l = .opening then [] else [['\n'], heading u.sec] := by
    simp [Update.opener]
  have hothers : u.part false false (u.edit ⟨false, false⟩ (Text.spans text)) = kept := by
    rw [part_false_edit u ⟨false, false⟩, hopener]
  have hpart : own (u.apply text) = u.part true false (u.edit ⟨false, false⟩ (Text.spans text)) ∧
      (others (u.apply text) = kept ∨ others (u.apply text) = kept.map Text.terminated) := by
    rcases spans_apply_cases u hu text with hlines | hlines
    · simp only [own, others, hlines, hothers, true_or, and_self]
    · have hended : ∀ l ∈ u.part true false (u.edit ⟨false, false⟩ (Text.spans text)),
          Text.terminated l = l := by
        intro l hl
        rw [hentry l hl, Text.terminated_of_ended (getLast?_entry u)]
      simp only [own, others, hlines, part_map_terminated, hothers, or_true, and_true]
      rw [List.map_congr_left hended, List.map_id']
  have hown : own text = u.part true false (Text.spans text) := rfl
  have hcount := hpos rfl
  dsimp only at hlength
  rw [hpart.1, hlength, hown]
  exact ⟨hentry, hcount, Nat.le_add_right _ n, Nat.add_le_add_left hn _, hpart.2⟩

/-- Two blocks that set the key, with a comment, a blank line and an unterminated line. -/
theorem apply_own_lines_two_blocks :
    let u : Update := { sec := "a".toList, key := "x".toList, value := some "5".toList }
    let text := "[a]\r\n# x=0\nx = 1\r\n\nx=2\n[b]\nx=3\n[a]\ny\nx\n[a] z\nw".toList
    let own := fun t => u.part true false (Text.spans t)
    let others := fun t => u.part false false (Text.spans t)
    '\n' ∉ u.sec ∧ own text = ["x = 1\r\n".toList, "x\n".toList] ∧
      (∀ l ∈ own (u.apply text), l = "x=5\n".toList) ∧
      2 ≤ (own (u.apply text)).length ∧ (own (u.apply text)).length ≤ 3 ∧
      (others (u.apply text) = others text ∨
        others (u.apply text) = (others text).map Text.terminated) := by
  intro u text own others
  have h := apply_own_lines u (by decide) text
  have hown : own text = ["x = 1\r\n".toList, "x\n".toList] := by decide
  have hentry : u.entry = "x=5\n".toList := by decide
  have hopening : ∃ l ∈ Text.spans text, u.kind l = .opening := by decide
  obtain ⟨h1, -, h2, h3, h4⟩ := h
  rw [if_pos hopening, List.append_nil] at h4
  change (own text).length ≤ _ at h2
  change _ ≤ (own text).length + 1 at h3
  rw [hown] at h2 h3
  exact ⟨by decide, hown, fun l hl => hentry ▸ h1 l hl, h2, h3, h4⟩

end ConanPipeline.Profile
