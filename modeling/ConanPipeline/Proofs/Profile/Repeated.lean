import ConanPipeline.Proofs.Profile.Store

/-! Sections with several headers. A look-up stops at the second one, while an update goes
on past a header of its own section, so a value is written out of sight exactly when the
first header runs on to the second. -/

namespace ConanPipeline.Profile

/-- The first header of the section and the second one have nothing between them that ends
a block or sets the key. -/
def Slot.RunsOn (k : Slot) (ls : List (List Char)) : Prop :=
  ∃ before first between second after, ls = before ++ first :: (between ++ second :: after) ∧
    (∀ l ∈ before, k.kind l ≠ .opening) ∧ k.kind first = .opening ∧
    (∀ l ∈ between, k.kind l = .plain) ∧ k.kind second = .opening

variable {k : Slot} {ls : List (List Char)}

theorem reopens_iff : k.reopens ls = true ↔ ∃ between second after,
    ls = between ++ second :: after ∧ (∀ l ∈ between, k.kind l = .plain) ∧
      k.kind second = .opening := by
  constructor
  · induction ls with
    | nil => simp [Slot.reopens]
    | cons l ls ih =>
      intro h
      cases hl : k.kind l with
      | opening => exact ⟨[], l, ls, rfl, by simp, hl⟩
      | plain =>
        obtain ⟨between, second, after, rfl, hb, hs⟩ := ih (by simpa [Slot.reopens, hl] using h)
        exact ⟨l :: between, second, after, rfl, List.forall_mem_cons.2 ⟨hl, hb⟩, hs⟩
      | header | blank | setting => simp [Slot.reopens, hl] at h
  · rintro ⟨between, second, after, rfl, hb, hs⟩
    induction between with
    | nil => simp [Slot.reopens, hs]
    | cons l between ih =>
      rw [List.forall_mem_cons] at hb
      simpa [Slot.reopens, hb.1] using ih hb.2

theorem doubled_iff : k.doubled ls = true ↔ k.RunsOn ls := by
  constructor
  · induction ls with
    | nil => simp [Slot.doubled]
    | cons l ls ih =>
      intro h
      by_cases hl : k.kind l = .opening
      · obtain ⟨between, second, after, rfl, hb, hs⟩ :=
          reopens_iff.1 (by simpa [Slot.doubled, hl] using h)
        exact ⟨[], l, between, second, after, rfl, by simp, hl, hb, hs⟩
      · obtain ⟨before, first, between, second, after, rfl, hbefore, hrest⟩ :=
          ih (by simpa [Slot.doubled, hl] using h)
        exact ⟨l :: before, first, between, second, after, rfl,
          List.forall_mem_cons.2 ⟨hl, hbefore⟩, hrest⟩
  · rintro ⟨before, first, between, second, after, rfl, hbefore, hf, hb, hs⟩
    induction before with
    | nil => simpa [Slot.doubled, hf] using reopens_iff.2 ⟨between, second, after, rfl, hb, hs⟩
    | cons l before ih =>
      rw [List.forall_mem_cons] at hbefore
      simpa [Slot.doubled, hbefore.1] using ih hbefore.2

instance (k : Slot) (ls : List (List Char)) : Decidable (k.RunsOn ls) :=
  decidable_of_iff _ doubled_iff

theorem newline_of_headers {sec text : List Char} (h : 0 < headers sec (Text.spans text)) :
    '\n' ∉ sec := by
  rw [headers, List.countP_pos_iff] at h
  obtain ⟨s, hs, ho⟩ := h
  obtain ⟨l, hl, rfl⟩ := List.mem_map.1 hs
  exact newline_of_opens (Text.isSpan_of_mem_spans l hl) ho

/-- A value just written to a section that had headers is read back unless the first one
runs on to the second, and then nothing is read. -/
theorem get_apply_repeated (u : Update) (text : List Char)
    (hn : 0 < headers u.sec (Text.spans text)) :
    (¬ u.RunsOn (Text.spans text) →
      get u.sec u.key (u.apply text) = some (Text.trim (u.value.getD []))) ∧
      (u.RunsOn (Text.spans text) → get u.sec u.key (u.apply text) = none) := by
  rw [get_apply_self u (newline_of_headers hn), ← doubled_iff]
  constructor
  · intro h
    rw [if_neg h]
  · intro h
    rw [if_pos h]

theorem get_apply_blank_between :
    headers "a]b".toList (Text.spans "[a]b]\n# x\n\n[a]b]\nx=0".toList) = 2 ∧
      get "a]b".toList "x".toList (set "a]b".toList "x".toList (some " 1".toList)
        "[a]b]\n# x\n\n[a]b]\nx=0".toList) = some "1".toList ∧
      get "a]b".toList "x".toList (set "a]b".toList "x".toList (some " 1".toList)
        "[a]b]\n# x\n[a]b]\nx=0".toList) = none :=
  let u : Update := { sec := "a]b".toList, key := "x".toList, value := some " 1".toList }
  ⟨by decide, (get_apply_repeated u _ (by decide)).1 (by decide),
    (get_apply_repeated u _ (by decide)).2 (by decide)⟩

/-- Two headers in a row: the value goes below the second, where no look-up comes. -/
theorem get_apply_two_headers :
    headers "s".toList (Text.spans "[s]\n[s]\n".toList) = 2 ∧
      set "s".toList "a".toList (some "1".toList) "[s]\n[s]\n".toList =
        "[s]\n[s]\na=1\n".toList ∧
      get "s".toList "a".toList "[s]\n[s]\na=1\n".toList ≠ some "1".toList := by
  decide

end ConanPipeline.Profile
