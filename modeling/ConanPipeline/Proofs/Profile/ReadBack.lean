import ConanPipeline.Proofs.Profile.Edit

/-! Reading after writing. An update never shows at another slot (`get_apply_of_distinct`), and
at its own slot it reads back unless the first block of the section runs straight into a
second header of it (`get_apply_self`). -/

namespace ConanPipeline.Profile

theorem get_apply (u : Update) (hu : '\n' ∉ u.sec) (sec key text : List Char) :
    get sec key (u.apply text) =
      getLines sec key (u.edit ⟨false, false⟩ (Text.spans text)) := by
  rw [get_eq, spans_apply u hu]
  exact getLines_congr (Text.map_trim_closed _)

theorem kind_entry_self (u : Update) : u.kind u.entry = .setting := by simp

section Other

variable (u : Update) {k : Slot} {l : List Char} {ls ls' : List (List Char)}
variable {reading writing : Bool}

/-- Whether a look-up is still in its section after a line that does not end it. -/
def Slot.readsOn (k : Slot) (reading : Bool) (l : List Char) : Bool :=
  match k.kind l with
  | .header => false
  | _ => reading

theorem getInside_cons_congr (h : getInside k.sec k.key (k.readsOn reading l) ls =
      getInside k.sec k.key (k.readsOn reading l) ls') :
    getInside k.sec k.key reading (l :: ls) = getInside k.sec k.key reading (l :: ls') := by
  rw [getInside_cons, getInside_cons]
  cases hk : k.kind l <;> simp only [Slot.readsOn, hk] at h
  case opening => rfl
  case setting => simp only [h]
  all_goals exact h

/-- A writer in a block of its section, and a reader in another section: never both. -/
def Apart (k : Slot) (u : Update) (reading writing : Bool) : Prop :=
  k.sec = u.sec ∨ reading = false ∨ writing = false

theorem apart_of_opening (hk : k.Distinct u.toSlot) (hl : k.kind l = .opening) :
    Apart k u reading (u.goesOn writing l) := by
  by_cases hs : u.sec = k.sec
  · exact Or.inl hs.symm
  · have hu := kind_of_opening hk.right hk.left hl
    exact Or.inr (Or.inr (by simp [Slot.goesOn, hu, hs]))

theorem Apart.next (hk : k.Distinct u.toSlot) (ha : Apart k u reading writing) :
    Apart k u (k.readsOn reading l) (u.goesOn writing l) := by
  cases hu : u.kind l with
  | opening =>
    have hr := kind_of_opening hk.left hk.right hu
    by_cases hs : k.sec = u.sec
    · exact Or.inl hs
    · exact Or.inr (Or.inl (by simp [Slot.readsOn, hr, hs]))
  | header | blank => exact Or.inr (Or.inr (by simp [Slot.goesOn, hu]))
  | setting | plain =>
    rcases ha with hs | hr | hw
    · exact Or.inl hs
    · refine Or.inr (Or.inl ?_)
      rw [Slot.readsOn]
      split <;> simp [hr]
    · exact Or.inr (Or.inr (by simp [Slot.goesOn, hu, hw]))

/-- What a line that the writer may replace is to another slot. -/
theorem kind_of_other (hk : k.Distinct u.toSlot) (ha : Apart k u reading true)
    (hl : u.kind l = .setting) :
    k.kind l = .plain ∨ k.kind l = .setting ∧ reading = false := by
  rw [kind_of_setting (k := u.toSlot) hl]
  by_cases hkey : k.key = u.key
  · have hsec : k.sec ≠ u.sec := fun hsec => hk.ne (by cases k; cases h : u.toSlot; simp_all)
    have hr : reading = false := by simpa [Apart, hsec] using ha
    simp [hkey, hr]
  · simp [hkey]

/-- A look-up passes by a line that sets the key of another slot. -/
theorem getInside_cons_of_setting (hk : k.Distinct u.toSlot) (ha : Apart k u reading true)
    (hl : u.kind l = .setting) :
    getInside k.sec k.key reading (l :: ls) = getInside k.sec k.key reading ls := by
  rw [getInside_cons]
  rcases kind_of_other u hk ha hl with h | ⟨h, rfl⟩ <;> simp [h]

theorem getInside_ending (hk : k.Distinct u.toSlot) {s : Progress} (ha : Apart k u reading s.inside) :
    getInside k.sec k.key reading (u.ending s) = none := by
  have he : ∀ r, Apart k u r true → getInside k.sec k.key r [u.entry] = none := by
    intro r hr
    rw [getInside_cons_of_setting u hk hr (kind_entry_self u)]
    rfl
  rw [Update.ending]
  split
  · rfl
  · split
    · rename_i hi
      exact he reading (by rwa [hi] at ha)
    · simp only [getInside_cons, kind_newline, kind_heading u.toSlot hk.left hk.right]
      by_cases hs : k.sec = u.sec
      · simp [hs]
      · rw [if_neg hs]
        simpa [getInside_cons] using he false (Or.inr (Or.inl rfl))

theorem getInside_edit (hk : k.Distinct u.toSlot) {s : Progress} (ha : Apart k u reading s.inside) :
    getInside k.sec k.key reading (u.edit s ls) = getInside k.sec k.key reading ls := by
  -- a step keeps writer and reader apart, so the reader sees neither a line that is replaced
  -- nor the entry that replaces it
  induction ls generalizing reading s with
  | nil => exact getInside_ending u hk ha
  | cons l ls ih =>
    rw [Update.edit]
    rcases step_cases u s l with ⟨-, -, hs⟩ | ⟨hi, hl, hs⟩ | ⟨rfl, -, hs⟩
    · rw [hs]
      exact getInside_cons_congr (ih (ha.next u hk))
    · rw [hi] at ha
      rw [hs, List.singleton_append, getInside_cons_of_setting u hk ha (kind_entry_self u),
        getInside_cons_of_setting u hk ha hl, ih ha]
    · rw [hs, List.cons_append, getInside_cons_of_setting u hk ha (kind_entry_self u)]
      exact getInside_cons_congr (ih (Or.inr (Or.inr rfl)))

theorem getLines_cons_of_setting (hl : u.kind l = .setting) :
    getLines k.sec k.key (l :: ls) = getLines k.sec k.key ls := by
  rw [getLines_cons, kind_of_setting (k := u.toSlot) hl]
  split <;> simp_all

theorem getLines_ending (hk : k.Distinct u.toSlot) (s : Progress) :
    getLines k.sec k.key (u.ending s) = none := by
  rw [Update.ending]
  split
  · rfl
  · split
    · rw [getLines_cons_of_setting u (kind_entry_self u)]
      rfl
    · simp only [getLines_cons, kind_newline, kind_heading u.toSlot hk.left hk.right]
      by_cases hs : k.sec = u.sec
      · rw [getInside_cons_of_setting u hk (Or.inl hs) (kind_entry_self u)]
        simp [hs, getInside]
      · simp [hs, getLines, getInside]

theorem getLines_edit (hk : k.Distinct u.toSlot) (s : Progress) (ls : List (List Char)) :
    getLines k.sec k.key (u.edit s ls) = getLines k.sec k.key ls := by
  induction ls generalizing s with
  | nil => exact getLines_ending u hk s
  | cons l ls ih =>
    have hkept : ∀ s', (k.kind l = .opening → Apart k u true s'.inside) →
        getLines k.sec k.key (l :: u.edit s' ls) = getLines k.sec k.key (l :: ls) := by
      intro s' ha
      rw [getLines_cons, getLines_cons]
      split
      · rename_i hl
        exact getInside_edit u hk (ha hl)
      · exact ih s'
    rw [Update.edit]
    rcases step_cases u s l with ⟨-, -, hs⟩ | ⟨-, hl, hs⟩ | ⟨rfl, -, hs⟩
    · rw [hs]
      exact hkept _ fun hl => apart_of_opening u hk hl
    · rw [hs, List.singleton_append, getLines_cons_of_setting u (kind_entry_self u),
        getLines_cons_of_setting u hl, ih]
    · rw [hs, List.cons_append, getLines_cons_of_setting u (kind_entry_self u)]
      exact hkept _ fun _ => Or.inr (Or.inr rfl)

/-- No update shows at another slot, whatever the text. -/
theorem get_apply_of_distinct (hk : k.Distinct u.toSlot) (text : List Char) :
    get k.sec k.key (u.apply text) = get k.sec k.key text := by
  rw [get_apply u hk.right.1, getLines_edit u hk, get_eq]

end Other

/-! Reading the slot that was written. -/

/-- After a header: whether lines that neither set the key nor end the block lead to
another header of the section. -/
def Slot.reopens (k : Slot) : List (List Char) → Bool
  | [] => false
  | l :: ls =>
    match k.kind l with
    | .opening => true
    | .plain => k.reopens ls
    | .header | .blank | .setting => false

/-- Whether the first block of the section, before it ends or sets the key, runs into a
second header of the section. -/
def Slot.doubled (k : Slot) : List (List Char) → Bool
  | [] => false
  | l :: ls => if k.kind l = .opening then k.reopens ls else k.doubled ls

section Self

variable (u : Update)

theorem getInside_entry_cons (ls : List (List Char)) :
    getInside u.sec u.key true (u.entry :: ls) = some (Text.trim (u.value.getD [])) := by
  rw [getInside_cons u.toSlot, kind_entry_self, valueOf_entry]
  rfl

theorem getInside_edit_self (ls : List (List Char)) :
    getInside u.sec u.key true (u.edit ⟨true, false⟩ ls) =
      if u.reopens ls then none else some (Text.trim (u.value.getD [])) := by
  induction ls with
  | nil => exact getInside_entry_cons u []
  | cons l ls ih =>
    rw [Update.edit]
    cases hl : u.kind l with
    | opening => simp [Update.step, Slot.reopens, hl, getInside_cons u.toSlot]
    | header | blank | setting =>
      simp [Update.step, Slot.reopens, hl, getInside_entry_cons]
    | plain => simp [Update.step, Slot.reopens, hl, getInside_cons u.toSlot, ih]

theorem getLines_edit_self (ls : List (List Char)) :
    getLines u.sec u.key (u.edit ⟨false, false⟩ ls) =
      if u.doubled ls then none else some (Text.trim (u.value.getD [])) := by
  induction ls with
  | nil => simp [Update.edit, Update.ending, Slot.doubled, getLines_cons u.toSlot,
      getInside_entry_cons]
  | cons l ls ih =>
    rw [Update.edit]
    cases hl : u.kind l with
    | opening =>
      simp [Update.step, Slot.doubled, hl, getLines_cons u.toSlot, getInside_edit_self]
    | header | blank | setting | plain =>
      simp [Update.step, Slot.doubled, hl, getLines_cons u.toSlot, ih]

/-- What a slot reads after it has been written. -/
theorem get_apply_self (hu : '\n' ∉ u.sec) (text : List Char) :
    get u.sec u.key (u.apply text) =
      if u.doubled (Text.spans text) then none else some (Text.trim (u.value.getD [])) := by
  rw [get_apply u hu, getLines_edit_self]

end Self

end ConanPipeline.Profile
