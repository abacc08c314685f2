import ConanPipeline.Proofs.Profile.Store

/-! Batches of updates. An update that a text has taken finds nothing more to change
(`settled_edit`), and updates of other slots leave it so (`settled_edit_of_ne`), whatever
the text. So a batch with one update for each slot changes nothing when it is run again. -/

namespace ConanPipeline.Profile

/-- An update finds nothing to change: it keeps every line and adds none. -/
def Update.Settled (u : Update) : Progress → List (List Char) → Prop
  | s, [] => s.written = true
  | s, l :: ls => (u.step s l).1 = [l] ∧ u.Settled (u.step s l).2 ls

section Settled

variable {u v : Update} {s t : Progress} {l : List Char} {ls : List (List Char)}

theorem settled_cons {s' : Progress} (hs : u.step s l = ([l], s')) (h : u.Settled s' ls) :
    u.Settled s (l :: ls) := by
  rw [Update.Settled, hs]
  exact ⟨rfl, h⟩

theorem edit_of_settled (h : u.Settled s ls) : u.edit s ls = ls := by
  induction ls generalizing s with
  | nil => exact edit_nil_of_written u h
  | cons l ls ih => rw [Update.edit, h.1, ih h.2, List.singleton_append]

theorem apply_of_settled {text : List Char} (h : u.Settled ⟨false, false⟩ (Text.spans text)) :
    u.apply text = text := by
  rw [apply_eq, edit_of_settled h, Text.closed_spans, Text.flatten_spans]

theorem step_terminated (h : (u.step s l).1 = [l]) :
    u.step s (Text.terminated l) = ([Text.terminated l], (u.step s l).2) := by
  cases hk : u.kind l with
  | opening | plain => simp [Update.step, hk]
  | header | blank =>
    simp only [Update.step, kind_terminated, hk] at h ⊢
    split at h
    · simp at h
    · rename_i hc
      rw [if_neg hc, if_neg hc]
  | setting =>
    simp only [Update.step, kind_terminated, hk] at h ⊢
    split
    · rename_i hi
      rw [if_pos hi, List.singleton_inj] at h
      rw [← h, Text.terminated_of_ended (getLast?_entry u)]
    · rfl

theorem settled_closed (h : u.Settled s ls) : u.Settled s (Text.closed ls) := by
  induction ls generalizing s with
  | nil => exact h
  | cons l ls ih =>
    cases ls with
    | nil => exact h
    | cons l' ls =>
      obtain ⟨h1, h2⟩ := h
      rw [Text.closed]
      exact settled_cons (step_terminated h1) (ih h2)

theorem step_entry (hi : s.inside = true) : u.step s u.entry = ([u.entry], ⟨true, true⟩) := by
  simp [Update.step, hi]

theorem settled_edit (u : Update) (s : Progress) (ls : List (List Char)) :
    u.Settled s (u.edit s ls) := by
  induction ls generalizing s with
  | nil =>
    obtain ⟨inside, written⟩ := s
    cases written <;> cases inside <;>
      simp [Update.edit, Update.Settled, Update.step]
  | cons l ls ih =>
    rw [Update.edit]
    rcases step_cases u s l with ⟨-, -, hs⟩ | ⟨hi, -, hs⟩ | ⟨rfl, hl, hs⟩
    · rw [hs]
      exact settled_cons hs (ih _)
    · rw [hs]
      exact settled_cons (step_entry hi) (ih _)
    · have hb : u.step ⟨true, true⟩ l = ([l], ⟨false, true⟩) := by
        rcases hl with hl | hl <;> simp [Update.step, hl]
      rw [hs]
      exact settled_cons (step_entry rfl) (settled_cons hb (ih _))

theorem step_of_other (hne : u.toSlot.Distinct v.toSlot) (ha : Apart u.toSlot v s.inside true)
    (hl : v.kind l = .setting) : u.step s l = ([l], s) := by
  rcases kind_of_other v hne ha hl with h | ⟨h, hi⟩
  · simp [Update.step, h]
  · simp [Update.step, h, hi]

theorem Apart.goesOn {k : Slot} {b w : Bool} (hk : k.Distinct v.toSlot) (ha : Apart k v b w) :
    Apart k v (k.goesOn b l) (v.goesOn w l) := by
  cases hl : k.kind l with
  | opening => exact apart_of_opening v hk hl
  | header | blank => exact Or.inr (Or.inl (by simp [Slot.goesOn, hl]))
  | setting | plain => simpa [Slot.goesOn, Slot.readsOn, hl] using ha.next v hk (l := l)

theorem settled_ending (hne : u.toSlot.Distinct v.toSlot) (ha : Apart u.toSlot v s.inside t.inside)
    (h : s.written = true) : u.Settled s (v.ending t) := by
  have hentry : ∀ s' : Progress, s'.written = true → Apart u.toSlot v s'.inside true →
      u.Settled s' [v.entry] := by
    intro s' hw ha'
    exact settled_cons (step_of_other hne ha' (kind_entry_self v)) hw
  obtain ⟨inside, written⟩ := t
  cases written with
  | true => exact h
  | false =>
    cases inside with
    | true => exact hentry s h ha
    | false =>
      have hn : u.step s ['\n'] = ([['\n']], ⟨false, true⟩) := by simp [Update.step, h]
      rw [ending_of_outside]
      refine settled_cons hn ?_
      by_cases hs : u.sec = v.sec
      · have hh : u.step ⟨false, true⟩ (heading v.sec) = ([heading v.sec], ⟨true, true⟩) := by
          simp [Update.step, ← hs]
        exact settled_cons hh (hentry _ rfl (Or.inl hs))
      · have hh : u.step ⟨false, true⟩ (heading v.sec) = ([heading v.sec], ⟨false, true⟩) := by
          simp [Update.step, kind_heading v.toSlot hne.left hne.right, hs]
        exact settled_cons hh (hentry _ rfl (Or.inr (Or.inl rfl)))

theorem settled_edit_of_ne (hne : u.toSlot.Distinct v.toSlot) (ha : Apart u.toSlot v s.inside t.inside)
    (h : u.Settled s ls) : u.Settled s (v.edit t ls) := by
  -- here `u` is the one that reads: where `v` writes, `u` is outside its section or at
  -- another key, and keeps the line
  induction ls generalizing s t with
  | nil => exact settled_ending hne ha h
  | cons l ls ih =>
    obtain ⟨h1, h2⟩ := h
    rw [Update.edit]
    rcases step_cases v t l with ⟨-, -, hs⟩ | ⟨hi, hl, hs⟩ | ⟨rfl, -, hs⟩
    · rw [hs]
      exact ⟨h1, ih (by rw [step_inside]; exact ha.goesOn hne) h2⟩
    · rw [hi] at ha
      rw [step_of_other hne ha hl] at h2
      rw [hs]
      exact settled_cons (step_of_other hne ha (kind_entry_self v)) (ih ha h2)
    · rw [hs]
      exact settled_cons (step_of_other hne ha (kind_entry_self v))
        ⟨h1, ih (Or.inr (Or.inr rfl)) h2⟩

end Settled

/-- The text has taken the update. -/
def Update.Taken (u : Update) (text : List Char) : Prop :=
  u.Settled ⟨false, false⟩ (Text.spans text)

theorem taken_apply (u : Update) (hu : '\n' ∉ u.sec) (text : List Char) :
    u.Taken (u.apply text) := by
  rw [Update.Taken, spans_apply u hu]
  exact settled_closed (settled_edit u _ _)

theorem taken_run {u : Update} {text : List Char} (h : u.Taken text) {us : List Update}
    (hne : ∀ v ∈ us, u.toSlot.Distinct v.toSlot) : u.Taken (run us text) := by
  induction us generalizing text with
  | nil => exact h
  | cons v us ih =>
    rw [List.forall_mem_cons] at hne
    refine ih ?_ hne.2
    rw [Update.Taken, spans_apply v hne.1.right.1]
    exact settled_closed (settled_edit_of_ne hne.1 (Or.inr (Or.inl rfl)) h)

theorem taken_of_mem {us : List Update} (hs : ∀ u ∈ us, IsSection u.sec)
    (h : (us.map Update.toSlot).Nodup) (text : List Char) :
    ∀ u ∈ us, u.Taken (run us text) := by
  induction us generalizing text with
  | nil => simp
  | cons v us ih =>
    rw [List.map_cons, List.nodup_cons] at h
    rw [List.forall_mem_cons] at hs ⊢
    refine ⟨taken_run (taken_apply v hs.1.1 text) fun u hu => ⟨fun he => h.1 ?_, hs.1, hs.2 u hu⟩,
      ih hs.2 h.2 (v.apply text)⟩
    exact List.mem_map.2 ⟨u, hu, he.symm⟩

theorem run_of_taken {us : List Update} {text : List Char} (h : ∀ u ∈ us, u.Taken text) :
    run us text = text := by
  induction us with
  | nil => rfl
  | cons u us ih =>
    rw [List.forall_mem_cons] at h
    rw [run, List.foldl_cons, apply_of_settled h.1]
    exact ih h.2

/-- A batch with one update for each slot changes nothing when it is run again. -/
theorem run_run_of_nodup (us : List Update) (hs : ∀ u ∈ us, IsSection u.sec)
    (h : (us.map Update.toSlot).Nodup) (text : List Char) :
    run us (run us text) = run us text :=
  run_of_taken (taken_of_mem hs h text)

theorem run_run_two_sections :
    let us : List Update := [{ sec := "a".toList, key := "x".toList, value := some "1".toList },
      { sec := "b".toList, key := "x".toList, value := none },
      { sec := "a".toList, key := "y".toList, value := some "2".toList }]
    (∀ u ∈ us, IsSection u.sec) ∧ (us.map Update.toSlot).Nodup ∧
      run us (run us "[a]\n[a]\n\nx=0\r\n[a]\nx".toList) =
        run us "[a]\n[a]\n\nx=0\r\n[a]\nx".toList :=
  ⟨by decide, by decide, run_run_of_nodup _ (by decide) (by decide) _⟩

end ConanPipeline.Profile
