import ConanPipeline.Proofs.Profile.ReadBack

/-! A profile is a store. As long as no section has two headers, a slot reads what was last
written to it, over any run of updates. An update gives a section its first header if it
has none, and never a second one (`headers_apply`). -/

namespace ConanPipeline.Profile

/-- How many of the lines are headers of a section. -/
def headers (sec : List Char) (ls : List (List Char)) : Nat :=
  (ls.map Text.trim).countP (opens sec)

def Unrepeated (text : List Char) : Prop :=
  ∀ sec, IsSection sec → headers sec (Text.spans text) ≤ 1

def run (us : List Update) (text : List Char) : List Char :=
  us.foldl (fun t u => u.apply t) text

/-- The last update of a slot. -/
def lastOf (k : Slot) (us : List Update) : Option Update :=
  us.reverse.find? fun u => u.toSlot = k

/-- The section that a line names as its header. -/
def sectionOf? : List Char → Option (List Char)
  | '[' :: rest => (Text.cutAt ']' rest).map Prod.fst
  | _ => none

section Headers

variable (u : Update) {sec : List Char}

theorem headers_cons (sec l : List Char) (ls : List (List Char)) :
    headers sec (l :: ls) = headers sec ls + if opens sec (Text.trim l) then 1 else 0 := by
  rw [headers, List.map_cons, List.countP_cons]
  rfl

theorem opens_entry : opens sec (Text.trim u.entry) = false := by
  obtain ⟨c, cs, ht, hc⟩ := trim_entry_cons u
  exact opens_of_isHeader (by simp [ht, isHeader, hc])

theorem opens_heading (hs : IsSection sec) (hu : IsSection u.sec) :
    opens sec (Text.trim (heading u.sec)) = decide (sec = u.sec) := by
  have hself := opens_heading_self u.sec
  by_cases h : sec = u.sec
  · simpa [h] using hself
  · simpa [h] using fun ho => h (opens_inj hs hu ho hself)

theorem opens_of_setting {l : List Char} (h : u.kind l = .setting) :
    opens sec (Text.trim l) = false :=
  opens_of_isHeader (kind_eq_setting.1 h).1

/-- Once the section has begun, an update adds no header. -/
theorem headers_edit_of_begun {s : Progress} (h : s.inside = true ∨ s.written = true)
    (ls : List (List Char)) : headers sec (u.edit s ls) = headers sec ls := by
  induction ls generalizing s with
  | nil =>
    rw [Update.edit, Update.ending]
    split
    · rfl
    · simp_all [headers_cons, opens_entry]
  | cons l ls ih =>
    rw [Update.edit]
    rcases step_cases u s l with ⟨-, hg, hs⟩ | ⟨-, hl, hs⟩ | ⟨-, -, hs⟩
    · have hb : u.goesOn s.inside l = true ∨ s.written = true := by
        obtain ⟨inside, written⟩ := s
        cases written <;> simp_all
      rw [hs, List.singleton_append, headers_cons, headers_cons, ih (by exact hb)]
    · rw [hs, List.singleton_append, headers_cons, headers_cons, opens_entry,
        opens_of_setting u hl, ih (Or.inr (by rfl))]
    · rw [hs, List.cons_append, List.singleton_append, headers_cons, headers_cons, headers_cons,
        opens_entry, ih (Or.inr (by rfl))]
      simp

theorem headers_ending (hsec : IsSection sec) (hu : IsSection u.sec) :
    headers sec (u.ending ⟨false, false⟩) = if sec = u.sec then 1 else 0 := by
  have hn : opens sec (Text.trim ['\n']) = false := rfl
  simp only [ending_of_outside, headers_cons, hn, opens_heading u hsec hu, opens_entry,
    decide_eq_true_eq]
  simp [headers]

theorem headers_edit (hsec : IsSection sec) (hu : IsSection u.sec) (ls : List (List Char)) :
    headers sec (u.edit ⟨false, false⟩ ls) =
      if sec = u.sec then max 1 (headers sec ls) else headers sec ls := by
  induction ls with
  | nil =>
    rw [Update.edit, headers_ending u hsec hu]
    rfl
  | cons l ls ih =>
    rw [Update.edit]
    by_cases hl : u.kind l = .opening
    · have ho := kind_eq_opening.1 hl
      simp only [Update.step, hl, List.singleton_append, headers_cons,
        headers_edit_of_begun u (s := ⟨true, false⟩) (Or.inl rfl)]
      by_cases h : sec = u.sec
      · rw [if_pos h, h, ho, if_pos rfl]
        omega
      · rw [if_neg h]
    · have ho : opens u.sec (Text.trim l) = false := by simpa using mt kind_eq_opening.2 hl
      rw [step_of_outside u hl, List.singleton_append, headers_cons, headers_cons, ih]
      by_cases h : sec = u.sec
      · simp [h, ho]
      · rw [if_neg h, if_neg h]

theorem headers_apply (hsec : IsSection sec) (hu : IsSection u.sec) (text : List Char) :
    headers sec (Text.spans (u.apply text)) =
      if sec = u.sec then max 1 (headers sec (Text.spans text))
      else headers sec (Text.spans text) := by
  rw [spans_apply u hu.1, headers, Text.map_trim_closed]
  exact headers_edit u hsec hu _

theorem unrepeated_apply (hu : IsSection u.sec) {text : List Char} (h : Unrepeated text) :
    Unrepeated (u.apply text) := by
  intro sec hsec
  have h1 := h sec hsec
  rw [headers_apply u hsec hu]
  split <;> omega

theorem sectionOf?_of_opens (hsec : IsSection sec) {s : List Char} (h : opens sec s = true) :
    sectionOf? s = some sec := by
  obtain ⟨t, rfl⟩ := opens_iff.1 h
  simp [sectionOf?, Text.cutAt_append hsec.2]

theorem headers_le_count (hsec : IsSection sec) (ls : List (List Char)) :
    headers sec ls ≤ ((ls.map Text.trim).filterMap sectionOf?).count sec := by
  induction ls with
  | nil => exact Nat.le_refl 0
  | cons l ls ih =>
    rw [headers_cons, List.map_cons, List.filterMap_cons]
    split
    · rename_i hl
      rw [sectionOf?_of_opens hsec hl]
      simpa using ih
    · split
      · exact ih
      · exact Nat.le_trans ih List.count_le_count_cons

/-- No section has two headers if no two header lines name the same one. -/
theorem unrepeated_of_nodup {text : List Char}
    (h : (((Text.spans text).map Text.trim).filterMap sectionOf?).Nodup) : Unrepeated text :=
  fun sec hsec => Nat.le_trans (headers_le_count hsec _) (List.nodup_iff_count.1 h sec)

theorem headers_of_reopens {k : Slot} {ls : List (List Char)} (h : k.reopens ls = true) :
    1 ≤ headers k.sec ls := by
  induction ls with
  | nil => simp [Slot.reopens] at h
  | cons l ls ih =>
    rw [headers_cons]
    cases hl : k.kind l with
    | opening =>
      rw [kind_eq_opening.1 hl, if_pos rfl]
      omega
    | plain =>
      have := ih (by simpa [Slot.reopens, hl] using h)
      omega
    | header | blank | setting => simp [Slot.reopens, hl] at h

/-- A section that is doubled has two headers. -/
theorem headers_of_doubled {k : Slot} {ls : List (List Char)} (h : k.doubled ls = true) :
    2 ≤ headers k.sec ls := by
  induction ls with
  | nil => simp [Slot.doubled] at h
  | cons l ls ih =>
    rw [headers_cons]
    rw [Slot.doubled] at h
    split at h
    · rename_i hl
      have := headers_of_reopens h
      rw [kind_eq_opening.1 hl, if_pos rfl]
      omega
    · have := ih h
      omega

theorem get_apply_of_unrepeated (hu : IsSection u.sec) {text : List Char} (h : Unrepeated text) :
    get u.sec u.key (u.apply text) = some (Text.trim (u.value.getD [])) := by
  have hd : ¬ u.doubled (Text.spans text) = true := by
    intro hd
    have h1 := h u.sec hu
    have h2 := headers_of_doubled hd
    omega
  rw [get_apply_self u hu.1, if_neg hd]

end Headers

theorem lastOf_cons (k : Slot) (u : Update) (us : List Update) :
    lastOf k (u :: us) = (lastOf k us).or (if u.toSlot = k then some u else none) := by
  rw [lastOf, List.reverse_cons, List.find?_append]
  by_cases h : u.toSlot = k <;> simp [lastOf, h]

/-- Any run of updates leaves no section with two headers, and every slot reads the value
of its last update, or what it read before if it had none. -/
theorem get_run (text : List Char) (h : Unrepeated text) (us : List Update)
    (hus : ∀ u ∈ us, IsSection u.sec) :
    Unrepeated (run us text) ∧
      ∀ k : Slot, IsSection k.sec → get k.sec k.key (run us text) = match lastOf k us with
        | some u => some (Text.trim (u.value.getD []))
        | none => get k.sec k.key text := by
  induction us generalizing text with
  | nil => exact ⟨h, fun k _ => rfl⟩
  | cons u us ih =>
    rw [List.forall_mem_cons] at hus
    obtain ⟨h1, h2⟩ := ih (u.apply text) (unrepeated_apply u hus.1 h) hus.2
    refine ⟨h1, fun k hsec => ?_⟩
    rw [run, List.foldl_cons, ← run, h2 k hsec, lastOf_cons]
    cases hl : lastOf k us with
    | some v => rfl
    | none =>
      by_cases hk : u.toSlot = k
      · subst hk
        simp [get_apply_of_unrepeated u hsec h]
      · simp [hk, get_apply_of_distinct u ⟨Ne.symm hk, hsec, hus.1⟩]

theorem get_run_mixed :
    Unrepeated "[a]\nx = 1\n\ny=2\r\n[b\n[c]".toList ∧
      get "a".toList "x".toList (run
        [{ sec := "a".toList, key := "x".toList, value := some " 3 ".toList },
          { sec := "c".toList, key := "x".toList, value := none },
          { sec := "a".toList, key := "z".toList, value := some "4".toList }]
        "[a]\nx = 1\n\ny=2\r\n[b\n[c]".toList) = some "3".toList :=
  have h := unrepeated_of_nodup (by decide)
  ⟨h, ((get_run _ h _ (by decide)).2 { sec := "a".toList, key := "x".toList }
    (by decide)).trans (by decide)⟩

end ConanPipeline.Profile
