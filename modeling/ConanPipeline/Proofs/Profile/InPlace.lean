import ConanPipeline.Proofs.Profile.Store
import Mathlib.Data.List.Forall2

/-! Rewriting in place. A section is over at a blank line, and an update keeps to that. A look-up
should, and does not: it reads on past one. So the line that a look-up finds is the one that an
update rewrites when no blank line stands between it and the header (`apply_in_place`), and
otherwise it stays, and the entry goes on a line of its own (`length_apply_below_blank`). -/

namespace ConanPipeline.Profile

/-- The line that a look-up of the slot takes its value from, with what stands around it:
the first header of the section and, before another header, the first line that sets the key. -/
structure Found (k : Slot) (ls before : List (List Char)) (first : List Char)
    (between : List (List Char)) (line : List Char) (after : List (List Char)) : Prop where
  lines : ls = before ++ first :: (between ++ line :: after)
  unopened : ∀ l ∈ before, k.kind l ≠ .opening
  opening : k.kind first = .opening
  unset : ∀ l ∈ between, k.kind l = .blank ∨ k.kind l = .plain
  setting : k.kind line = .setting

/-- The lines up to the next header or blank line. -/
def Slot.block (k : Slot) (ls : List (List Char)) : List (List Char) :=
  ls.takeWhile fun l => k.kind l = .setting ∨ k.kind l = .plain

theorem block_cons {k : Slot} {l : List Char} (h : k.kind l = .setting ∨ k.kind l = .plain)
    (ls : List (List Char)) : k.block (l :: ls) = l :: k.block ls :=
  List.takeWhile_cons_of_pos (by simpa using h)

theorem block_append {k : Slot} {between : List (List Char)} (h : ∀ l ∈ between, k.kind l = .plain)
    (ls : List (List Char)) : k.block (between ++ ls) = between ++ k.block ls :=
  List.takeWhile_append_of_pos fun l hl => by simp [h l hl]

section Finding

variable {k : Slot} {ls : List (List Char)} {v : List Char}

theorem Found.newline {text : List Char} {before between after : List (List Char)}
    {first line : List Char} (h : Found k (Text.spans text) before first between line after) :
    '\n' ∉ k.sec := by
  have hfirst : first ∈ Text.spans text := by
    rw [h.lines]
    simp
  exact newline_of_opens (Text.isSpan_of_mem_spans first hfirst) (kind_eq_opening.1 h.opening)

theorem getInside_false (k : Slot) (ls : List (List Char)) :
    getInside k.sec k.key false ls = none := by
  induction ls with
  | nil => rfl
  | cons l ls ih =>
    rw [getInside_cons]
    split <;> simp [ih]

theorem split_of_getInside (h : getInside k.sec k.key true ls = some v) :
    ∃ between line after, ls = between ++ line :: after ∧
      (∀ l ∈ between, k.kind l = .blank ∨ k.kind l = .plain) ∧
      k.kind line = .setting ∧ valueOf line = v := by
  induction ls with
  | nil => simp [getInside] at h
  | cons l ls ih =>
    rw [getInside_cons] at h
    cases hl : k.kind l with
    | opening => simp [hl] at h
    | header => simp [hl, getInside_false] at h
    | setting => exact ⟨[], l, ls, rfl, by simp, hl, by simpa [hl] using h⟩
    | blank | plain =>
      obtain ⟨between, line, after, rfl, hb, hline, hv⟩ := ih (by simpa [hl] using h)
      exact ⟨l :: between, line, after, rfl,
        List.forall_mem_cons.2 ⟨by simp [hl], hb⟩, hline, hv⟩

/-- A value that is looked up comes from a line. -/
theorem exists_found {text : List Char} (h : get k.sec k.key text = some v) :
    ∃ before first between line after,
      Found k (Text.spans text) before first between line after ∧ valueOf line = v := by
  rw [get_eq] at h
  generalize Text.spans text = ls at h
  induction ls with
  | nil => simp [getLines] at h
  | cons l ls ih =>
    rw [getLines_cons] at h
    split at h
    · rename_i hl
      obtain ⟨between, line, after, rfl, hb, hline, hv⟩ := split_of_getInside h
      exact ⟨[], l, between, line, after, ⟨rfl, by simp, hl, hb, hline⟩, hv⟩
    · rename_i hl
      obtain ⟨before, first, between, line, after, hf, hv⟩ := ih h
      exact ⟨l :: before, first, between, line, after,
        ⟨by rw [hf.lines]; rfl, List.forall_mem_cons.2 ⟨hl, hf.unopened⟩, hf.opening, hf.unset,
          hf.setting⟩, hv⟩

end Finding

section Editing

variable (u : Update)

theorem edit_append_of_outside {before : List (List Char)}
    (h : ∀ l ∈ before, u.kind l ≠ .opening) (written : Bool) (ls : List (List Char)) :
    u.edit ⟨false, written⟩ (before ++ ls) = before ++ u.edit ⟨false, written⟩ ls := by
  induction before with
  | nil => rfl
  | cons l before ih =>
    rw [List.forall_mem_cons] at h
    rw [List.cons_append, Update.edit, step_of_outside u h.1, ih h.2]
    rfl

theorem edit_append_of_plain {between : List (List Char)} (h : ∀ l ∈ between, u.kind l = .plain)
    (s : Progress) (ls : List (List Char)) :
    u.edit s (between ++ ls) = between ++ u.edit s ls := by
  induction between with
  | nil => rfl
  | cons l between ih =>
    rw [List.forall_mem_cons] at h
    have hs : u.step s l = ([l], s) := by simp [Update.step, h.1]
    rw [List.cons_append, Update.edit, hs, ih h.2]
    rfl

/-- Lines that set the key may be replaced by the entry, and no line is added. -/
def Update.Replaces (u : Update) : List (List Char) → List (List Char) → Prop :=
  List.Forall₂ fun l l' => l' = l ∨ u.kind l = .setting ∧ l' = u.entry

/-- After the entry has been written, lines are kept or replaced, one for one. -/
theorem replaces_edit (inside : Bool) (ls : List (List Char)) :
    u.Replaces ls (u.edit ⟨inside, true⟩ ls) := by
  induction ls generalizing inside with
  | nil => exact List.Forall₂.nil
  | cons l ls ih =>
    rw [Update.edit]
    rcases step_cases u ⟨inside, true⟩ l with ⟨-, -, hs⟩ | ⟨-, hl, hs⟩ | ⟨hp, -, -⟩
    · rw [hs]
      exact List.Forall₂.cons (Or.inl rfl) (ih _)
    · rw [hs]
      exact List.Forall₂.cons (Or.inr ⟨hl, rfl⟩) (ih _)
    · simp at hp

/-- In a block that the update has gone through, the key is set to the new value only. -/
theorem eq_entry_of_mem_block {ls : List (List Char)} :
    ∀ l ∈ u.block (u.edit ⟨true, true⟩ ls), u.kind l = .setting → l = u.entry := by
  induction ls with
  | nil => simp [Update.edit, Slot.block]
  | cons l ls ih =>
    rw [Update.edit]
    cases hl : u.kind l with
    | opening | header | blank => simp [Update.step, Slot.block, hl]
    | setting =>
      have hs : u.step ⟨true, true⟩ l = ([u.entry], ⟨true, true⟩) := by simp [Update.step, hl]
      rw [hs, List.singleton_append, block_cons (Or.inl (kind_entry_self u)), List.forall_mem_cons]
      exact ⟨fun _ => rfl, ih⟩
    | plain =>
      have hs : u.step ⟨true, true⟩ l = ([l], ⟨true, true⟩) := by simp [Update.step, hl]
      rw [hs, List.singleton_append, block_cons (Or.inr hl), List.forall_mem_cons]
      exact ⟨fun h => by simp [hl] at h, ih⟩

/-- What the pass leaves where a look-up finds a line with no blank line above it. -/
theorem edit_of_found {ls before between after : List (List Char)} {first line : List Char}
    (h : Found u.toSlot ls before first between line after)
    (hb : ∀ l ∈ between, u.kind l = .plain) :
    u.edit ⟨false, false⟩ ls =
      before ++ first :: (between ++ u.entry :: u.edit ⟨true, true⟩ after) := by
  have hfirst : u.step ⟨false, false⟩ first = ([first], ⟨true, false⟩) := by
    simp [Update.step, h.opening]
  have hline : u.step ⟨true, false⟩ line = ([u.entry], ⟨true, true⟩) := by
    simp [Update.step, h.setting]
  rw [h.lines, edit_append_of_outside u h.unopened, Update.edit, hfirst, List.singleton_append,
    edit_append_of_plain u hb, Update.edit, hline, List.singleton_append]

theorem eq_entry_of_mem_block_append {between : List (List Char)}
    (hb : ∀ l ∈ between, u.kind l = .plain) (ls : List (List Char)) :
    ∀ l ∈ u.block (between ++ u.entry :: u.edit ⟨true, true⟩ ls),
      u.kind l = .setting → l = u.entry := by
  intro l hl hs
  rw [block_append hb, block_cons (Or.inl (kind_entry_self u)), List.mem_append,
    List.mem_cons] at hl
  rcases hl with hl | rfl | hl
  · simp [hb l hl] at hs
  · rfl
  · exact eq_entry_of_mem_block u l hl hs

theorem length_edit_below_blank {between : List (List Char)}
    (h : ∀ l ∈ between, u.kind l = .blank ∨ u.kind l = .plain)
    (hb : ∃ l ∈ between, u.kind l = .blank) (ls : List (List Char)) :
    (u.edit ⟨true, false⟩ (between ++ ls)).length = (between ++ ls).length + 1 := by
  induction between with
  | nil =>
    obtain ⟨l, hl, -⟩ := hb
    cases hl
  | cons l between ih =>
    rw [List.forall_mem_cons] at h
    rw [List.cons_append, Update.edit]
    rcases h.1 with hl | hl
    · have hs : u.step ⟨true, false⟩ l = ([u.entry, l], ⟨false, true⟩) := by
        simp [Update.step, hl]
      have hr := (replaces_edit u false (between ++ ls)).length_eq
      rw [hs, List.length_append, ← hr]
      simp only [List.length_cons, List.length_nil]
      omega
    · have hs : u.step ⟨true, false⟩ l = ([l], ⟨true, false⟩) := by simp [Update.step, hl]
      have hb' : ∃ l ∈ between, u.kind l = .blank := by
        obtain ⟨l', hl', hk⟩ := hb
        rcases List.mem_cons.1 hl' with rfl | hl'
        · rw [hl] at hk
          cases hk
        · exact ⟨l', hl', hk⟩
      rw [hs, List.singleton_append, List.length_cons, List.length_cons, ih h.2 hb']

/-- Where a look-up finds a line below a blank one, an update adds a line. -/
theorem length_apply_below_blank {text : List Char} {before between after : List (List Char)}
    {first line : List Char} (h : Found u.toSlot (Text.spans text) before first between line after)
    (hb : ∃ l ∈ between, u.kind l = .blank) :
    (Text.spans (u.apply text)).length = (Text.spans text).length + 1 := by
  have hfirst : u.step ⟨false, false⟩ first = ([first], ⟨true, false⟩) := by
    simp [Update.step, h.opening]
  have hl := length_edit_below_blank u h.unset hb (line :: after)
  rw [spans_apply u h.newline, Text.length_closed, h.lines, edit_append_of_outside u h.unopened, Update.edit,
    hfirst, List.singleton_append, List.length_append, List.length_append, List.length_cons,
    List.length_cons, hl]
  omega

/-- An update that adds no line leaves all terminators as they are. -/
theorem spans_apply_of_length (hu : '\n' ∉ u.sec) {text : List Char}
    (h : (u.edit ⟨false, false⟩ (Text.spans text)).length = (Text.spans text).length) :
    Text.spans (u.apply text) = u.edit ⟨false, false⟩ (Text.spans text) := by
  rw [spans_apply u hu]
  cases hw : (editLines u.sec u.key u.value ⟨false, false⟩ (Text.spans text)).2.written with
  | true => exact closed_edit u hw (Text.closed_spans text)
  | false =>
    obtain ⟨-, -, he⟩ := editLines_of_unwritten u hw
    rw [he, List.length_append] at h
    have hn : u.ending (editLines u.sec u.key u.value ⟨false, false⟩ (Text.spans text)).2 = [] :=
      List.eq_nil_of_length_eq_zero (by omega)
    rw [he, hn, List.append_nil, Text.closed_spans]

end Editing

/-- The update rewrites a line where it is and adds none, and then no line from the header
to the next header or blank line sets the key to anything else. -/
def Update.Rewrites (u : Update) (text : List Char) (before : List (List Char))
    (first : List Char) (between after : List (List Char)) : Prop :=
  ∃ after', Text.spans (u.apply text) = before ++ first :: (between ++ u.entry :: after') ∧
    u.Replaces after after' ∧
    (Text.spans (u.apply text)).length = (Text.spans text).length ∧
    ∀ l ∈ u.block (between ++ u.entry :: after'), u.kind l = .setting → l = u.entry

/-- The line that a look-up finds is rewritten where it is if no blank line stands between
it and the header. -/
theorem apply_in_place (u : Update) {text v : List Char} (h : get u.sec u.key text = some v) :
    ∃ before first between line after,
      Found u.toSlot (Text.spans text) before first between line after ∧ valueOf line = v ∧
        ((∀ l ∈ between, u.kind l ≠ .blank) → u.Rewrites text before first between after) := by
  obtain ⟨before, first, between, line, after, hf, hv⟩ := exists_found (k := u.toSlot) h
  refine ⟨before, first, between, line, after, hf, hv, fun hb => ?_⟩
  have hplain : ∀ l ∈ between, u.kind l = .plain := fun l hl =>
    (hf.unset l hl).resolve_left (hb l hl)
  have hedit := edit_of_found u hf hplain
  have hr := replaces_edit u true after
  have hlen : (u.edit ⟨false, false⟩ (Text.spans text)).length = (Text.spans text).length := by
    rw [hedit, hf.lines]
    simp [← hr.length_eq]
  rw [Update.Rewrites, spans_apply_of_length u hf.newline hlen]
  exact ⟨u.edit ⟨true, true⟩ after, hedit, hr, hlen, eq_entry_of_mem_block_append u hplain after⟩

theorem apply_in_place_below_comment :
    let u : Update := { sec := "a".toList, key := "x".toList, value := some "5".toList }
    let text := "[b]\nx=0\n[a]\r\n# x=2\nx = 1\nx=2\n\nx=3".toList
    get u.sec u.key text = some "1".toList ∧ ∃ before first between line after,
      Found u.toSlot (Text.spans text) before first between line after ∧
        valueOf line = "1".toList ∧
        ((∀ l ∈ between, u.kind l ≠ .blank) → u.Rewrites text before first between after) :=
  ⟨by decide, apply_in_place { sec := "a".toList, key := "x".toList, value := some "5".toList }
    (by decide)⟩

/-- A comment above the line is kept, and so is what stands below a blank line. -/
example : set "a".toList "x".toList (some "5".toList)
    "[b]\nx=0\n[a]\r\n# x=2\nx = 1\nx=2\n\nx=3".toList =
      "[b]\nx=0\n[a]\r\n# x=2\nx=5\nx=5\n\nx=3".toList := by
  decide

/-- Below a blank line a look-up finds a line that an update does not rewrite, and a line
that sets the key stays as it was. -/
theorem not_in_place_below_blank :
    headers "s".toList (Text.spans "[s]\n\na=1\n".toList) = 1 ∧
      get "s".toList "a".toList "[s]\n\na=1\n".toList = some "1".toList ∧
      set "s".toList "a".toList (some "2".toList) "[s]\n\na=1\n".toList =
        "[s]\na=2\n\na=1\n".toList ∧
      set "s".toList "a".toList (some "3".toList) "[s]\na=1\n\na=2\n".toList =
        "[s]\na=3\n\na=2\n".toList := by
  decide

end ConanPipeline.Profile
