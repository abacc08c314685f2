import ConanPipeline.Proofs.Profile.Line

/-! Setting a key, line by line. `Update.edit` is one pass over the lines of a profile, and
the lines of the text that setting gives are what that pass leaves (`spans_apply`). A step
keeps a line, puts the entry in its place or puts the entry before it (`step_cases`). -/

namespace ConanPipeline.Profile

def Update.apply (u : Update) (text : List Char) : List Char := set u.sec u.key u.value text

/-- Whether a block of the section goes on after a line. -/
def Slot.goesOn (k : Slot) (inside : Bool) (l : List Char) : Bool :=
  match k.kind l with
  | .opening => true
  | .header | .blank => false
  | .setting | .plain => inside

/-- The lines that take the place of one line, and the progress after it. -/
def Update.step (u : Update) (s : Progress) (l : List Char) : List (List Char) × Progress :=
  match u.kind l with
  | .opening => ([l], ⟨true, s.written⟩)
  | .header | .blank =>
    if s.inside && !s.written then ([u.entry, l], ⟨false, true⟩) else ([l], ⟨false, s.written⟩)
  | .setting => if s.inside then ([u.entry], ⟨true, true⟩) else ([l], s)
  | .plain => ([l], s)

/-- What goes after the last line. -/
def Update.ending (u : Update) (s : Progress) : List (List Char) :=
  if s.written then [] else if s.inside then [u.entry] else [['\n'], heading u.sec, u.entry]

def Update.edit (u : Update) : Progress → List (List Char) → List (List Char)
  | s, [] => u.ending s
  | s, l :: ls => (u.step s l).1 ++ u.edit (u.step s l).2 ls

variable (u : Update)

@[simp] theorem ending_of_written (inside : Bool) : u.ending ⟨inside, true⟩ = [] := rfl

@[simp] theorem ending_of_inside : u.ending ⟨true, false⟩ = [u.entry] := rfl

@[simp] theorem ending_of_outside :
    u.ending ⟨false, false⟩ = [['\n'], heading u.sec, u.entry] := rfl

theorem editLine_eq (s : Progress) (l : List Char) :
    editLine u.sec u.key u.value s l = ((u.step s l).1.flatten, (u.step s l).2) := by
  obtain ⟨inside, written⟩ := s
  rcases line_cases l with hl | hl | ⟨hl, hn⟩
  · rw [editLine, Update.step, kind_of_isHeader hl]
    cases opens u.sec (Text.trim l) with
    | true => simp
    | false => cases inside <;> cases written <;> simp [hl, Update.entry]
  · have ho : opens u.sec [] = false := rfl
    rw [editLine, Update.step, kind_of_trim_eq_nil hl, hl]
    cases inside <;> cases written <;> simp [ho, Update.entry]
  · have ho : opens u.sec (Text.trim l) = false := opens_of_isHeader hl
    rw [editLine, Update.step, kind_of_content hl hn]
    cases assigns u.key (Text.trim l) <;> cases inside <;> simp [ho, hl, hn, Update.entry]

/-- What a step can do. The entry replaces a line that sets the key inside a block, and it
goes before the line that ends the first block if no line of the block set the key. -/
theorem step_cases (s : Progress) (l : List Char) :
    ((s.inside = true → u.kind l ≠ .setting) ∧ (s = ⟨true, false⟩ → u.goesOn true l = true) ∧
        u.step s l = ([l], ⟨u.goesOn s.inside l, s.written⟩)) ∨
      (s.inside = true ∧ u.kind l = .setting ∧ u.step s l = ([u.entry], ⟨true, true⟩)) ∨
      (s = ⟨true, false⟩ ∧ (u.kind l = .header ∨ u.kind l = .blank) ∧
        u.step s l = ([u.entry, l], ⟨false, true⟩)) := by
  obtain ⟨inside, written⟩ := s
  cases hk : u.kind l <;> cases inside <;> cases written <;>
    simp [Update.step, Slot.goesOn, hk]

theorem step_inside (s : Progress) (l : List Char) :
    (u.step s l).2.inside = u.goesOn s.inside l := by
  obtain ⟨inside, written⟩ := s
  cases hk : u.kind l <;> cases inside <;> cases written <;> simp [Update.step, Slot.goesOn, hk]

/-- Outside its section an update changes nothing. -/
theorem step_of_outside {l : List Char} (h : u.kind l ≠ .opening) (written : Bool) :
    u.step ⟨false, written⟩ l = ([l], ⟨false, written⟩) := by
  cases hk : u.kind l <;> simp_all [Update.step]

theorem edit_nil_of_written {s : Progress} (h : s.written = true) : u.edit s [] = [] := by
  simp [Update.edit, Update.ending, h]

/-- If the passes over characters and over lines end with the entry written, they agree. -/
theorem editLines_of_written {s : Progress} {ls : List (List Char)}
    (h : (editLines u.sec u.key u.value s ls).2.written = true) :
    (editLines u.sec u.key u.value s ls).1 = (u.edit s ls).flatten := by
  induction ls generalizing s with
  | nil =>
    rw [edit_nil_of_written u (s := s) h]
    rfl
  | cons l ls ih =>
    simp only [editLines, editLine_eq] at h ⊢
    rw [ih h, Update.edit, List.flatten_append]

/-- Otherwise no line has been changed. -/
theorem editLines_of_unwritten {s : Progress} {ls : List (List Char)}
    (h : (editLines u.sec u.key u.value s ls).2.written = false) :
    (editLines u.sec u.key u.value s ls).1 = ls.flatten ∧ s.written = false ∧
      u.edit s ls = ls ++ u.ending (editLines u.sec u.key u.value s ls).2 := by
  induction ls generalizing s with
  | nil => exact ⟨rfl, h, rfl⟩
  | cons l ls ih =>
    simp only [editLines, editLine_eq] at h ⊢
    obtain ⟨h1, h2, h3⟩ := ih h
    rcases step_cases u s l with ⟨-, -, hs⟩ | ⟨-, -, hs⟩ | ⟨-, -, hs⟩
    · rw [Update.edit, h1, h3, hs]
      rw [hs] at h2
      exact ⟨by simp, h2, by simp⟩
    · simp [hs] at h2
    · simp [hs] at h2

/-- With the entry written in time, the lines left are closed as the lines before. -/
theorem closed_edit {s : Progress} {ls : List (List Char)}
    (h : (editLines u.sec u.key u.value s ls).2.written = true) (hc : Text.closed ls = ls) :
    Text.closed (u.edit s ls) = u.edit s ls := by
  -- the last line has a terminator to get only when something goes after it, and with the
  -- entry written nothing does
  induction ls generalizing s with
  | nil =>
    rw [edit_nil_of_written u (s := s) h]
    rfl
  | cons l ls ih =>
    simp only [editLines, editLine_eq] at h
    obtain ⟨hl, hls⟩ := Text.closed_cons_eq_self.1 hc
    have hr := ih h hls
    have hne : u.edit (u.step s l).2 ls ≠ [] → l.getLast? = some '\n' := by
      intro he
      refine hl fun hnil => he ?_
      subst hnil
      exact edit_nil_of_written u h
    rw [Update.edit]
    rcases step_cases u s l with ⟨-, -, hs⟩ | ⟨-, -, hs⟩ | ⟨-, -, hs⟩
    · rw [hs] at hr hne ⊢
      exact Text.closed_cons_eq_self.2 ⟨hne, hr⟩
    · rw [hs] at hr ⊢
      exact Text.closed_cons_eq_self.2 ⟨fun _ => getLast?_entry u, hr⟩
    · rw [hs] at hr hne ⊢
      exact Text.closed_cons_eq_self.2
        ⟨fun _ => getLast?_entry u, Text.closed_cons_eq_self.2 ⟨hne, hr⟩⟩

theorem mem_edit {s : Progress} {ls : List (List Char)} {l : List Char} (h : l ∈ u.edit s ls) :
    l ∈ ls ∨ l = u.entry ∨ l = heading u.sec ∨ l = ['\n'] := by
  induction ls generalizing s with
  | nil =>
    rw [Update.edit, Update.ending] at h
    split at h
    · simp at h
    · split at h <;> simp at h <;> tauto
  | cons l' ls ih =>
    rw [Update.edit, List.mem_append] at h
    rcases h with h | h
    · rcases step_cases u s l' with ⟨-, -, hs⟩ | ⟨-, -, hs⟩ | ⟨-, -, hs⟩ <;>
        simp only [hs, List.mem_cons, List.not_mem_nil, or_false] at h ⊢ <;> tauto
    · rcases ih h with h | h
      · exact Or.inl (List.mem_cons_of_mem _ h)
      · exact Or.inr h

theorem isSpan_of_mem_edit (hu : '\n' ∉ u.sec) {s : Progress} {ls : List (List Char)}
    (h : ∀ l ∈ ls, Text.IsSpan l) : ∀ l ∈ u.edit s ls, Text.IsSpan l := by
  intro l hl
  rcases mem_edit u hl with hl | rfl | rfl | rfl
  · exact h l hl
  · exact isSpan_entry u
  · exact isSpan_heading hu
  · exact ⟨by simp, by simp⟩

theorem flatten_closed_ending {s : Progress} (h : s.written = false) :
    (Text.closed (u.ending s)).flatten =
      (if s.inside then [] else '\n' :: '[' :: u.sec ++ [']', '\n']) ++ u.entry := by
  have hh := Text.terminated_of_ended (getLast?_heading u.sec)
  have hn : Text.terminated ['\n'] = ['\n'] := rfl
  cases hi : s.inside with
  | true => simp [Update.ending, h, hi, Text.closed]
  | false =>
    have he : u.ending s = [['\n'], heading u.sec, u.entry] := by simp [Update.ending, h, hi]
    rw [he, Text.closed, Text.closed, Text.closed, hh, hn]
    simp [heading]

theorem apply_eq (text : List Char) :
    u.apply text = (Text.closed (u.edit ⟨false, false⟩ (Text.spans text))).flatten := by
  rw [Update.apply, set]
  set r := editLines u.sec u.key u.value ⟨false, false⟩ (Text.spans text) with hr
  cases hw : r.2.written with
  | true =>
    rw [closed_edit u hw (Text.closed_spans text), ← editLines_of_written u hw]
    simp [← hr, hw]
  | false =>
    obtain ⟨h1, -, h3⟩ := editLines_of_unwritten u hw
    have hne : u.ending r.2 ≠ [] := by
      cases hi : r.2.inside <;> simp [Update.ending, hw, hi]
    rw [h3, Text.flatten_closed_append Text.isSpan_of_mem_spans (Text.closed_spans text) hne,
      ← h1, flatten_closed_ending u hw]
    simp [← hr, hw, closing, Update.entry]

/-- The lines after an update. -/
theorem spans_apply (hu : '\n' ∉ u.sec) (text : List Char) :
    Text.spans (u.apply text) = Text.closed (u.edit ⟨false, false⟩ (Text.spans text)) := by
  rw [apply_eq]
  exact Text.spans_closed (isSpan_of_mem_edit u hu Text.isSpan_of_mem_spans)

end ConanPipeline.Profile
