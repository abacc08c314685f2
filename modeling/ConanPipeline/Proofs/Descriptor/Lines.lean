import ConanPipeline.Proofs.Descriptor.Store

/-! Setting an attribute, line by line. A line ends at `\n`, `\r\n` or a lone `\r`, and a call
changes the first line that assigns the attribute and nothing else (`set?_lines`), whatever
characters the attribute is made of. -/

namespace ConanPipeline.Descriptor

/-- A line and what ends it, which is nothing where the text ends. -/
structure Line where
  content : List Char
  ending : List Char
  deriving DecidableEq, Repr

/-- The lines of a text. -/
def lines : List Char → List Line
  | [] => []
  | '\r' :: '\n' :: cs => ⟨[], ['\r', '\n']⟩ :: lines cs
  | c :: cs =>
    if isLineEnd c then ⟨[], [c]⟩ :: lines cs
    else match lines cs with
      | [] => [⟨[c], []⟩]
      | l :: ls => ⟨c :: l.content, l.ending⟩ :: ls

/-- The text that lines make up. -/
def textOf (ls : List Line) : List Char := ls.flatMap fun l => l.content ++ l.ending

/-- The line is spaces, the attribute, spaces, `=` and a value of at least one character. -/
structure Line.Assigns (l : Line) (attr indent value : List Char) : Prop where
  content_eq : ∃ gap, (∀ c ∈ gap, isSpace c = true) ∧
    l.content = indent ++ (attr ++ (gap ++ '=' :: value))
  indent : ∀ c ∈ indent, isSpace c = true
  value_ne : value ≠ []

/-- What ends a line in front of a text. A `\r` takes the `\n` behind it with it. -/
inductive Ends : List Char → List Char → Prop
  | newline (cs) : Ends ['\n'] cs
  | both (cs) : Ends ['\r', '\n'] cs
  | lone {cs} (h : cs.head? ≠ some '\n') : Ends ['\r'] cs

section Lines

variable {content ending cs : List Char}

theorem lines_lineEnd (h : Ends ending cs) : lines (ending ++ cs) = ⟨[], ending⟩ :: lines cs := by
  cases h with
  | newline => rfl
  | both => rfl
  | lone h =>
    cases cs with
    | nil => rfl
    | cons c cs =>
      have hc : c ≠ '\n' := by simpa using h
      rw [List.singleton_append, lines]
      · rfl
      · simpa using hc

theorem lines_cons {c : Char} (hc : isLineEnd c = false) (cs : List Char) :
    lines (c :: cs) = match lines cs with
      | [] => [⟨[c], []⟩]
      | l :: ls => ⟨c :: l.content, l.ending⟩ :: ls := by
  have hr : c ≠ '\r' := by
    rintro rfl
    cases hc
  rw [lines, hc]
  · rfl
  · exact fun _ h => absurd h hr

theorem lines_ended (hl : ∀ c ∈ content, isLineEnd c = false) (h : Ends ending cs) :
    lines (content ++ (ending ++ cs)) = ⟨content, ending⟩ :: lines cs := by
  induction content with
  | nil => exact lines_lineEnd h
  | cons c content ih =>
    rw [List.forall_mem_cons] at hl
    rw [List.cons_append, lines_cons hl.1, ih hl.2]

theorem lines_last (hl : IsRow content) : lines content = [⟨content, []⟩] := by
  obtain ⟨hne, hl⟩ := hl
  induction content with
  | nil => exact absurd rfl hne
  | cons c content ih =>
    rw [List.forall_mem_cons] at hl
    rw [lines_cons hl.1]
    cases content with
    | nil => rfl
    | cons d content => rw [ih (by simp) hl.2]

theorem text_cases (cs : List Char) : cs = [] ∨ IsRow cs ∨
    ∃ content ending rest, cs = content ++ (ending ++ rest) ∧
      (∀ c ∈ content, isLineEnd c = false) ∧ Ends ending rest := by
  induction cs with
  | nil => exact Or.inl rfl
  | cons c cs ih =>
    by_cases hc : isLineEnd c = true
    · have hend : ∃ ending rest, c :: cs = ending ++ rest ∧ Ends ending rest := by
        rcases isLineEnd_iff.1 hc with rfl | rfl
        · exact ⟨_, cs, rfl, .newline cs⟩
        · by_cases hn : cs.head? = some '\n'
          · obtain ⟨rest, rfl⟩ := List.head?_eq_some_iff.1 hn
            exact ⟨_, rest, rfl, .both rest⟩
          · exact ⟨_, cs, rfl, .lone hn⟩
      obtain ⟨ending, rest, hcs, hend⟩ := hend
      exact Or.inr (Or.inr ⟨[], ending, rest, hcs, by simp, hend⟩)
    · have hc : isLineEnd c = false := by simpa using hc
      rcases ih with rfl | hrow | ⟨content, ending, rest, rfl, hl, hend⟩
      · exact Or.inr (Or.inl ⟨by simp, by simpa using hc⟩)
      · exact Or.inr (Or.inl ⟨by simp, List.forall_mem_cons.2 ⟨hc, hrow.one_line⟩⟩)
      · exact Or.inr (Or.inr ⟨c :: content, ending, rest, rfl,
          List.forall_mem_cons.2 ⟨hc, hl⟩, hend⟩)

theorem Ends.ne_nil (h : Ends ending cs) : ending ≠ [] := by
  cases h <;> simp

/-- A text is empty, or its own last line, or a line with its end in front of another text. -/
@[elab_as_elim]
theorem line_induction {P : List Char → Prop} (nil : P []) (last : ∀ l, IsRow l → P l)
    (ended : ∀ content ending cs, (∀ c ∈ content, isLineEnd c = false) → Ends ending cs → P cs →
      P (content ++ (ending ++ cs))) (cs : List Char) : P cs := by
  induction h : cs.length using Nat.strongRecOn generalizing cs with
  | ind n ih =>
    rcases text_cases cs with rfl | hrow | ⟨content, ending, rest, rfl, hl, hend⟩
    · exact nil
    · exact last cs hrow
    · have hlen := List.length_pos_iff.2 hend.ne_nil
      refine ended content ending rest hl hend (ih rest.length ?_ rest rfl)
      rw [← h, List.length_append, List.length_append]
      omega

theorem textOf_lines (cs : List Char) : textOf (lines cs) = cs := by
  induction cs using line_induction with
  | nil => rfl
  | last l hl => simp [lines_last hl, textOf]
  | ended content ending cs hl hend ih =>
    rw [lines_ended hl hend, textOf, List.flatMap_cons, ← textOf, ih, List.append_assoc]

end Lines

section Setting

variable {attr content ending cs value : List Char}

theorem assigns_iff (ha : IsAttribute attr) {l : Line}
    (hl : ∀ c ∈ l.content, isLineEnd c = false) {indent old : List Char} :
    l.Assigns attr indent old ↔ assignment? attr l.content = some ⟨[], indent, old, []⟩ := by
  rw [assignment?_eq_some_iff ha]
  constructor
  · rintro ⟨⟨gap, hgap, hcontent⟩, hindent, hne⟩
    refine ⟨rfl, ⟨gap, hgap, by simpa using hcontent⟩, by simp, hindent, hne, fun c hc => ?_,
      by simp⟩
    refine hl c ?_
    rw [hcontent]
    simp [hc]
  · rintro ⟨-, ⟨gap, hgap, hcontent⟩, -, hindent, hne, -, -⟩
    exact ⟨⟨gap, hgap, by simpa using hcontent⟩, hindent, hne⟩

/-- The line that is found in a single line is all of it. -/
theorem eq_of_assignment? (ha : IsAttribute attr) (hl : ∀ c ∈ content, isLineEnd c = false)
    {f : Found} (h : assignment? attr content = some f) : f = ⟨[], f.indent, f.value, []⟩ := by
  obtain ⟨hb, ⟨gap, -, ht⟩, -, -, -, -, hends⟩ := (assignment?_eq_some_iff ha).1 h
  have hrest : f.rest = [] := by
    by_contra hne
    obtain ⟨c, r, hr⟩ := List.exists_cons_of_ne_nil hne
    have hend := hends c (by rw [hr]; rfl)
    have hone := hl c (by rw [ht, hr]; simp)
    rw [hend] at hone
    cases hone
  obtain ⟨before, indent, old, rest⟩ := f
  dsimp only at hb hrest ⊢
  rw [hb, hrest]

theorem find?_ends (ha : IsAttribute attr) (hend : Ends ending cs) :
    find? attr none (ending ++ cs) =
      (find? attr none cs).map fun f => { f with before := ending ++ f.before } := by
  cases hend with
  | newline => exact find?_lineEnd ha rfl cs
  | lone h => exact find?_lineEnd ha rfl cs
  | both =>
    have h := find?_lineEnd (c := '\r') ha rfl ('\n' :: cs)
    rw [find?_lineEnd ha rfl cs, Option.map_map] at h
    exact h

theorem Ends.atLineEnd (h : Ends ending cs) : AtLineEnd (ending ++ cs) := by
  cases h <;> exact atLineEnd_cons rfl _

/-- A line that assigns the attribute answers for the text, and any other is passed over. -/
theorem find?_ended (ha : IsAttribute attr) (hl : ∀ c ∈ content, isLineEnd c = false)
    (hend : Ends ending cs) : find? attr none (content ++ (ending ++ cs)) =
      match assignment? attr content with
      | some f => some { f with rest := ending ++ cs }
      | none => (find? attr none cs).map fun f =>
          { f with before := content ++ (ending ++ f.before) } := by
  cases content with
  | nil => rw [assignment?_nil ha, List.nil_append, find?_ends ha hend]; rfl
  | cons c content =>
    rw [find?_row ha ⟨by simp, hl⟩ hend.atLineEnd, find?_ends ha hend, Option.map_map]
    rfl

theorem set?_ended (ha : IsAttribute attr) (hl : ∀ c ∈ content, isLineEnd c = false)
    (hend : Ends ending cs) (value : List Char) :
    set? attr value (content ++ (ending ++ cs)) = match assignment? attr content with
      | some f => some (line f.indent attr value ++ (ending ++ cs), Text.trim f.value)
      | none => (set? attr value cs).map fun r => (content ++ (ending ++ r.1), r.2) := by
  rw [set?, find?_ended ha hl hend]
  cases h : assignment? attr content with
  | some f =>
    rw [eq_of_assignment? ha hl h]
    simp [line]
  | none =>
    rw [set?, Option.map_map]
    cases find? attr none cs <;> simp

/-- A new text starts as the old one does. -/
theorem head?_set? (ha : IsAttribute attr) {new old : List Char}
    (h : set? attr value cs = some (new, old)) : new.head? = cs.head? := by
  rw [set?, Option.map_eq_some_iff] at h
  obtain ⟨f, hf, hnew⟩ := h
  obtain ⟨gap, -, hcs⟩ := ((find?_eq_some_iff ha).1 hf).1.text_eq
  have hne : f.before ++ f.indent ++ attr ≠ [] := by simp [ha.ne_nil]
  have hcs' : cs = (f.before ++ f.indent ++ attr) ++ (gap ++ '=' :: (f.value ++ f.rest)) := by
    rw [hcs]
    simp
  rw [Prod.mk.injEq] at hnew
  rw [← hnew.1, hcs', List.append_assoc, List.append_assoc, List.head?_append_of_ne_nil _ hne,
    List.head?_append_of_ne_nil _ hne]

theorem Ends.of_head? {cs' : List Char} (h : Ends ending cs) (hcs : cs'.head? = cs.head?) :
    Ends ending cs' := by
  cases h with
  | newline => exact .newline cs'
  | both => exact .both cs'
  | lone h => exact .lone (hcs ▸ h)

theorem set?_last (ha : IsAttribute attr) (hl : IsRow content) (value : List Char) :
    set? attr value content = (assignment? attr content).map fun f =>
      (line f.indent attr value, Text.trim f.value) := by
  have hfind := find?_row ha hl atLineEnd_nil
  rw [List.append_nil, find?_nil ha] at hfind
  rw [set?, hfind]
  cases h : assignment? attr content with
  | some f =>
    rw [eq_of_assignment? ha hl.one_line h]
    simp [line]
  | none => rfl

theorem assignment?_eq_none_iff (ha : IsAttribute attr) {l : Line}
    (hl : ∀ c ∈ l.content, isLineEnd c = false) :
    assignment? attr l.content = none ↔ ∀ indent old, ¬ l.Assigns attr indent old := by
  rw [Option.eq_none_iff_forall_ne_some]
  constructor
  · intro h indent old hset
    exact h _ ((assigns_iff ha hl).1 hset)
  · intro h f hf
    rw [eq_of_assignment? ha hl hf] at hf
    exact h _ _ ((assigns_iff ha hl).2 hf)

theorem set?_eq_none_iff (ha : IsAttribute attr) (value text : List Char) :
    set? attr value text = none ↔ ∀ l ∈ lines text, ∀ indent old, ¬ l.Assigns attr indent old := by
  induction text using line_induction with
  | nil =>
    rw [set?, find?_nil ha]
    simp [lines]
  | last content hl =>
    have hnone := assignment?_eq_none_iff ha (l := ⟨content, []⟩) hl.one_line
    rw [lines_last hl, List.forall_mem_singleton, ← hnone, set?_last ha hl, Option.map_eq_none_iff]
  | ended content ending cs hl hend ih =>
    have hnone := assignment?_eq_none_iff ha (l := ⟨content, ending⟩) hl
    rw [lines_ended hl hend, List.forall_mem_cons, ← hnone, ← ih, set?_ended ha hl hend]
    cases assignment? attr content <;> simp

/-- The first line that assigns the attribute is changed, and no other. -/
theorem set?_of_first (ha : IsAttribute attr) (value : List Char) {text : List Char}
    {before after : List Line} {l : Line} {indent old : List Char}
    (hlines : lines text = before ++ l :: after)
    (hbefore : ∀ l' ∈ before, ∀ indent old, ¬ l'.Assigns attr indent old)
    (hset : l.Assigns attr indent old) :
    ∃ new, set? attr value text = some (new, Text.trim old) ∧
      lines new = before ++ { l with content := line indent attr value } :: after := by
  have hone : ∀ c ∈ line indent attr value, isLineEnd c = false :=
    (isRow_line ha hset.indent value).one_line
  induction text using line_induction generalizing before with
  | nil => simp [lines] at hlines
  | last content hl =>
    rw [lines_last hl, eq_comm, List.append_eq_singleton_iff] at hlines
    obtain ⟨rfl, hcons⟩ | ⟨-, hcons⟩ := hlines
    · obtain ⟨rfl, rfl⟩ := List.cons.inj hcons
      have hfound := (assigns_iff ha (l := ⟨content, []⟩) hl.one_line).1 hset
      rw [set?_last ha hl, hfound]
      exact ⟨_, rfl, lines_last (isRow_line ha hset.indent value)⟩
    · cases hcons
  | ended content ending cs hl hend ih =>
    rw [lines_ended hl hend] at hlines
    rw [set?_ended ha hl hend]
    cases before with
    | nil =>
      obtain ⟨rfl, rfl⟩ := List.cons.inj hlines
      have hfound := (assigns_iff ha (l := ⟨content, ending⟩) hl).1 hset
      rw [hfound]
      exact ⟨_, rfl, lines_ended hone hend⟩
    | cons l' before =>
      obtain ⟨rfl, hrest⟩ := List.cons.inj hlines
      rw [List.forall_mem_cons] at hbefore
      obtain ⟨new, hnew, hlinesNew⟩ := ih hrest hbefore.2
      have hpassed := (assignment?_eq_none_iff ha (l := ⟨content, ending⟩) hl).2 hbefore.1
      have hend' := hend.of_head? (head?_set? ha hnew)
      rw [hpassed, hnew]
      exact ⟨_, rfl, by rw [lines_ended hl hend', hlinesNew, List.cons_append]⟩

end Setting

/-- Setting an attribute finds nothing exactly when no line assigns it. Else it changes the first
line that does, behind its indent and up to its end, and gives the value it had without the blanks
around it. All other lines and all line ends are left. -/
theorem set?_lines {attr : List Char} (ha : IsAttribute attr) (value text : List Char) :
    (set? attr value text = none ↔ ∀ l ∈ lines text, ∀ indent old, ¬ l.Assigns attr indent old) ∧
      ∀ before l after indent old, lines text = before ++ l :: after →
        (∀ l' ∈ before, ∀ indent old, ¬ l'.Assigns attr indent old) → l.Assigns attr indent old →
          ∃ new, set? attr value text = some (new, Text.trim old) ∧
            lines new = before ++ { l with content := line indent attr value } :: after ∧
            (lines new).length = (lines text).length ∧
            textOf (lines text) = text ∧ textOf (lines new) = new := by
  refine ⟨set?_eq_none_iff ha value text, fun before l after indent old hlines hbefore hset => ?_⟩
  obtain ⟨new, hnew, hlinesNew⟩ := set?_of_first ha value hlines hbefore hset
  refine ⟨new, hnew, hlinesNew, ?_, textOf_lines text, textOf_lines new⟩
  rw [hlinesNew, hlines, List.length_append, List.length_append, List.length_cons, List.length_cons]

/-- An attribute of characters that mean something else elsewhere, behind a line that only looks
like it, with all three line ends about. -/
theorem set?_lines_dotted :
    let attr := "a.*[=".toList
    let text := "axx[ = 0\r\n\t a.*[= \t=  \ra.*[==2\n".toList
    let before : List Line := [⟨"axx[ = 0".toList, "\r\n".toList⟩]
    let l : Line := ⟨"\t a.*[= \t=  ".toList, "\r".toList⟩
    let after : List Line := [⟨"a.*[==2".toList, "\n".toList⟩]
    IsAttribute attr ∧ lines text = before ++ l :: after ∧
      (∀ l' ∈ before, ∀ indent old, ¬ l'.Assigns attr indent old) ∧
      l.Assigns attr "\t ".toList "  ".toList ∧
      ∃ new, set? attr "it's".toList text = some (new, []) ∧
        lines new =
          before ++ ⟨"\t a.*[= = \"it's\"".toList, "\r".toList⟩ :: after := by
  intro attr text before l after
  have hend (cs : List Char) (h : cs.any isLineEnd = false) : ∀ c ∈ cs, isLineEnd c = false := by
    simpa using h
  have ha : IsAttribute attr := ⟨by decide, fun c hc => by cases hc; rfl, hend attr (by decide)⟩
  have hlines : lines text = before ++ l :: after := by decide
  have hbefore : ∀ l' ∈ before, ∀ indent old, ¬ l'.Assigns attr indent old := by
    rw [List.forall_mem_singleton]
    exact (assignment?_eq_none_iff ha (hend _ (by decide))).1 (by decide)
  have hset : l.Assigns attr "\t ".toList "  ".toList :=
    (assigns_iff ha (hend _ (by decide))).2 (by decide)
  obtain ⟨new, hnew, hlinesNew, -⟩ :=
    (set?_lines ha "it's".toList text).2 before l after _ _ hlines hbefore hset
  exact ⟨ha, hlines, hbefore, hset, new, hnew, hlinesNew⟩

end ConanPipeline.Descriptor
