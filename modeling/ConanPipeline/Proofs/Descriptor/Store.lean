import ConanPipeline.Proofs.Descriptor.Rows
import ConanPipeline.Proofs.Literal

/-! A descriptor as a store of attributes. A row assigns one name at most
(`assignment?_inj`), and a row that is rewritten goes on assigning its name. So a call after
any run of calls answers with the last value set for its attribute (`value?_run`), and the
text a run leaves depends on the last values only (`run_congr`). -/

namespace ConanPipeline.Descriptor

/-- A name of an attribute. -/
structure IsName (attr : List Char) : Prop where
  ne_nil : attr ≠ []
  blank : ∀ c ∈ attr, Text.isBlank c = false
  equals : '=' ∉ attr

instance (attr : List Char) : Decidable (IsName attr) :=
  decidable_of_iff (attr ≠ [] ∧ attr.any Text.isBlank = false ∧ '=' ∉ attr)
    ⟨fun ⟨h1, h2, h3⟩ => ⟨h1, by simpa using h2, h3⟩,
      fun h => ⟨h.ne_nil, by simpa using h.blank, h.equals⟩⟩

structure Update where
  attr : List Char
  value : List Char
  attr_ok : IsName attr := by decide

/-- The text after a call. One that finds no line leaves it as it is. -/
def Update.apply (u : Update) (text : List Char) : List Char :=
  match set? u.attr u.value text with
  | some (t, _) => t
  | none => text

def run (us : List Update) (text : List Char) : List Char := us.foldl (fun t u => u.apply t) text

/-- The last value that a run sets an attribute to. -/
def lastOf (attr : List Char) (us : List Update) : Option (List Char) :=
  (us.reverse.find? (·.attr = attr)).map (·.value)

/-- The value a text has for an attribute. -/
def value? (attr text : List Char) : Option (List Char) :=
  (find? attr none text).map fun f => Text.trim f.value

/-- A line that has been set. -/
def line (indent attr value : List Char) : List Char :=
  indent ++ attr ++ " = ".toList ++ Literal.encode value

theorem snd_set? (attr value text : List Char) :
    (set? attr value text).map Prod.snd = value? attr text := by
  rw [set?, value?, Option.map_map]
  rfl

theorem isBlank_of_isSpace {c : Char} (h : isSpace c = true) : Text.isBlank c = true := by
  simp only [isSpace, Bool.or_eq_true, beq_iff_eq] at h
  rcases h with rfl | rfl <;> decide

theorem isBlank_of_isLineEnd {c : Char} (h : isLineEnd c = true) : Text.isBlank c = true := by
  rcases isLineEnd_iff.1 h with rfl | rfl <;> decide

section Name

variable {attr : List Char}

theorem IsName.not_space (h : IsName attr) : ∀ c ∈ attr, isSpace c = false := by
  intro c hc
  cases hs : isSpace c with
  | false => rfl
  | true => exact absurd (isBlank_of_isSpace hs) (by simp [h.blank c hc])

theorem IsName.isAttribute (h : IsName attr) : IsAttribute attr := by
  refine ⟨h.ne_nil, fun c hc => h.not_space c (List.mem_of_head? hc), fun c hc => ?_⟩
  cases he : isLineEnd c with
  | false => rfl
  | true => exact absurd (isBlank_of_isLineEnd he) (by simp [h.blank c hc])

end Name

section Row

variable {attr attr' l cs : List Char} {c : Char} {f g : Found}

/-- The name that a line assigns is what stands before the first space or `=`. -/
theorem name_eq (ha : IsName attr) (h : assignment? attr l = some f) :
    attr = (l.dropWhile isSpace).takeWhile fun c => !(isSpace c || c == '=') := by
  obtain ⟨hb, ⟨gap, hgap, rfl⟩, -, hi, -, -, -⟩ := (assignment?_eq_some_iff ha.isAttribute).1 h
  have hstart : ∀ c ∈ (attr ++ (gap ++ '=' :: (f.value ++ f.rest))).head?, isSpace c = false := by
    intro c hc
    rw [List.head?_append_of_ne_nil _ ha.ne_nil] at hc
    exact ha.not_space c (List.mem_of_head? hc)
  have hname : ∀ c ∈ attr, (!(isSpace c || c == '=')) = true := by
    intro c hc
    have hne : c ≠ '=' := fun he => ha.equals (he ▸ hc)
    simp [ha.not_space c hc, hne]
  have hstop : ∀ c ∈ (gap ++ '=' :: (f.value ++ f.rest)).head?,
      (!(isSpace c || c == '=')) = false := by
    intro c hc
    cases gap with
    | nil =>
      rw [List.nil_append, List.head?_cons, Option.mem_some_iff] at hc
      simp [← hc]
    | cons d gap =>
      rw [List.cons_append, List.head?_cons, Option.mem_some_iff] at hc
      simp [← hc, hgap d]
  rw [hb, List.nil_append, Text.dropWhile_append_stop hi hstart, Text.takeWhile_append_stop hname hstop]

theorem assignment?_inj (ha : IsName attr) (ha' : IsName attr') (h : assignment? attr l = some f)
    (h' : assignment? attr' l = some g) : attr = attr' :=
  (name_eq ha h).trans (name_eq ha' h').symm

theorem assignment?_of_ne (ha : IsName attr) (ha' : IsName attr') (hne : attr' ≠ attr)
    (h : assignment? attr l = some f) : assignment? attr' l = none := by
  rw [Option.eq_none_iff_forall_ne_some]
  intro g hg
  exact hne (assignment?_inj ha' ha hg h)

theorem one_line_literal (value : List Char) :
    ∀ c ∈ Literal.encode value, isLineEnd c = false := by
  intro c hc
  obtain ⟨hn, hr⟩ := Literal.one_line_encode value c hc
  simp [isLineEnd, hn, hr]

theorem assignment?_line (ha : IsAttribute attr) {indent : List Char}
    (hi : ∀ c ∈ indent, isSpace c = true) (value : List Char) :
    assignment? attr (line indent attr value) =
      some ⟨[], indent, ' ' :: Literal.encode value, []⟩ := by
  rw [assignment?_eq_some_iff ha]
  refine ⟨rfl, ⟨[' '], ?_, ?_⟩, by simp, hi, by simp, ?_, by simp⟩
  · rw [List.forall_mem_singleton]
    decide
  · simp [line]
  · rw [List.forall_mem_cons]
    exact ⟨by decide, one_line_literal value⟩

theorem isRow_line (ha : IsAttribute attr) {indent : List Char}
    (hi : ∀ c ∈ indent, isSpace c = true) (value : List Char) : IsRow (line indent attr value) := by
  refine ⟨by simp [line, ha.ne_nil], ?_⟩
  intro c hc
  rw [line, List.mem_append, List.mem_append, List.mem_append] at hc
  rcases hc with ((hc | hc) | hc) | hc
  · exact isLineEnd_of_isSpace (hi c hc)
  · exact ha.one_line c hc
  · have hc' : c = ' ' ∨ c = '=' := by simpa [or_comm] using hc
    rcases hc' with rfl | rfl <;> decide
  · exact one_line_literal value c hc

theorem indent_of_assignment? (ha : IsAttribute attr) (h : assignment? attr l = some f) :
    ∀ c ∈ f.indent, isSpace c = true :=
  ((assignment?_eq_some_iff ha).1 h).2.indent

theorem trim_literal (value : List Char) :
    Text.trim (' ' :: Literal.encode value) = Literal.encode value := by
  have h : Text.trim (' ' :: Literal.encode value) = Text.trim (Literal.encode value) := by
    rw [Text.trim, Text.trimStart, List.dropWhile_cons_of_pos (by decide)]
    rfl
  rw [h, Literal.trim_encode]

end Row

section Apply

variable (u : Update) {attr l cs : List Char} {c : Char}

theorem apply_nil : u.apply [] = [] := by
  rw [Update.apply, set?, find?_nil u.attr_ok.isAttribute]
  rfl

theorem apply_lineEnd (hc : isLineEnd c = true) (cs : List Char) :
    u.apply (c :: cs) = c :: u.apply cs := by
  rw [Update.apply, Update.apply, set?, set?, find?_lineEnd u.attr_ok.isAttribute hc]
  cases find? u.attr none cs <;> rfl

theorem apply_row (hl : IsRow l) (hcs : AtLineEnd cs) :
    u.apply (l ++ cs) = match assignment? u.attr l with
      | some f => line f.indent u.attr u.value ++ cs
      | none => l ++ u.apply cs := by
  have ha := u.attr_ok.isAttribute
  rw [Update.apply, set?, find?_row ha hl hcs]
  cases h : assignment? u.attr l with
  | some f =>
    have hb : f.before = [] := ((assignment?_eq_some_iff ha).1 h).1
    simp [line, hb]
  | none =>
    rw [Update.apply, set?]
    cases find? u.attr none cs <;> simp

theorem atLineEnd_apply (h : AtLineEnd cs) : AtLineEnd (u.apply cs) := by
  cases cs with
  | nil => rwa [apply_nil]
  | cons c cs =>
    have hc : isLineEnd c = true := h c rfl
    rw [apply_lineEnd u hc]
    exact atLineEnd_cons hc _

theorem value?_lineEnd (ha : IsAttribute attr) (hc : isLineEnd c = true) (cs : List Char) :
    value? attr (c :: cs) = value? attr cs := by
  rw [value?, value?, find?_lineEnd ha hc, Option.map_map]
  rfl

theorem value?_row (ha : IsAttribute attr) (hl : IsRow l) (hcs : AtLineEnd cs) :
    value? attr (l ++ cs) = match assignment? attr l with
      | some f => some (Text.trim f.value)
      | none => value? attr cs := by
  rw [value?, find?_row ha hl hcs]
  cases assignment? attr l with
  | some f => rfl
  | none =>
    rw [value?, Option.map_map]
    rfl

/-- A call sets its own attribute, if the text has it, and no other. -/
theorem value?_apply (ha : IsName attr) (text : List Char) :
    value? attr (u.apply text) =
      if u.attr = attr then (value? attr text).map fun _ => Literal.encode u.value
      else value? attr text := by
  induction text using row_induction with
  | nil =>
    rw [apply_nil, value?, find?_nil ha.isAttribute]
    split <;> rfl
  | ending c cs hc ih =>
    rw [apply_lineEnd u hc, value?_lineEnd ha.isAttribute hc, value?_lineEnd ha.isAttribute hc, ih]
  | row l cs hl hcs ih =>
    rw [apply_row u hl hcs, value?_row ha.isAttribute hl hcs]
    cases h : assignment? u.attr l with
    | some f =>
      have hi := indent_of_assignment? u.attr_ok.isAttribute h
      have hline := assignment?_line u.attr_ok.isAttribute hi u.value
      have hrow := isRow_line u.attr_ok.isAttribute hi u.value
      dsimp only
      rw [value?_row ha.isAttribute hrow hcs]
      by_cases he : u.attr = attr
      · subst he
        rw [hline, h, if_pos rfl]
        simp [trim_literal]
      · rw [assignment?_of_ne u.attr_ok ha (Ne.symm he) hline,
          assignment?_of_ne u.attr_ok ha (Ne.symm he) h, if_neg he]
    | none =>
      dsimp only
      rw [value?_row ha.isAttribute hl (atLineEnd_apply u hcs)]
      cases h' : assignment? attr l with
      | some g =>
        have hne : u.attr ≠ attr := by
          rintro rfl
          rw [h] at h'
          exact absurd h' (by simp)
        rw [if_neg hne]
      | none => exact ih

end Apply

section Run

variable {attr : List Char} {us vs : List Update}

theorem lastOf_cons (attr : List Char) (u : Update) (us : List Update) :
    lastOf attr (u :: us) = (lastOf attr us).or (if u.attr = attr then some u.value else none) := by
  rw [lastOf, List.reverse_cons, List.find?_append]
  by_cases h : u.attr = attr <;> simp [lastOf, h]

theorem lastOf_filter (attr' attr : List Char) (us : List Update) :
    lastOf attr' (us.filter (·.attr ≠ attr)) = if attr' = attr then none else lastOf attr' us := by
  induction us with
  | nil => simp [lastOf]
  | cons u us ih =>
    rw [List.filter_cons, lastOf_cons]
    by_cases hu : u.attr = attr
    · rw [if_neg (by simp [hu]), ih]
      by_cases h : attr' = attr
      · simp [h]
      · simp [h, hu, Ne.symm h]
    · rw [if_pos (by simp [hu]), lastOf_cons, ih]
      by_cases h : attr' = attr
      · simp [h, hu]
      · simp [h]

theorem value?_run (ha : IsName attr) (us : List Update) (text : List Char) :
    value? attr (run us text) = (value? attr text).map fun old =>
      match lastOf attr us with
      | some v => Literal.encode v
      | none => old := by
  induction us generalizing text with
  | nil => simp [run, lastOf]
  | cons u us ih =>
    rw [run, List.foldl_cons, ← run, ih, value?_apply u ha, lastOf_cons]
    by_cases hu : u.attr = attr
    · rw [if_pos hu, if_pos hu, Option.map_map]
      cases lastOf attr us <;> rfl
    · rw [if_neg hu, if_neg hu, Option.or_none]

theorem run_nil_text (us : List Update) : run us [] = [] := by
  induction us with
  | nil => rfl
  | cons u us ih => rw [run, List.foldl_cons, apply_nil, ← run, ih]

theorem run_lineEnd {c : Char} (hc : isLineEnd c = true) (us : List Update) (cs : List Char) :
    run us (c :: cs) = c :: run us cs := by
  induction us generalizing cs with
  | nil => rfl
  | cons u us ih => rw [run, List.foldl_cons, apply_lineEnd u hc, ← run, ih]; rfl

/-- A row that assigns a name keeps the last value set for it, and the calls for other names
go past it. -/
theorem run_row_of_assigned {l cs : List Char} {f : Found} (ha : IsName attr) (hl : IsRow l)
    (hcs : AtLineEnd cs) (h : assignment? attr l = some f) (us : List Update) :
    run us (l ++ cs) = (match lastOf attr us with
      | some v => line f.indent attr v
      | none => l) ++ run (us.filter (·.attr ≠ attr)) cs := by
  induction us generalizing l cs f with
  | nil => rfl
  | cons u us ih =>
    rw [run, List.foldl_cons, ← run, apply_row u hl hcs, lastOf_cons, List.filter_cons]
    by_cases hu : u.attr = attr
    · subst hu
      have hi := indent_of_assignment? ha.isAttribute h
      rw [h, if_pos rfl, if_neg (by simp)]
      dsimp only
      rw [ih (isRow_line ha.isAttribute hi u.value) hcs
        (assignment?_line ha.isAttribute hi u.value)]
      cases lastOf u.attr us <;> rfl
    · rw [assignment?_of_ne ha u.attr_ok hu h, if_neg hu, if_pos (by simp [hu]), Option.or_none]
      dsimp only
      rw [ih hl (atLineEnd_apply u hcs) h]
      rfl

theorem run_row_of_unassigned {l cs : List Char} (hl : IsRow l) (hcs : AtLineEnd cs)
    (h : ∀ attr, IsName attr → assignment? attr l = none) (us : List Update) :
    run us (l ++ cs) = l ++ run us cs := by
  induction us generalizing cs with
  | nil => rfl
  | cons u us ih =>
    rw [run, List.foldl_cons, ← run, apply_row u hl hcs, h u.attr u.attr_ok]
    dsimp only
    rw [ih (atLineEnd_apply u hcs)]
    rfl

/-- Runs with the same last values leave the same text. -/
theorem run_congr (h : ∀ attr, lastOf attr us = lastOf attr vs) (text : List Char) :
    run us text = run vs text := by
  induction text using row_induction generalizing us vs with
  | nil => rw [run_nil_text, run_nil_text]
  | ending c cs hc ih => rw [run_lineEnd hc, run_lineEnd hc, ih h]
  | row l cs hl hcs ih =>
    by_cases hn : ∃ attr, IsName attr ∧ ∃ f, assignment? attr l = some f
    · obtain ⟨attr, ha, f, hf⟩ := hn
      rw [run_row_of_assigned ha hl hcs hf, run_row_of_assigned ha hl hcs hf, h attr]
      congr 1
      refine ih fun attr' => ?_
      rw [lastOf_filter, lastOf_filter, h attr']
    · have hnone : ∀ attr, IsName attr → assignment? attr l = none := by
        intro attr ha
        rw [Option.eq_none_iff_forall_ne_some]
        intro f hf
        exact hn ⟨attr, ha, f, hf⟩
      rw [run_row_of_unassigned hl hcs hnone, run_row_of_unassigned hl hcs hnone, ih h]

end Run

/-- After any run of calls, one more finds no line exactly when the first text has none that
assigns its attribute. Else it answers with the literal of the last value set for it, or with
the value of the first such line. The text depends on the last values alone. -/
theorem set?_run (text : List Char) (us : List Update) :
    (∀ u : Update,
      (set? u.attr u.value (run us text) = none ↔ ∀ f : Found, ¬ f.IsLine u.attr none text) ∧
        ∀ f : Found, f.IsFirst u.attr none text →
          (set? u.attr u.value (run us text)).map Prod.snd = some (match lastOf u.attr us with
            | some v => Literal.encode v
            | none => Text.trim f.value)) ∧
      ∀ vs, (∀ attr, lastOf attr us = lastOf attr vs) → run us text = run vs text := by
  refine ⟨fun u => ⟨?_, fun f hf => ?_⟩, fun vs h => run_congr h text⟩
  · have hmap : ∀ o : Option (List Char × List Char), o = none ↔ o.map Prod.snd = none := by
      intro o
      rw [Option.map_eq_none_iff]
    rw [hmap, snd_set?, value?_run u.attr_ok, Option.map_eq_none_iff, value?,
      Option.map_eq_none_iff, find?_eq_none_iff u.attr_ok.isAttribute]
  · have hfind := (find?_eq_some_iff u.attr_ok.isAttribute).2 hf
    rw [snd_set?, value?_run u.attr_ok, value?, hfind]
    rfl

/-- Two attributes set in turns, by values with a quote and line ends. -/
theorem set?_run_in_turns :
    let text := "\ta = 1 \r\nb=x\n\ra=2".toList
    let a : Update := { attr := "a".toList, value := "it's\n".toList }
    let b : Update := { attr := "b".toList, value := "\r=".toList }
    let a' : Update := { attr := "a".toList, value := "b = 3".toList }
    Found.IsFirst ⟨[], "\t".toList, " 1 ".toList, "\r\nb=x\n\ra=2".toList⟩ a.attr none text ∧
      (set? a.attr a.value (run [a, b, a'] text)).map Prod.snd = some "'b = 3'".toList ∧
      (∀ attr, lastOf attr [a, b, a'] = lastOf attr [a', b]) ∧
      run [a, b, a'] text = run [a', b] text := by
  intro text a b a'
  have hfirst : Found.IsFirst ⟨[], "\t".toList, " 1 ".toList, "\r\nb=x\n\ra=2".toList⟩
      a.attr none text := (find?_eq_some_iff a.attr_ok.isAttribute).1 (by decide)
  have hlast : ∀ attr, lastOf attr [a, b, a'] = lastOf attr [a', b] := by
    intro attr
    by_cases ha : "a".toList = attr
    · subst ha
      decide
    · have hne : a.attr ≠ attr := ha
      have hne' : a'.attr ≠ attr := ha
      simp only [lastOf_cons, if_neg hne, if_neg hne', Option.or_none]
  have h := set?_run text [a, b, a']
  exact ⟨hfirst, ((h.1 a).2 _ hfirst).trans (by decide), hlast, h.2 _ hlast⟩

end ConanPipeline.Descriptor
