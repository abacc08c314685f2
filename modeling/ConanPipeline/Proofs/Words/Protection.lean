import ConanPipeline.Proofs.Words.Display

/-! What the shell gets of a quoted character. A command line is read into words without
quotes, and the words are shown with quotes of their own. A character that the line has in
single quotes is shown inside quotes exactly when its word holds a blank or a quote
(`inside_shown_iff`). -/

namespace ConanPipeline.Words

/-- A character of a word, with the words around it. -/
structure Place where
  before : List (List Char)
  left : List Char
  char : Char
  right : List Char
  after : List (List Char)

namespace Place

def word (p : Place) : List Char := p.left ++ p.char :: p.right

def words (p : Place) : List (List Char) := p.before ++ p.word :: p.after

/-- What is shown of the words before the character. -/
def shownBefore (p : Place) : List Char :=
  p.before.flatMap (fun w => quote w ++ [' ']) ++
    if needsQuotes p.word then '\'' :: p.left.flatMap quoteChar else p.left

end Place

section Grammar

variable {q : Quote} {cs : List Char}

theorem EndsInside.textOf_append (ts : List Segment) (h : EndsInside q cs) :
    EndsInside q (textOf ts ++ cs) := by
  cases h with
  | single h =>
    rw [← List.append_assoc, ← textOf_append]
    exact .single h
  | double =>
    rw [← List.append_assoc, ← textOf_append]
    exact .double
  | doubleDangling =>
    rw [← List.append_assoc, ← textOf_append]
    exact .doubleDangling
  | later h hr =>
    rw [← List.append_assoc, ← textOf_append]
    exact .later h hr

theorem exists_spells_textOf (ts : List Segment) : ∃ ws, Spells (textOf ts) ws := by
  cases ts with
  | nil => exact ⟨[], .nil⟩
  | cons t ts => exact ⟨_, .last (List.cons_ne_nil t ts)⟩

theorem Spells.textOf_append {ws : List (List Char)} (ts : List Segment) (h : Spells cs ws) :
    ∃ ws', Spells (textOf ts ++ cs) ws' := by
  cases h with
  | nil =>
    rw [List.append_nil]
    exact exists_spells_textOf ts
  | blank h hr => exact hr.cons_blank h
  | word _ h hr =>
    rw [← List.append_assoc, ← Words.textOf_append]
    exact hr.cons_blank h
  | last =>
    rw [← Words.textOf_append]
    exact exists_spells_textOf _
  | dangling =>
    rw [← List.append_assoc, ← Words.textOf_append]
    exact ⟨_, .dangling⟩

theorem Spells.not_endsInside {ws : List (List Char)} (h : Spells cs ws) (q : Quote) :
    ¬ EndsInside q cs := by
  intro he
  have hn := split_of_endsInside he
  rw [split_of_spells h] at hn
  exact absurd hn (by simp)

/-- A shown word and the space behind it: the space ends the word, or a last backslash takes
it into a word that goes on. -/
theorem exists_segments_shown (w : List Char) : ∃ ss, ∀ r,
    quote w ++ ' ' :: r = textOf ss ++ ' ' :: r ∨
      quote w ++ ' ' :: r = textOf (ss ++ [.escaped ' ']) ++ r := by
  by_cases hw : ReadsBack w
  · obtain ⟨ss, -, ht, -⟩ := exists_segments_quote hw
    exact ⟨ss, fun r => Or.inl (by rw [ht])⟩
  · have hb := Classical.not_imp.1 hw
    rw [quote_of_bare (List.ne_nil_of_mem hb.1) hb.2]
    obtain ⟨ss, rfl | rfl⟩ := exists_segments_bare hb.2
    · exact ⟨ss, fun r => Or.inl rfl⟩
    · exact ⟨ss, fun r => Or.inr (by simp [Segment.text])⟩

theorem endsInside_shown (h : EndsInside q cs) (ws : List (List Char)) :
    EndsInside q (ws.flatMap (fun w => quote w ++ [' ']) ++ cs) := by
  induction ws with
  | nil => exact h
  | cons w ws ih =>
    obtain ⟨ss, hs⟩ := exists_segments_shown w
    rw [List.flatMap_cons, List.append_assoc, List.append_assoc, List.singleton_append]
    rcases hs (ws.flatMap (fun w => quote w ++ [' ']) ++ cs) with he | he
    · rw [he]
      exact .later (by decide) ih
    · rw [he]
      exact ih.textOf_append _

theorem exists_spells_shown (h : ∃ vs, Spells cs vs) (ws : List (List Char)) :
    ∃ vs, Spells (ws.flatMap (fun w => quote w ++ [' ']) ++ cs) vs := by
  induction ws with
  | nil => exact h
  | cons w ws ih =>
    obtain ⟨vs, hv⟩ := ih
    obtain ⟨ss, hs⟩ := exists_segments_shown w
    rw [List.flatMap_cons, List.append_assoc, List.append_assoc, List.singleton_append]
    rcases hs (ws.flatMap (fun w => quote w ++ [' ']) ++ cs) with he | he
    · rw [he]
      exact hv.cons_blank (by decide)
    · rw [he]
      exact hv.textOf_append _

end Grammar

section Shown

variable (p : Place)

theorem display_append (ws : List (List Char)) (w : List Char) (vs : List (List Char)) :
    display (ws ++ w :: vs) = ws.flatMap (fun w => quote w ++ [' ']) ++ display (w :: vs) := by
  induction ws with
  | nil => rfl
  | cons v ws ih =>
    have hf : following (ws ++ w :: vs) = ' ' :: display (ws ++ w :: vs) := by
      cases ws <;> rfl
    rw [List.cons_append, display_cons, hf, ih]
    simp

theorem exists_display_eq (hc : p.char ≠ '\'') :
    ∃ post, display p.words = p.shownBefore ++ p.char :: post := by
  have hw : ∃ post, quote p.word =
      (if needsQuotes p.word then '\'' :: p.left.flatMap quoteChar else p.left) ++
        p.char :: post := by
    rw [quote]
    split
    · exact ⟨p.right.flatMap quoteChar ++ ['\''], by simp [Place.word, quoteChar, hc]⟩
    · exact ⟨p.right, rfl⟩
  obtain ⟨post, hpost⟩ := hw
  refine ⟨post ++ following p.after, ?_⟩
  rw [Place.words, display_append, display_cons, hpost, Place.shownBefore]
  simp

/-- A character of a shown word is inside quotes exactly when the word is in quotes. -/
theorem endsInside_shownBefore_iff :
    (∃ q, EndsInside q p.shownBefore) ↔ HoldsQuoted p.word := by
  have hne : p.word ≠ [] := by simp [Place.word]
  by_cases hq : HoldsQuoted p.word
  · refine iff_of_true ⟨.single, ?_⟩ hq
    rw [Place.shownBefore, if_pos (needsQuotes_iff.2 (Or.inr hq))]
    obtain ⟨ss, as, ht, ha, -⟩ := exists_open_quote p.left
    rw [ht]
    exact endsInside_shown (.single ha) p.before
  · refine iff_of_false ?_ hq
    rintro ⟨q, he⟩
    have hn : ¬ needsQuotes p.word = true := by
      rw [needsQuotes_iff, not_or]
      exact ⟨hne, hq⟩
    rw [Place.shownBefore, if_neg hn] at he
    have hl : ¬ HoldsQuoted p.left := by
      rintro ⟨c, hc, h⟩
      exact hq ⟨c, List.mem_append_left _ hc, h⟩
    have hs : ∃ vs, Spells p.left vs := by
      obtain ⟨ss, ht | ht⟩ := exists_segments_bare hl
      · rw [ht]
        exact exists_spells_textOf ss
      · rw [ht]
        exact ⟨_, .dangling⟩
    obtain ⟨vs, hv⟩ := exists_spells_shown hs p.before
    exact hv.not_endsInside q he

end Shown

theorem exists_cons_of_read_single {p cs : List Char} {ws : List (List Char)}
    (h : read .single (some p) cs = some ws) : ∃ y after, ws = (p ++ y) :: after := by
  by_cases hm : '\'' ∈ cs
  · obtain ⟨as, r, rfl, ha⟩ := List.eq_append_cons_of_mem hm
    rw [read_single_append ha, read_single_close] at h
    obtain ⟨y, after, hy⟩ := exists_cons_of_read h
    exact ⟨as ++ y, after, by rw [hy, List.append_assoc]⟩
  · have hn := read_single_append hm p []
    rw [List.append_nil, h, read_single_nil] at hn
    exact absurd hn (by simp)

theorem split_textOf_single (ss : List Segment) (cs : List Char) :
    split (textOf ss ++ '\'' :: cs) = read .single (some (valueOf ss)) cs := by
  cases ss with
  | nil => rfl
  | cons s ss =>
    rw [split_textOf (List.cons_ne_nil s ss), read_bare_single, Option.getD_some]

/-- A character in single quotes is a character of a word: the words so far are those of
the line up to it, with the quote closed. -/
theorem exists_place {q : Quote} {a b : List Char} {c : Char} {ws : List (List Char)}
    (ha : EndsInside q a) (hq : q = .single) (hc : c ≠ '\'')
    (h : split (a ++ c :: b) = some ws) :
    ∃ p : Place, p.char = c ∧ p.words = ws ∧
      split (a ++ ['\'']) = some (p.before ++ [p.left]) := by
  induction ha generalizing ws with
  | double | doubleDangling => exact absurd hq (by decide)
  | @single ss cs hm =>
    rw [List.append_assoc, List.cons_append, split_textOf_single, read_single_append hm,
      read_single_cons, if_neg hc, Option.getD_some] at h
    obtain ⟨y, after, rfl⟩ := exists_cons_of_read_single h
    refine ⟨⟨[], valueOf ss ++ cs, c, y, after⟩, rfl, ?_, ?_⟩
    · simp [Place.words, Place.word]
    · rw [List.append_assoc, List.cons_append, split_textOf_single, read_single_append hm,
        read_single_close, read_bare_nil]
      rfl
  | @later q ss d cs hd _ ih =>
    rw [List.append_assoc, List.cons_append] at h ⊢
    cases ss with
    | nil =>
      rw [textOf_nil, List.nil_append, split_blank hd] at h ⊢
      exact ih hq h
    | cons s ss =>
      have hss := List.cons_ne_nil s ss
      rw [split_textOf_blank hss hd] at h ⊢
      obtain ⟨vs, hvs, rfl⟩ := Option.map_eq_some_iff.1 h
      obtain ⟨p, hpc, hpw, hpl⟩ := ih hq hvs
      refine ⟨{ p with before := valueOf (s :: ss) :: p.before }, hpc, ?_, ?_⟩
      · rw [← hpw]
        rfl
      · rw [hpl]
        rfl

theorem ofLine_of_command {line : String} {c : Command} (h : Command.ofLine line = .ok c) :
    ofLine line = some (c.program.text :: c.args) := by
  rw [Command.ofLine] at h
  split at h
  · exact absurd h (by simp)
  · exact absurd h (by simp)
  · rename_i program args he
    rw [Except.ok.injEq] at h
    rw [he, ← h]

/-- A character that a line has in single quotes stands inside quotes in the text handed to
the shell exactly when its word holds a blank or a quote. -/
theorem inside_shown_iff {line : String} {c : Command} (h : Command.ofLine line = .ok c)
    {a b : List Char} {ch : Char} (hl : line.toList = a ++ ch :: b) (ha : EndsInside .single a)
    (hc : ch ≠ '\'') :
    ∃ p : Place, p.char = ch ∧ p.words = (c.program.text :: c.args).map String.toList ∧
      split (a ++ ['\'']) = some (p.before ++ [p.left]) ∧
      ∃ shown post, ({ c with viaShell := true } : Command).toRun = (⟨"sh"⟩, ["-c", shown]) ∧
        shown.toList = p.shownBefore ++ ch :: post ∧
        ((∃ q, EndsInside q p.shownBefore) ↔
          ∃ d ∈ p.word, Text.isBlank d = true ∨ d = '"' ∨ d = '\'') := by
  have hs : split (a ++ ch :: b) = some ((c.program.text :: c.args).map String.toList) := by
    rw [← hl]
    exact ofLine_eq_some_iff.1 (ofLine_of_command h)
  obtain ⟨p, rfl, hw, hp⟩ := exists_place ha rfl hc hs
  obtain ⟨post, hpost⟩ := exists_display_eq p hc
  refine ⟨p, rfl, hw, hp, c.display, post, rfl, ?_, endsInside_shownBefore_iff p⟩
  rw [Command.display, String.toList_ofList, ← hw, hpost]

theorem inside_shown_dollar :
    Command.ofLine "p a'$ x'" = .ok { program := ⟨"p"⟩, args := ["a$ x"] } ∧
      "p a'$ x'".toList = "p a'".toList ++ '$' :: " x'".toList ∧
      EndsInside .single "p a'".toList ∧ '$' ≠ '\'' ∧
      ∃ p : Place, p.char = '$' ∧ p.word = "a$ x".toList ∧ ∃ q, EndsInside q p.shownBefore := by
  have h1 : Command.ofLine "p a'$ x'" = .ok { program := ⟨"p"⟩, args := ["a$ x"] } := by rfl
  have h2 : "p a'$ x'".toList = "p a'".toList ++ '$' :: " x'".toList := by decide
  have h3 : EndsInside .single "p a'".toList :=
    @EndsInside.later .single [.bare 'p' rfl] ' ' _ rfl
      (@EndsInside.single [.bare 'a' rfl] [] (by decide))
  have h4 : '$' ≠ '\'' := by decide
  obtain ⟨p, hc, hw, hs, -, -, -, -, hi⟩ := inside_shown_iff h1 h2 h3 h4
  have hb : p.before ++ [p.left] = ["p".toList] ++ ["a".toList] :=
    (Option.some_inj.1 (hs.symm.trans (by rfl : _ = some ["p".toList, "a".toList])))
  have hp : p.word = "a$ x".toList := by
    rw [Place.words, (List.append_inj' hb rfl).1] at hw
    exact (List.cons.inj (List.cons.inj hw).2).1
  have hblank : ' ' ∈ p.word := by
    rw [hp]
    decide
  exact ⟨h1, h2, h3, h4, p, hc, hp, hi.2 ⟨' ', hblank, Or.inl (by decide)⟩⟩

/-- A glob in quotes is shown without them. -/
theorem star_shown_bare :
    Command.ofLine "echo '*'" = .ok { program := ⟨"echo"⟩, args := ["*"] } ∧
      "echo '*'".toList = "echo '".toList ++ '*' :: "'".toList ∧
      EndsInside .single "echo '".toList ∧
      ({ program := ⟨"echo"⟩, args := ["*"], viaShell := true } : Command).toRun =
        (⟨"sh"⟩, ["-c", "echo *"]) ∧
      "echo *".toList = "echo ".toList ++ '*' :: [] ∧ ∀ q, ¬ EndsInside q "echo ".toList := by
  refine ⟨by rfl, by decide, ?_, by rfl, by decide, ?_⟩
  · exact @EndsInside.later .single [.bare 'e' rfl, .bare 'c' rfl, .bare 'h' rfl, .bare 'o' rfl]
      ' ' _ rfl (@EndsInside.single [] [] (by decide))
  · have hs : split "echo ".toList = some ["echo".toList] := by rfl
    exact (split_eq_some_iff.1 hs).not_endsInside

end ConanPipeline.Words
