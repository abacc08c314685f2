import ConanPipeline.Proofs.Words.Grammar

/-! Shown words read back. A word in quotes is spelled by segments with its own value
(`exists_segments_quoted`), and so is a bare word without backslashes. A backslash in a bare
word is lost, or takes the space behind it into the word, so such a word never reads back
(`split_bare_ne`). -/

namespace ConanPipeline.Words

/-- What makes a word be shown in quotes, if it is not empty. -/
def HoldsQuoted (w : List Char) : Prop :=
  ∃ c ∈ w, Text.isBlank c = true ∨ c = '"' ∨ c = '\''

instance (w : List Char) : Decidable (HoldsQuoted w) :=
  decidable_of_iff ((w.any fun c => Text.isBlank c || c == '"' || c == '\'') = true)
    (by simp [HoldsQuoted, or_assoc])

/-- Backslashes stand in quotes. -/
def ReadsBack (w : List Char) : Prop := '\\' ∈ w → HoldsQuoted w

instance (w : List Char) : Decidable (ReadsBack w) :=
  inferInstanceAs (Decidable ('\\' ∈ w → HoldsQuoted w))

section Quote

variable {w : List Char}

theorem needsQuotes_iff : needsQuotes w = true ↔ w = [] ∨ HoldsQuoted w := by
  simp [needsQuotes, HoldsQuoted, or_assoc]

theorem quote_of_needsQuotes (h : w = [] ∨ HoldsQuoted w) :
    quote w = '\'' :: w.flatMap quoteChar ++ ['\''] := by
  rw [quote, if_pos (needsQuotes_iff.2 h)]

theorem quote_of_bare (hne : w ≠ []) (h : ¬ HoldsQuoted w) : quote w = w := by
  rw [quote, if_neg]
  rw [needsQuotes_iff, not_or]
  exact ⟨hne, h⟩

/-- What single quotes show of a word so far, and the quote that is still open. -/
theorem exists_open_quote (x : List Char) : ∃ ss as,
    '\'' :: x.flatMap quoteChar = textOf ss ++ '\'' :: as ∧ '\'' ∉ as ∧ valueOf ss ++ as = x := by
  induction x using List.reverseRecOn with
  | nil => exact ⟨[], [], rfl, by simp, rfl⟩
  | append_singleton x c ih =>
    obtain ⟨ss, as, ht, ha, hv⟩ := ih
    rw [List.flatMap_append, ← List.cons_append, ht]
    by_cases hc : c = '\''
    · subst hc
      -- the quote closes, a quote of its own follows, and another one opens
      refine ⟨ss ++ [.single as ha, .escaped '\''], [], ?_, by simp, ?_⟩
      · simp [quoteChar, Segment.text]
      · simp [Segment.value, ← hv]
    · refine ⟨ss, as ++ [c], ?_, ?_, ?_⟩
      · simp [quoteChar, hc]
      · simp [ha, Ne.symm hc]
      · rw [← List.append_assoc, hv]

theorem exists_segments_quoted (w : List Char) : ∃ ss, ss ≠ [] ∧
    '\'' :: w.flatMap quoteChar ++ ['\''] = textOf ss ∧ valueOf ss = w := by
  obtain ⟨ss, as, ht, ha, hv⟩ := exists_open_quote w
  refine ⟨ss ++ [.single as ha], by simp, ?_, ?_⟩
  · simp [ht, Segment.text]
  · simpa [Segment.value] using hv

theorem exists_segments_bare (h : ¬ HoldsQuoted w) :
    ∃ ss, w = textOf ss ∨ w = textOf ss ++ ['\\'] := by
  obtain ⟨ss, rest, rfl, hstop⟩ := exists_segments w
  refine ⟨ss, ?_⟩
  cases hstop with
  | nil => exact Or.inl (List.append_nil _)
  | dangling => exact Or.inr rfl
  | @blank c cs hb => exact absurd ⟨c, by simp, Or.inl hb⟩ h
  | single => exact absurd ⟨'\'', by simp, Or.inr (Or.inr rfl)⟩ h
  | double => exact absurd ⟨'"', by simp, Or.inr (Or.inl rfl)⟩ h
  | doubleDangling => exact absurd ⟨'"', by simp, Or.inr (Or.inl rfl)⟩ h

theorem length_piece_le (x : Piece) : x.value.length ≤ x.text.length := by
  cases x with
  | plain c h => exact Nat.le_refl _
  | pair c => by_cases h : c = '"' ∨ c = '\\' <;> simp [Piece.text, Piece.value, h]

theorem length_pieces_le (ps : List Piece) : (piecesValue ps).length ≤ (piecesText ps).length := by
  induction ps with
  | nil => exact Nat.le_refl _
  | cons x ps ih =>
    have hx := length_piece_le x
    simp only [piecesValue, piecesText, List.flatMap_cons, List.length_append] at ih ⊢
    omega

/-- Only a bare character is as long as its value. -/
theorem segment_cases (s : Segment) :
    (∃ c, isPlain c = true ∧ s.text = [c] ∧ s.value = [c]) ∨ s.value.length < s.text.length := by
  cases s with
  | bare c h => exact Or.inl ⟨c, h, rfl, rfl⟩
  | escaped c => exact Or.inr (by simp [Segment.text, Segment.value])
  | single cs h =>
    right
    rw [Segment.text, Segment.value, List.length_append, List.length_cons]
    omega
  | double ps =>
    have h := length_pieces_le ps
    right
    rw [Segment.text, Segment.value, List.length_append, List.length_cons]
    omega

theorem length_valueOf_le (ss : List Segment) : (valueOf ss).length ≤ (textOf ss).length := by
  induction ss with
  | nil => exact Nat.le_refl _
  | cons s ss ih =>
    rw [valueOf_cons, textOf_cons, List.length_append, List.length_append]
    rcases segment_cases s with ⟨c, -, ht, hv⟩ | hlt
    · rw [ht, hv]
      omega
    · omega

/-- A backslash in a text is not there in its value, or others are missing. -/
theorem length_valueOf_lt {ss : List Segment} (h : '\\' ∈ textOf ss) :
    (valueOf ss).length < (textOf ss).length := by
  induction ss with
  | nil => simp at h
  | cons s ss ih =>
    rw [valueOf_cons, textOf_cons, List.length_append, List.length_append]
    rw [textOf_cons, List.mem_append] at h
    rcases segment_cases s with ⟨c, hc, ht, hv⟩ | hlt
    · have hne : '\\' ≠ c := Ne.symm (isPlain_iff.1 hc).2.2.2
      have := ih (h.resolve_left (by simpa [ht] using hne))
      rw [ht, hv]
      omega
    · have := length_valueOf_le ss
      omega

/-- Without a backslash and quotes a text is its own value. -/
theorem valueOf_eq_textOf {ss : List Segment} (hb : '\\' ∉ textOf ss)
    (h : ¬ HoldsQuoted (textOf ss)) : valueOf ss = textOf ss := by
  induction ss with
  | nil => rfl
  | cons s ss ih =>
    rw [textOf_cons, List.mem_append, not_or] at hb
    have hs : ¬ HoldsQuoted s.text := by
      rintro ⟨c, hc, hq⟩
      exact h ⟨c, by simp [hc], hq⟩
    have hss : ¬ HoldsQuoted (textOf ss) := by
      rintro ⟨c, hc, hq⟩
      exact h ⟨c, by simp [hc], hq⟩
    rw [valueOf_cons, textOf_cons, ih hb.2 hss]
    cases s with
    | bare c h => rfl
    | escaped c => exact absurd (by simp [Segment.text]) hb.1
    | single cs _ => exact absurd ⟨'\'', by simp [Segment.text], Or.inr (Or.inr rfl)⟩ hs
    | double ps => exact absurd ⟨'"', by simp [Segment.text], Or.inr (Or.inl rfl)⟩ hs

theorem exists_segments_quote (h : ReadsBack w) :
    ∃ ss, ss ≠ [] ∧ quote w = textOf ss ∧ valueOf ss = w := by
  by_cases hq : w = [] ∨ HoldsQuoted w
  · rw [quote_of_needsQuotes hq]
    exact exists_segments_quoted w
  · rw [not_or] at hq
    have hb : '\\' ∉ w := fun hm => hq.2 (h hm)
    obtain ⟨ss, rfl | rfl⟩ := exists_segments_bare hq.2
    · refine ⟨ss, ?_, quote_of_bare hq.1 hq.2, valueOf_eq_textOf hb hq.2⟩
      rintro rfl
      exact hq.1 rfl
    · exact absurd (by simp) hb

end Quote

/-- The word begun so far begins the first of the words that are still to be read. -/
theorem exists_cons_of_read {p cs : List Char} {ws : List (List Char)}
    (h : read .bare (some p) cs = some ws) : ∃ y after, ws = (p ++ y) :: after := by
  obtain ⟨ss, rest, rfl, hstop⟩ := exists_segments cs
  rw [read_some_textOf] at h
  cases hstop with
  | nil =>
    rw [read_bare_nil, Option.toList_some, Option.some_inj] at h
    exact ⟨valueOf ss, [], h.symm⟩
  | dangling =>
    rw [read_bare_backslash, Option.getD_some, Option.some_inj] at h
    exact ⟨valueOf ss, [], h.symm⟩
  | blank hb =>
    rw [read_bare_blank hb, Option.map_eq_some_iff] at h
    obtain ⟨after, -, rfl⟩ := h
    exact ⟨valueOf ss, after, rfl⟩
  | single hm =>
    rw [read_open_single hm] at h
    exact absurd h (by simp)
  | @double ps =>
    rw [read_open_double ps] at h
    exact absurd h (by simp)
  | @doubleDangling ps =>
    rw [read_open_dangling ps] at h
    exact absurd h (by simp)

/-- What `display` writes behind a word. -/
def following : List (List Char) → List Char
  | [] => []
  | w :: ws => ' ' :: display (w :: ws)

theorem display_cons (w : List Char) (ws : List (List Char)) :
    display (w :: ws) = quote w ++ following ws := by
  cases ws with
  | nil => simp [display, following]
  | cons w' ws => simp [display, following, List.intercalate_cons_cons]

theorem split_bare_ne {w : List Char} (hb : '\\' ∈ w) (hn : ¬ HoldsQuoted w)
    (ws vs : List (List Char)) : split (w ++ following ws) ≠ some (w :: vs) := by
  intro h
  obtain ⟨ss, hw⟩ := exists_segments_bare hn
  have hle := length_valueOf_le ss
  rcases hw with rfl | rfl
  · -- the word ends where it is shown to end, without its backslash
    have hss : ss ≠ [] := by
      rintro rfl
      simp at hb
    have hlt := length_valueOf_lt hb
    have hne : valueOf ss ≠ textOf ss := fun he => by rw [he] at hlt; omega
    rw [split_textOf hss] at h
    cases ws with
    | nil =>
      rw [following, read_bare_nil, Option.toList_some, Option.some_inj, List.cons.injEq] at h
      exact hne h.1
    | cons w' ws =>
      rw [following, read_bare_blank (by decide), Option.map_eq_some_iff] at h
      obtain ⟨after, -, he⟩ := h
      rw [Option.toList_some, List.singleton_append, List.cons.injEq] at he
      exact hne he.1
  · cases ws with
    | nil =>
      rw [following, List.append_nil, split_of_spells .dangling, Option.some_inj,
        List.cons.injEq] at h
      have hlen := congrArg List.length h.1
      rw [List.length_append, List.length_singleton] at hlen
      omega
    | cons w' ws =>
      -- the last backslash takes the space, which the word does not hold
      have he : textOf ss ++ ['\\'] ++ following (w' :: ws) =
          textOf (ss ++ [.escaped ' ']) ++ display (w' :: ws) := by
        simp [following, Segment.text]
      rw [he, split_textOf (by simp)] at h
      obtain ⟨y, after, hy⟩ := exists_cons_of_read h
      rw [List.cons.injEq] at hy
      refine hn ⟨' ', ?_, Or.inl (by decide)⟩
      rw [hy.1]
      simp [Segment.value]

theorem split_display_iff (ws : List (List Char)) :
    split (display ws) = some ws ↔ ∀ w ∈ ws, ReadsBack w := by
  induction ws with
  | nil => exact ⟨fun _ => by simp, fun _ => rfl⟩
  | cons w ws ih =>
    rw [List.forall_mem_cons, ← ih, display_cons]
    by_cases hw : ReadsBack w
    · obtain ⟨ss, hss, ht, hv⟩ := exists_segments_quote hw
      rw [ht]
      cases ws with
      | nil =>
        rw [following, List.append_nil, split_of_spells (.last hss), hv]
        exact ⟨fun _ => ⟨hw, rfl⟩, fun _ => rfl⟩
      | cons w' ws =>
        rw [following, split_textOf_blank hss (by decide), hv]
        constructor
        · intro h
          obtain ⟨vs, hvs, he⟩ := Option.map_eq_some_iff.1 h
          rw [List.cons.injEq] at he
          exact ⟨hw, by rw [hvs, he.2]⟩
        · rintro ⟨-, h⟩
          rw [h, Option.map_some]
    · have hb := Classical.not_imp.1 hw
      have hne : w ≠ [] := List.ne_nil_of_mem hb.1
      rw [quote_of_bare hne hb.2]
      exact ⟨fun h => absurd h (split_bare_ne hb.1 hb.2 ws ws), fun h => absurd h.1 hw⟩

theorem readsBack_of_only_quotes {w : List Char} (h : ∀ c ∈ w, c = '"' ∨ c = '\'') :
    ReadsBack w := by
  intro hb
  exact absurd (h _ hb) (by decide)

/-- A shown command reads back as its program and arguments exactly when each of them that
holds a backslash is shown in quotes. So words of nothing but quotes, the empty one too, and
words with blanks never stand in the way. -/
theorem ofLine_display_iff (c : Command) :
    (ofLine c.display = some (c.program.text :: c.args) ↔
      ∀ s ∈ c.program.text :: c.args, '\\' ∈ s.toList →
        ∃ d ∈ s.toList, Text.isBlank d = true ∨ d = '"' ∨ d = '\'') ∧
      ((∀ s ∈ c.program.text :: c.args, (∀ d ∈ s.toList, d = '"' ∨ d = '\'') ∨
          ∃ d ∈ s.toList, Text.isBlank d = true) →
        ofLine c.display = some (c.program.text :: c.args)) := by
  have hiff : ofLine c.display = some (c.program.text :: c.args) ↔
      ∀ s ∈ c.program.text :: c.args, ReadsBack s.toList := by
    rw [ofLine_eq_some_iff, Command.display, String.toList_ofList, split_display_iff,
      List.forall_mem_map]
  refine ⟨hiff, fun h => hiff.2 fun s hs => ?_⟩
  rcases h s hs with hq | ⟨d, hd, hb⟩
  · exact readsBack_of_only_quotes hq
  · exact fun _ => ⟨d, hd, Or.inl hb⟩

theorem ofLine_display_of_blanks :
    let c : Command := { program := ⟨"a\\ b"⟩, args := ["", "'\"", "x\n\u2003"] }
    (∀ s ∈ c.program.text :: c.args, '\\' ∈ s.toList →
        ∃ d ∈ s.toList, Text.isBlank d = true ∨ d = '"' ∨ d = '\'') ∧
      ofLine c.display = some (c.program.text :: c.args) := by
  intro c
  have h : ∀ s ∈ c.program.text :: c.args, ReadsBack s.toList := by decide
  exact ⟨h, (ofLine_display_iff c).1.2 h⟩

end ConanPipeline.Words
