import ConanPipeline.Command
import ConanPipeline.Proofs.Text.Lines

/-! The grammar of command lines. A text spells words, or it ends inside a quote
(`spells_or_endsInside`), and the reader finds out which: it gives the words a line spells
(`split_of_spells`) and nothing for a line that ends inside a quote
(`split_of_endsInside`). -/

namespace ConanPipeline.Words

/-- A character that stands for itself outside quotes. -/
def isPlain (c : Char) : Bool := !(Text.isBlank c || c == '\'' || c == '"' || c == '\\')

/-- What double quotes hold: characters, and pairs of a backslash and a character. -/
inductive Piece where
  | plain (c : Char) (h : c ≠ '"' ∧ c ≠ '\\')
  | pair (c : Char)

namespace Piece

def text : Piece → List Char
  | plain c _ => [c]
  | pair c => ['\\', c]

/-- A pair is an escape before a quote or a backslash, and two characters otherwise. -/
def value : Piece → List Char
  | plain c _ => [c]
  | pair c => if c = '"' ∨ c = '\\' then [c] else ['\\', c]

end Piece

def piecesText (ps : List Piece) : List Char := ps.flatMap Piece.text

def piecesValue (ps : List Piece) : List Char := ps.flatMap Piece.value

/-- What words are made of. -/
inductive Segment where
  | bare (c : Char) (h : isPlain c = true)
  | escaped (c : Char)
  | single (cs : List Char) (h : '\'' ∉ cs)
  | double (ps : List Piece)

namespace Segment

def text : Segment → List Char
  | bare c _ => [c]
  | escaped c => ['\\', c]
  | single cs _ => '\'' :: cs ++ ['\'']
  | double ps => '"' :: piecesText ps ++ ['"']

def value : Segment → List Char
  | bare c _ => [c]
  | escaped c => [c]
  | single cs _ => cs
  | double ps => piecesValue ps

end Segment

def textOf (ss : List Segment) : List Char := ss.flatMap Segment.text

def valueOf (ss : List Segment) : List Char := ss.flatMap Segment.value

/-- The text is a line of these words: words are sequences of segments, not empty, and
blanks stand between them. A backslash that ends the line belongs to a word and adds
nothing to it. -/
inductive Spells : List Char → List (List Char) → Prop where
  | nil : Spells [] []
  | blank {c : Char} {cs : List Char} {ws : List (List Char)} (h : Text.isBlank c = true)
      (hr : Spells cs ws) : Spells (c :: cs) ws
  | word {ss : List Segment} {c : Char} {cs : List Char} {ws : List (List Char)} (hs : ss ≠ [])
      (h : Text.isBlank c = true) (hr : Spells cs ws) :
      Spells (textOf ss ++ c :: cs) (valueOf ss :: ws)
  | last {ss : List Segment} (hs : ss ≠ []) : Spells (textOf ss) [valueOf ss]
  | dangling {ss : List Segment} : Spells (textOf ss ++ ['\\']) [valueOf ss]

/-- The text ends inside a quote of this kind, which may be cut after a backslash. -/
inductive EndsInside : Quote → List Char → Prop where
  | single {ss : List Segment} {cs : List Char} (h : '\'' ∉ cs) :
      EndsInside .single (textOf ss ++ '\'' :: cs)
  | double {ss : List Segment} {ps : List Piece} :
      EndsInside .double (textOf ss ++ '"' :: piecesText ps)
  | doubleDangling {ss : List Segment} {ps : List Piece} :
      EndsInside .double (textOf ss ++ '"' :: (piecesText ps ++ ['\\']))
  | later {q : Quote} {ss : List Segment} {c : Char} {cs : List Char}
      (h : Text.isBlank c = true) (hr : EndsInside q cs) : EndsInside q (textOf ss ++ c :: cs)

@[simp] theorem textOf_nil : textOf [] = [] := rfl

@[simp] theorem textOf_cons (s : Segment) (ss : List Segment) :
    textOf (s :: ss) = s.text ++ textOf ss := rfl

@[simp] theorem textOf_append (ss ts : List Segment) : textOf (ss ++ ts) = textOf ss ++ textOf ts :=
  List.flatMap_append

@[simp] theorem valueOf_nil : valueOf [] = [] := rfl

@[simp] theorem valueOf_cons (s : Segment) (ss : List Segment) :
    valueOf (s :: ss) = s.value ++ valueOf ss := rfl

@[simp] theorem valueOf_append (ss ts : List Segment) :
    valueOf (ss ++ ts) = valueOf ss ++ valueOf ts :=
  List.flatMap_append

section Reader

variable {c : Char}

theorem isPlain_iff : isPlain c = true ↔
    Text.isBlank c = false ∧ c ≠ '\'' ∧ c ≠ '"' ∧ c ≠ '\\' := by
  simp [isPlain, and_assoc]

theorem ne_backslash_of_isBlank (h : Text.isBlank c = true) : c ≠ '\\' := by
  rintro rfl
  exact absurd h (by decide)

theorem read_bare_nil (w : Option (List Char)) : read .bare w [] = some w.toList := rfl

theorem read_bare_backslash (w : Option (List Char)) :
    read .bare w ['\\'] = some [w.getD []] := rfl

theorem read_bare_escaped (w : Option (List Char)) (c : Char) (cs : List Char) :
    read .bare w ('\\' :: c :: cs) = read .bare (some (w.getD [] ++ [c])) cs := rfl

theorem read_bare_cons (h : c ≠ '\\') (w : Option (List Char)) (cs : List Char) :
    read .bare w (c :: cs) =
      if Text.isBlank c then (read .bare none cs).map (w.toList ++ ·)
      else if c = '\'' then read .single (some (w.getD [])) cs
      else if c = '"' then read .double (some (w.getD [])) cs
      else read .bare (some (w.getD [] ++ [c])) cs := by
  rw [read.eq_def]
  split <;> simp_all

theorem read_single_nil (w : Option (List Char)) : read .single w [] = none := rfl

theorem read_single_cons (w : Option (List Char)) (c : Char) (cs : List Char) :
    read .single w (c :: cs) =
      if c = '\'' then read .bare w cs else read .single (some (w.getD [] ++ [c])) cs := by
  rw [read.eq_def]

theorem read_double_pair (w : Option (List Char)) (c : Char) (cs : List Char) :
    read .double w ('\\' :: c :: cs) =
      if c = '"' || c = '\\' then read .double (some (w.getD [] ++ [c])) cs
      else read .double (some (w.getD [] ++ ['\\', c])) cs := rfl

theorem read_double_cons (h : c ≠ '\\') (w : Option (List Char)) (cs : List Char) :
    read .double w (c :: cs) =
      if c = '"' then read .bare w cs else read .double (some (w.getD [] ++ [c])) cs := by
  rw [read.eq_def]
  split <;> simp_all

theorem read_bare_blank (h : Text.isBlank c = true) (w : Option (List Char)) (cs : List Char) :
    read .bare w (c :: cs) = (read .bare none cs).map (w.toList ++ ·) := by
  rw [read_bare_cons (ne_backslash_of_isBlank h), if_pos h]

theorem read_bare_single (w : Option (List Char)) (cs : List Char) :
    read .bare w ('\'' :: cs) = read .single (some (w.getD [])) cs := by
  rw [read_bare_cons (by decide), if_neg (by decide), if_pos rfl]

theorem read_bare_double (w : Option (List Char)) (cs : List Char) :
    read .bare w ('"' :: cs) = read .double (some (w.getD [])) cs := by
  rw [read_bare_cons (by decide), if_neg (by decide), if_neg (by decide), if_pos rfl]

theorem read_bare_plain (h : isPlain c = true) (w : Option (List Char)) (cs : List Char) :
    read .bare w (c :: cs) = read .bare (some (w.getD [] ++ [c])) cs := by
  obtain ⟨hb, hs, hd, he⟩ := isPlain_iff.1 h
  rw [read_bare_cons he, if_neg (by simp [hb]), if_neg hs, if_neg hd]

theorem read_single_append {as : List Char} (h : '\'' ∉ as) (p cs : List Char) :
    read .single (some p) (as ++ cs) = read .single (some (p ++ as)) cs := by
  induction as generalizing p with
  | nil => simp
  | cons a as ih =>
    simp only [List.mem_cons, not_or] at h
    rw [List.cons_append, read_single_cons, if_neg (Ne.symm h.1), ih h.2]
    simp

theorem read_single_close (w : Option (List Char)) (cs : List Char) :
    read .single w ('\'' :: cs) = read .bare w cs := by
  rw [read_single_cons, if_pos rfl]

theorem read_double_piece (x : Piece) (p cs : List Char) :
    read .double (some p) (x.text ++ cs) = read .double (some (p ++ x.value)) cs := by
  cases x with
  | plain c h =>
    rw [Piece.text, List.singleton_append, read_double_cons h.2, if_neg h.1]
    rfl
  | pair c =>
    rw [Piece.text, List.cons_append, List.singleton_append, read_double_pair]
    by_cases h : c = '"' ∨ c = '\\' <;> simp [Piece.value, h]

theorem read_double_pieces (ps : List Piece) (p cs : List Char) :
    read .double (some p) (piecesText ps ++ cs) =
      read .double (some (p ++ piecesValue ps)) cs := by
  induction ps generalizing p with
  | nil => simp [piecesText, piecesValue]
  | cons x ps ih =>
    have hx := read_double_piece x p (piecesText ps ++ cs)
    rw [ih] at hx
    simpa [piecesText, piecesValue] using hx

theorem read_double_close (w : Option (List Char)) (cs : List Char) :
    read .double w ('"' :: cs) = read .bare w cs := by
  rw [read_double_cons (by decide), if_pos rfl]

theorem read_open_single {as : List Char} (h : '\'' ∉ as) (w : Option (List Char)) :
    read .bare w ('\'' :: as) = none := by
  have hr := read_single_append h (w.getD []) []
  rw [List.append_nil] at hr
  rw [read_bare_single, hr, read_single_nil]

theorem read_open_double (ps : List Piece) (w : Option (List Char)) :
    read .bare w ('"' :: piecesText ps) = none := by
  have hr := read_double_pieces ps (w.getD []) []
  rw [List.append_nil] at hr
  rw [read_bare_double, hr]
  rfl

theorem read_open_dangling (ps : List Piece) (w : Option (List Char)) :
    read .bare w ('"' :: (piecesText ps ++ ['\\'])) = none := by
  rw [read_bare_double, read_double_pieces]
  rfl

theorem read_segment (s : Segment) (w : Option (List Char)) (cs : List Char) :
    read .bare w (s.text ++ cs) = read .bare (some (w.getD [] ++ s.value)) cs := by
  cases s with
  | bare c h => exact read_bare_plain h w cs
  | escaped c => exact read_bare_escaped w c cs
  | single as h =>
    rw [Segment.text, List.append_assoc, List.cons_append, read_bare_single,
      read_single_append h, List.singleton_append, read_single_close]
    rfl
  | double ps =>
    rw [Segment.text, List.append_assoc, List.cons_append, read_bare_double,
      read_double_pieces, List.singleton_append, read_double_close]
    rfl

theorem read_some_textOf (ss : List Segment) (p cs : List Char) :
    read .bare (some p) (textOf ss ++ cs) = read .bare (some (p ++ valueOf ss)) cs := by
  induction ss generalizing p with
  | nil => simp
  | cons s ss ih =>
    rw [textOf_cons, List.append_assoc, read_segment, ih]
    simp

theorem split_textOf {ss : List Segment} (hs : ss ≠ []) (cs : List Char) :
    split (textOf ss ++ cs) = read .bare (some (valueOf ss)) cs := by
  obtain ⟨s, ss, rfl⟩ := List.exists_cons_of_ne_nil hs
  rw [split, textOf_cons, List.append_assoc, read_segment, read_some_textOf]
  simp

/-- Segments in front of a blank are a word of their own. -/
theorem split_textOf_blank {ss : List Segment} (hs : ss ≠ []) {c : Char}
    (h : Text.isBlank c = true) (cs : List Char) :
    split (textOf ss ++ c :: cs) = (split cs).map (valueOf ss :: ·) := by
  rw [split_textOf hs, read_bare_blank h]
  rfl

theorem split_blank {c : Char} (h : Text.isBlank c = true) (cs : List Char) :
    split (c :: cs) = split cs := by
  rw [split, read_bare_blank h, split]
  simp

end Reader

theorem split_of_spells {cs : List Char} {ws : List (List Char)} (h : Spells cs ws) :
    split cs = some ws := by
  induction h with
  | nil => rfl
  | blank h _ ih => rw [split_blank h, ih]
  | word hs h _ ih => rw [split_textOf_blank hs h, ih, Option.map_some]
  | @last ss hs =>
    have h := split_textOf hs []
    rw [List.append_nil] at h
    rw [h, read_bare_nil]
    rfl
  | @dangling ss =>
    cases ss with
    | nil => rfl
    | cons s ss =>
      rw [split_textOf (List.cons_ne_nil s ss), read_bare_backslash]
      rfl

/-- A line fails where its last word does. -/
theorem split_textOf_of_none {cs : List Char} {ss : List Segment}
    (h : ∀ w, read .bare w cs = none) : split (textOf ss ++ cs) = none := by
  cases ss with
  | nil => exact h none
  | cons s ss => rw [split_textOf (List.cons_ne_nil s ss), h]

theorem split_of_endsInside {q : Quote} {cs : List Char} (h : EndsInside q cs) :
    split cs = none := by
  induction h with
  | single h => exact split_textOf_of_none (read_open_single h)
  | @double _ ps => exact split_textOf_of_none (read_open_double ps)
  | @doubleDangling _ ps => exact split_textOf_of_none (read_open_dangling ps)
  | @later q ss c cs h _ ih =>
    refine split_textOf_of_none fun w => ?_
    rw [read_bare_blank h, show read .bare none cs = none from ih, Option.map_none]

/-- Where the segments of a word stop: at the end of the word or in a quote that is not
closed. -/
inductive Stop : List Char → Prop where
  | nil : Stop []
  | blank {c : Char} {cs : List Char} (h : Text.isBlank c = true) : Stop (c :: cs)
  | dangling : Stop ['\\']
  | single {cs : List Char} (h : '\'' ∉ cs) : Stop ('\'' :: cs)
  | double {ps : List Piece} : Stop ('"' :: piecesText ps)
  | doubleDangling {ps : List Piece} : Stop ('"' :: (piecesText ps ++ ['\\']))

theorem exists_pieces (cs : List Char) : ∃ ps rest, cs = piecesText ps ++ rest ∧
    (rest = [] ∨ rest = ['\\'] ∨ ∃ r, rest = '"' :: r) := by
  -- in steps of two: a pair takes both characters, a plain one only the first
  induction cs using List.twoStepInduction with
  | nil => exact ⟨[], [], rfl, Or.inl rfl⟩
  | singleton c =>
    by_cases hq : c = '"'
    · exact ⟨[], [c], rfl, Or.inr (Or.inr ⟨[], by rw [hq]⟩)⟩
    · by_cases hb : c = '\\'
      · exact ⟨[], [c], rfl, Or.inr (Or.inl (by rw [hb]))⟩
      · exact ⟨[.plain c ⟨hq, hb⟩], [], rfl, Or.inl rfl⟩
  | cons_cons c d cs ih ihd =>
    by_cases hq : c = '"'
    · exact ⟨[], c :: d :: cs, rfl, Or.inr (Or.inr ⟨d :: cs, by rw [hq]⟩)⟩
    · by_cases hb : c = '\\'
      · subst hb
        obtain ⟨ps, rest, rfl, hr⟩ := ih
        exact ⟨.pair d :: ps, rest, rfl, hr⟩
      · obtain ⟨ps, rest, he, hr⟩ := ihd d
        exact ⟨.plain c ⟨hq, hb⟩ :: ps, rest, by rw [he]; rfl, hr⟩

theorem exists_segments (cs : List Char) : ∃ ss rest, cs = textOf ss ++ rest ∧ Stop rest := by
  induction h : cs.length using Nat.strongRecOn generalizing cs with
  | ind n ih =>
    subst h
    have goesOn : ∀ (s : Segment) (r : List Char), cs = s.text ++ r → r.length < cs.length →
        ∃ ss rest, cs = textOf ss ++ rest ∧ Stop rest := by
      intro s r he hl
      obtain ⟨ss, rest, hr, hstop⟩ := ih r.length hl r rfl
      exact ⟨s :: ss, rest, by rw [he, hr, textOf_cons, List.append_assoc], hstop⟩
    match cs with
    | [] => exact ⟨[], [], rfl, .nil⟩
    | c :: r =>
      by_cases hblank : Text.isBlank c = true
      · exact ⟨[], c :: r, rfl, .blank hblank⟩
      by_cases hs : c = '\''
      · subst hs
        by_cases hm : '\'' ∈ r
        · obtain ⟨as, bs, hr, ha⟩ := List.eq_append_cons_of_mem hm
          subst hr
          exact goesOn (.single as ha) bs (by simp [Segment.text]) (by simp; omega)
        · exact ⟨[], '\'' :: r, rfl, .single hm⟩
      by_cases hd : c = '"'
      · subst hd
        obtain ⟨ps, rest, rfl, rfl | rfl | ⟨bs, rfl⟩⟩ := exists_pieces r
        · exact ⟨[], _, rfl, by rw [List.append_nil]; exact .double⟩
        · exact ⟨[], _, rfl, .doubleDangling⟩
        · exact goesOn (.double ps) bs (by simp [Segment.text]) (by simp; omega)
      by_cases hb : c = '\\'
      · subst hb
        cases r with
        | nil => exact ⟨[], ['\\'], rfl, .dangling⟩
        | cons d r => exact goesOn (.escaped d) r rfl (by rw [List.length_cons, List.length_cons]; omega)
      · have hp : isPlain c = true := isPlain_iff.2 ⟨by simpa using hblank, hs, hd, hb⟩
        exact goesOn (.bare c hp) r rfl (by simp)

/-- Segments, then a blank, in front of what spells words. -/
theorem Spells.cons_blank {ss : List Segment} {c : Char} {cs : List Char} {ws : List (List Char)}
    (h : Text.isBlank c = true) (hr : Spells cs ws) : ∃ ws', Spells (textOf ss ++ c :: cs) ws' := by
  cases ss with
  | nil => exact ⟨ws, hr.blank h⟩
  | cons s ss => exact ⟨_, .word (List.cons_ne_nil s ss) h hr⟩

theorem spells_or_endsInside (cs : List Char) :
    (∃ ws, Spells cs ws) ∨ ∃ q, EndsInside q cs := by
  induction h : cs.length using Nat.strongRecOn generalizing cs with
  | ind n ih =>
    obtain ⟨ss, rest, rfl, hstop⟩ := exists_segments cs
    cases hstop with
    | nil =>
      left
      rw [List.append_nil]
      cases ss with
      | nil => exact ⟨[], .nil⟩
      | cons s ss => exact ⟨_, .last (List.cons_ne_nil s ss)⟩
    | @blank c cs hb =>
      have hl : cs.length < n := by
        rw [← h, List.length_append, List.length_cons]
        omega
      rcases ih cs.length hl cs rfl with ⟨ws, hr⟩ | ⟨q, hr⟩
      · exact Or.inl (hr.cons_blank hb)
      · exact Or.inr ⟨q, .later hb hr⟩
    | dangling => exact Or.inl ⟨_, .dangling⟩
    | single hm => exact Or.inr ⟨.single, .single hm⟩
    | double => exact Or.inr ⟨.double, .double⟩
    | doubleDangling => exact Or.inr ⟨.double, .doubleDangling⟩

theorem split_eq_some_iff {cs : List Char} {ws : List (List Char)} :
    split cs = some ws ↔ Spells cs ws := by
  constructor
  · intro h
    rcases spells_or_endsInside cs with ⟨ws', hs⟩ | ⟨q, he⟩
    · rw [split_of_spells hs, Option.some_inj] at h
      rw [← h]
      exact hs
    · rw [split_of_endsInside he] at h
      exact absurd h (by simp)
  · exact split_of_spells

theorem split_eq_none_iff {cs : List Char} : split cs = none ↔ ∃ q, EndsInside q cs := by
  constructor
  · intro h
    rcases spells_or_endsInside cs with ⟨ws, hs⟩ | he
    · rw [split_of_spells hs] at h
      exact absurd h (by simp)
    · exact he
  · rintro ⟨q, he⟩
    exact split_of_endsInside he

theorem ofLine_eq_some_iff {line : String} {ws : List String} :
    ofLine line = some ws ↔ split line.toList = some (ws.map String.toList) := by
  rw [ofLine, Option.map_eq_some_iff]
  constructor
  · rintro ⟨ls, h, rfl⟩
    rw [h, List.map_map]
    simp [Function.comp_def]
  · intro h
    exact ⟨_, h, by simp [Function.comp_def]⟩

theorem ofLine_eq_none_iff {line : String} : ofLine line = none ↔ split line.toList = none := by
  rw [ofLine, Option.map_eq_none_iff]

/-- The text of the refusal tells an open quote from a line without words. -/
theorem command_ofLine_eq_error_iff {line : String} :
    Command.ofLine line =
        .error (.of (.badArgument ("unterminated quote in command line: " ++ line))) ↔
      ofLine line = none := by
  constructor
  · intro h
    rw [Command.ofLine] at h
    split at h
    · assumption
    · have he : "command line is empty" = "unterminated quote in command line: " ++ line := by
        simpa [Failure.of] using h
      have hc := congrArg (fun s => s.toList.head?) he
      rw [String.toList_append] at hc
      exact absurd hc (by simp)
    · exact absurd h (by simp)
  · intro h
    rw [Command.ofLine, h]

/-- A line reads as words exactly when it spells them, and is refused exactly when it ends
inside a quote. -/
theorem ofLine_iff (line : String) :
    (∀ ws, ofLine line = some ws ↔ Spells line.toList (ws.map String.toList)) ∧
      (ofLine line = none ↔ ∃ q, EndsInside q line.toList) ∧
      (Command.ofLine line =
          .error (.of (.badArgument ("unterminated quote in command line: " ++ line))) ↔
        ∃ q, EndsInside q line.toList) := by
  have hn : ofLine line = none ↔ ∃ q, EndsInside q line.toList :=
    ofLine_eq_none_iff.trans split_eq_none_iff
  refine ⟨fun ws => ?_, hn, command_ofLine_eq_error_iff.trans hn⟩
  rw [ofLine_eq_some_iff, split_eq_some_iff]

end ConanPipeline.Words
