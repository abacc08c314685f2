import ConanPipeline.FileSystem.Resolve
import ConanPipeline.Proofs.Path
import ConanPipeline.Proofs.Text.Lines

/-! The names that a path goes through. The parent of a path goes through all of them but the
last (`parent_cases`), and a path joined to a directory goes on where the directory's words end
(`steps_join`). -/

namespace ConanPipeline.Path

/-- The pieces of a text that are not empty. -/
def words (cs : List Char) : List String := ((pieces cs).filter fun w => !w.isEmpty).map .ofList

/-- The pieces that name something: a dot does not. -/
def names (cs : List Char) : List String := ((pieces cs).filter fun w => !isIdle w).map .ofList

section Texts

variable {a b cs : List Char}

theorem words_append (a b : List Char) : words (a ++ '/' :: b) = words a ++ words b := by
  rw [words, pieces_append, List.filter_append, List.map_append]
  rfl

theorem names_append (a b : List Char) : names (a ++ '/' :: b) = names a ++ names b := by
  rw [names, pieces_append, List.filter_append, List.map_append]
  rfl

@[simp] theorem words_nil : words [] = [] := rfl

@[simp] theorem names_nil : names [] = [] := rfl

theorem names_slash (cs : List Char) : names ('/' :: cs) = names cs := names_append [] cs

theorem pieces_of_not_mem {w : List Char} (h : '/' ∉ w) : pieces w = [w] := by
  induction w with
  | nil => rfl
  | cons c w ih =>
    simp only [List.mem_cons, not_or] at h
    rw [pieces, if_neg (Ne.symm h.1), ih h.2]

theorem words_ne_nil {c : Char} (hc : c ≠ '/') (cs : List Char) : words (c :: cs) ≠ [] := by
  obtain ⟨w, ws, hw⟩ := List.exists_cons_of_ne_nil (pieces_ne_nil cs)
  rw [words, pieces, if_neg hc, hw]
  simp

theorem filter_words (cs : List Char) : (words cs).filter (· != ".") = names cs := by
  have hdot (w : List Char) : (String.ofList w != ".") = !(w == ['.']) := by
    have h : (String.ofList w = ".") ↔ w = ['.'] := @String.ofList_inj w ['.']
    rw [Bool.eq_iff_iff, bne_iff_ne, Bool.not_eq_true', beq_eq_false_iff_ne]
    exact not_congr h
  rw [words, names, List.filter_map, List.filter_filter]
  refine congrArg (List.map String.ofList) (List.filter_congr fun w _ => ?_)
  change ((String.ofList w != ".") && !w.isEmpty) = !isIdle w
  rw [hdot, isIdle]
  cases w.isEmpty <;> cases w == ['.'] <;> rfl

/-- The last piece is empty behind a slash. -/
theorem getLast?_pieces (cs : List Char) :
    (pieces cs).getLast? = some [] ↔ cs = [] ∨ cs.getLast? = some '/' := by
  induction cs with
  | nil => simp [pieces]
  | cons c cs ih =>
    cases cs with
    | nil => by_cases hc : c = '/' <;> simp [pieces, hc]
    | cons d cs =>
      obtain ⟨w, ws, hw⟩ := List.exists_cons_of_ne_nil (pieces_ne_nil (d :: cs))
      have hlast : (pieces (c :: d :: cs)).getLast? = some [] ↔
          (pieces (d :: cs)).getLast? = some [] := by
        rw [pieces, hw]
        split
        · rw [List.getLast?_cons_cons]
        · cases ws with
          | nil =>
            -- a text with one piece has no slash, so that piece is all of it
            have hd : d ≠ '/' := by
              intro hd
              rw [pieces, if_pos hd, List.cons.injEq] at hw
              exact pieces_ne_nil cs hw.2
            obtain ⟨v, vs, hv⟩ := List.exists_cons_of_ne_nil (pieces_ne_nil cs)
            rw [pieces, if_neg hd, hv, List.cons.injEq] at hw
            simp [← hw.1]
          | cons v ws => simp
      rw [hlast, ih]
      simp

theorem isAbsolute_ofChars {w : List Char} (hw : '/' ∉ w) : (ofChars w).isAbsolute = false := by
  rw [isAbsolute, chars_ofChars]
  cases w with
  | nil => rfl
  | cons c w =>
    simp only [List.mem_cons, not_or] at hw
    simpa using Ne.symm hw.1

end Texts

section Steps

variable {p q r t : Path} {s : String} {ds : List String}

theorem steps_eq (p : Path) :
    p.steps = words p.chars ++ if p.endsWithSlash = true ∧ words p.chars ≠ [] then ["."] else [] := by
  have hslash : p.endsWithSlash = true ↔ p.chars.getLast? = some '/' := by
    simp [endsWithSlash]
  rw [steps, List.map_append]
  refine congrArg (words p.chars ++ ·) ?_
  have hwords : ((pieces p.chars).filter fun w => !w.isEmpty).isEmpty = true ↔
      words p.chars = [] := by
    rw [words, List.map_eq_nil_iff, List.isEmpty_iff]
  split
  · rename_i hlast
    simp only [hwords]
    rcases (getLast?_pieces _).1 hlast with h | h
    · simp [h]
    · by_cases hnil : words p.chars = []
      · simp [hnil]
      · simp only [hnil, if_false, hslash.2 h, ne_eq, not_false_eq_true, and_self, if_true]
        rfl
  · rename_i hlast
    rw [if_neg]
    · rfl
    · rintro ⟨h, -⟩
      exact hlast ((getLast?_pieces _).2 (Or.inr (hslash.1 h)))

theorem filter_steps (p : Path) : p.steps.filter (· != ".") = names p.chars := by
  rw [steps_eq, List.filter_append, filter_words]
  split <;> simp

theorem ne_empty_of_mem_steps (h : s ∈ p.steps) : s ≠ "" := by
  rw [steps_eq, List.mem_append] at h
  rcases h with h | h
  · obtain ⟨w, hw, rfl⟩ := List.mem_map.1 h
    have hne : w ≠ [] := by simpa using (List.mem_filter.1 hw).2
    intro he
    exact hne ((@String.ofList_inj w []).1 he)
  · split at h
    · rw [List.mem_singleton] at h
      rw [h]
      decide
    · cases h

/-- A path whose last step is a name has no slash behind it. -/
theorem words_of_steps (h : p.steps = ds ++ [s]) (hs : s ≠ ".") :
    words p.chars = ds ++ [s] ∧ p.endsWithSlash = false := by
  rw [steps_eq] at h
  split at h
  · have hlast := congrArg List.getLast? h
    simp only [List.getLast?_append, List.getLast?_singleton, Option.some_or,
      Option.some.injEq] at hlast
    exact absurd hlast.symm hs
  · rename_i hslash
    rw [List.append_nil] at h
    refine ⟨h, ?_⟩
    have hne : words p.chars ≠ [] := by simp [h]
    simpa [hne] using hslash

theorem withoutSlash_of_endsWithSlash (h : p.endsWithSlash = false) : p.withoutSlash = p := by
  have hchars : (p.chars.reverse.dropWhile (· == '/')).reverse = p.chars := by
    rw [endsWithSlash] at h
    rcases List.eq_nil_or_concat p.chars with hnil | ⟨cs, c, hcs⟩
    · rw [hnil]
      rfl
    · rw [hcs] at h ⊢
      have hc : c ≠ '/' := by simpa using h
      simp [hc]
  rw [withoutSlash, hchars, ofChars, chars, String.ofList_toList]

theorem words_withoutSlash (p : Path) : words p.withoutSlash.chars = words p.chars := by
  have hdrop (r : List Char) : words (r.dropWhile (· == '/')).reverse = words r.reverse := by
    induction r with
    | nil => rfl
    | cons c r ih =>
      by_cases hc : c = '/'
      · rw [List.dropWhile_cons_of_pos (by simpa using hc), ih, hc, List.reverse_cons, words_append,
          words_nil, List.append_nil]
      · rw [List.dropWhile_cons_of_neg (by simpa using hc)]
  rw [withoutSlash, chars_ofChars, hdrop, List.reverse_reverse]

theorem names_withoutSlash (p : Path) : names p.withoutSlash.chars = names p.chars := by
  rw [← filter_words, words_withoutSlash, filter_words]

theorem steps_withoutSlash (p : Path) : p.withoutSlash.steps = words p.chars := by
  have hslash : p.withoutSlash.endsWithSlash = false := by
    rw [endsWithSlash, withoutSlash, chars_ofChars, List.getLast?_reverse, beq_eq_false_iff_ne]
    intro hhead
    have hstop := Text.head?_dropWhile_stop (· == '/') p.chars.reverse '/' hhead
    cases hstop
  rw [steps_eq, words_withoutSlash, hslash, if_neg (fun h => nomatch h.1), List.append_nil]

end Steps

section Parent

variable {cs r x : List Char} {p q : Path}

/-- A path starts with a root, with a dot that stays, or with neither. -/
theorem anchor_cases (cs : List Char) :
    (∃ b, cs = '/' :: b ∧ anchor cs = 1) ∨ (∃ b, cs = '.' :: b ∧ anchor cs = 1 ∧
      (b = [] ∨ b.head? = some '/')) ∨ (cs.head? ≠ some '/' ∧ anchor cs = 0) := by
  fun_cases anchor cs with
  | case1 b => exact Or.inl ⟨b, rfl, rfl⟩
  | case2 => exact Or.inr (Or.inl ⟨[], rfl, rfl, Or.inl rfl⟩)
  | case3 b => exact Or.inr (Or.inl ⟨'/' :: b, rfl, rfl, Or.inr rfl⟩)
  | case4 =>
    rename_i h1 _ _
    refine Or.inr (Or.inr ⟨?_, rfl⟩)
    cases cs with
    | nil => simp
    | cons c b =>
      intro hc
      exact h1 b (by simpa using hc)

theorem names_take_anchor (h : x <+: cs.drop (anchor cs)) :
    names (cs.take (anchor cs) ++ x) = names x := by
  have hdot : names ['.'] = [] := by decide
  rcases anchor_cases cs with ⟨b, rfl, hk⟩ | ⟨b, rfl, hk, hb⟩ | ⟨-, hk⟩
  · rw [hk]
    exact names_slash x
  · rw [hk] at h ⊢
    cases x with
    | nil => exact hdot
    | cons c x =>
      have hc : c = '/' := by
        obtain ⟨y, hy⟩ := h
        have hbc : b = c :: (x ++ y) := hy.symm
        rcases hb with hb | hb <;> simp_all
      rw [hc, names_slash]
      exact names_append ['.'] x
  · rw [hk]
    rfl

theorem dropIdle_suffix (r : List Char) : dropIdle r <:+ r := by
  fun_induction dropIdle r with
  | case1 r ih => exact ih.trans (List.suffix_cons _ _)
  | case2 => exact List.nil_suffix
  | case3 r ih => exact ih.trans ((List.suffix_cons _ _).trans (List.suffix_cons _ _))
  | case4 r => exact List.suffix_refl _

theorem names_dropIdle (r : List Char) : names (dropIdle r).reverse = names r.reverse := by
  fun_induction dropIdle r with
  | case1 r ih =>
    rw [ih, List.reverse_cons, names_append, names_nil, List.append_nil]
  | case2 => decide
  | case3 r ih =>
    have hdot : names ['.'] = [] := by decide
    rw [ih, List.reverse_cons, List.reverse_cons, List.append_assoc, List.singleton_append,
      names_append, hdot, List.append_nil]
  | case4 r => rfl

/-- What dropping leaves ends in a piece that names something. -/
theorem isIdle_dropIdle (h : dropIdle r ≠ []) :
    isIdle ((dropIdle r).takeWhile (· != '/')).reverse = false := by
  fun_induction dropIdle r with
  | case1 r ih => exact ih h
  | case2 => exact absurd rfl h
  | case3 r ih => exact ih h
  | case4 r h1 h2 h3 =>
    cases r with
    | nil => exact absurd rfl h
    | cons c r =>
      have hc : c ≠ '/' := fun hc => h1 r (by rw [hc])
      rw [List.takeWhile_cons_of_pos (by simpa using hc), List.reverse_cons, isIdle]
      cases r with
      | nil =>
        have hdot : c ≠ '.' := fun hdot => h2 (by rw [hdot])
        simp [hdot]
      | cons d r =>
        by_cases hd : d = '/'
        · have hdot : c ≠ '.' := fun hdot => h3 r (by rw [hdot, hd])
          simp [hd, hdot]
        · rw [List.takeWhile_cons_of_pos (by simpa using hd), Bool.or_eq_false_iff]
          refine ⟨by simp, beq_eq_false_iff_ne.2 fun he => ?_⟩
          have hlength := congrArg List.length he
          simp at hlength

theorem names_cutLast (h : isIdle (r.takeWhile (· != '/')).reverse = false) :
    names r.reverse =
      names (cutLast r).1.reverse ++ [String.ofList (cutLast r).2.reverse] := by
  have hlast : names (r.takeWhile (· != '/')).reverse =
      [String.ofList (r.takeWhile (· != '/')).reverse] := by
    have hslash : '/' ∉ (r.takeWhile (· != '/')).reverse := by
      intro hmem
      have hp := List.all_eq_true.1 (List.all_takeWhile (p := (· != '/'))) _
        (List.mem_reverse.1 hmem)
      simp at hp
    rw [names, pieces_of_not_mem hslash]
    simp [h]
  have hsplit := List.takeWhile_append_dropWhile (p := (· != '/')) (l := r)
  rw [cutLast]
  cases hd : r.dropWhile (· != '/') with
  | nil =>
    rw [hd, List.append_nil] at hsplit
    simpa [hsplit] using hlast
  | cons c rest =>
    have hc : c = '/' := by
      have := Text.head?_dropWhile_stop (· != '/') r c (by rw [hd]; rfl)
      simpa using this
    rw [hd, hc] at hsplit
    conv_lhs => rw [← hsplit, List.reverse_append, List.reverse_cons, List.append_assoc,
      List.singleton_append, names_append, hlast]
    rfl

theorem names_drop_anchor (cs : List Char) :
    names (dropIdle (cs.drop (anchor cs)).reverse).reverse = names cs := by
  rw [names_dropIdle, List.reverse_reverse, ← names_take_anchor (List.prefix_refl (cs.drop (anchor cs))),
    List.take_append_drop]

theorem dropIdle_ne_dot (r : List Char) : dropIdle r ≠ ['.'] := by
  intro hdot
  have hidle := isIdle_dropIdle (r := r) (by simp [hdot])
  rw [hdot] at hidle
  exact absurd hidle (by decide)

/-- What taking the parent leaves: nothing of a path that is but a dot, or the start of the path with
all its names but the last. -/
theorem parent_eq_some (h : p.parent = some q) :
    (q.chars = [] ∧ names p.chars = [] ∧ p.chars.head? = some '.' ∧ anchor p.chars = 1) ∨
      ∃ front s, q.chars = p.chars.take (anchor p.chars) ++ front ∧
        front <+: p.chars.drop (anchor p.chars) ∧ front ≠ ['.'] ∧
          names p.chars = names q.chars ++ [s] := by
  unfold parent at h
  extract_lets cs k body at h
  have hnames : names body.reverse = names cs := names_drop_anchor cs
  split at h
  · rename_i hempty
    split at h
    · rename_i hdot
      cases h
      have hdot : cs.head? = some '.' ∧ k = 1 := by simpa using hdot
      refine .inl ⟨rfl, hnames.symm.trans ?_, hdot⟩
      rw [List.isEmpty_iff.1 hempty]
      rfl
    · cases h
  · rename_i hne
    cases h
    have hcut : (cutLast body).1 <:+ body :=
      (List.drop_suffix 1 _).trans (List.dropWhile_suffix _)
    have hpre : (dropIdle (cutLast body).1).reverse <+: cs.drop k := by
      have hrev := List.reverse_prefix.2
        (((dropIdle_suffix _).trans hcut).trans (dropIdle_suffix (cs.drop k).reverse))
      rwa [List.reverse_reverse] at hrev
    refine .inr ⟨_, String.ofList (cutLast body).2.reverse, chars_ofChars _, hpre, fun hdot => ?_, ?_⟩
    · exact dropIdle_ne_dot _ (List.reverse_eq_iff.1 hdot)
    · rw [chars_ofChars, names_take_anchor hpre, names_dropIdle]
      exact hnames.symm.trans (names_cutLast (isIdle_dropIdle (by simpa using hne)))

/-- The parent of a path goes through all its names but the last. -/
theorem parent_cases (h : p.parent = some q) :
    (q.chars = [] ∧ names p.chars = []) ∨
      (∃ s, names p.chars = names q.chars ++ [s]) ∧ q.chars <+: p.chars ∧
        q.isAbsolute = p.isAbsolute := by
  rcases parent_eq_some h with ⟨hq, hp, -⟩ | ⟨front, s, hq, hfront, -, hnames⟩
  · exact .inl ⟨hq, hp⟩
  · have hpre : q.chars <+: p.chars := by
      conv_rhs => rw [← List.take_append_drop (anchor p.chars) p.chars]
      rw [hq]
      exact (List.prefix_append_right_inj _).2 hfront
    refine .inr ⟨⟨s, hnames⟩, hpre, ?_⟩
    -- the first character is kept, unless nothing is left of a relative path
    rw [isAbsolute, isAbsolute]
    rcases anchor_cases p.chars with ⟨b, hcs, hk⟩ | ⟨b, hcs, hk, -⟩ | ⟨hcs, hk⟩
    · rw [hq, hk, hcs]
      rfl
    · rw [hq, hk, hcs]
      rfl
    · cases hchars : q.chars with
      | nil => simp [hcs]
      | cons c rest =>
        obtain ⟨y, hy⟩ := hpre
        rw [← hy, hchars]
        rfl

theorem parent_eq_none (h : p.parent = none) :
    names p.chars = [] ∧ ¬ (p.chars.head? = some '.' ∧ anchor p.chars = 1) := by
  unfold parent at h
  extract_lets cs k body at h
  have hnames : names body.reverse = names cs := names_drop_anchor cs
  split at h
  · rename_i hempty
    split at h
    · cases h
    · rename_i hdot
      refine ⟨hnames.symm.trans ?_, by simpa using hdot⟩
      rw [List.isEmpty_iff.1 hempty]
      rfl
  · cases h

theorem exists_parent (h : names p.chars ≠ []) : ∃ q, p.parent = some q := by
  cases hp : p.parent with
  | none => exact absurd (parent_eq_none hp).1 h
  | some q => exact ⟨q, rfl⟩

end Parent

section Join

variable {p q t : Path} {s : String} {ds : List String} {c : Char}

theorem isAbsolute_join (ht : t.isAbsolute = false) (p : Path) :
    (p.join t).isAbsolute = p.isAbsolute := by
  rw [join, if_neg (by simp [ht])]
  cases hp : p.chars with
  | nil =>
    have hempty : p.isEmpty = true := by simp [isEmpty, hp]
    have htext : p.text = "" := by
      rw [← String.toList_inj]
      exact hp
    simp only [hempty, Bool.true_or, if_true, htext, String.empty_append]
    rw [ht]
    simp [isAbsolute, hp]
  | cons c cs =>
    have htext : p.text.toList = c :: cs := hp
    split <;> simp [isAbsolute, chars, htext]

theorem chars_join (ht : t.isAbsolute = false) (p : Path) :
    (p.join t).chars = p.chars ++ t.chars ∨ (p.join t).chars = p.chars ++ '/' :: t.chars := by
  rw [join, if_neg (by simp [ht])]
  split
  · exact .inl String.toList_append
  · refine .inr ?_
    simp [chars]

theorem mem_join (ht : t.isAbsolute = false) (h : c ∈ (p.join t).chars) :
    c ∈ p.chars ∨ c = '/' ∨ c ∈ t.chars := by
  rcases chars_join ht p with hchars | hchars <;> rw [hchars] at h <;> simp at h <;> tauto

theorem words_of_relative (ht : t.isAbsolute = false) (hne : t.isEmpty = false) :
    words t.chars ≠ [] := by
  obtain ⟨c, cs, hc⟩ := List.exists_cons_of_ne_nil (l := t.chars) (by simpa [isEmpty] using hne)
  have hroot : c ≠ '/' := by
    rw [isAbsolute, hc] at ht
    simpa using ht
  rw [hc]
  exact words_ne_nil hroot cs

theorem steps_ne_nil (ht : t.isAbsolute = false) (hne : t.isEmpty = false) : t.steps ≠ [] := by
  rw [steps_eq]
  exact List.append_ne_nil_of_left_ne_nil (words_of_relative ht hne) _

theorem words_join (ht : t.isAbsolute = false) (p : Path) :
    words (p.join t).chars = words p.chars ++ words t.chars := by
  rw [join, if_neg (by simp [ht])]
  split
  · rename_i hp
    have hchars : (Path.mk (p.text ++ t.text)).chars = p.chars ++ t.chars := by
      simp [chars]
    rw [hchars]
    rcases Bool.or_eq_true_iff.1 hp with hempty | hslash
    · rw [List.isEmpty_iff.1 hempty]
      rfl
    · obtain ⟨a, ha⟩ := List.getLast?_eq_some_iff.1 (beq_iff_eq.1 hslash)
      rw [ha, List.append_assoc, List.singleton_append, words_append, words_append, words_nil,
        List.append_nil]
  · have hchars : (Path.mk (p.text ++ "/" ++ t.text)).chars = p.chars ++ '/' :: t.chars := by
      simp [chars]
    rw [hchars, words_append]

/-- A path joined to a directory goes on from it. -/
theorem steps_join (ht : t.isAbsolute = false) (hne : t.isEmpty = false) (p : Path) :
    (p.join t).steps = words p.chars ++ t.steps := by
  have hslash : (p.join t).endsWithSlash = t.endsWithSlash := by
    have htail : t.chars ≠ [] := by simpa [isEmpty] using hne
    have hlast (cs : List Char) : (cs ++ t.chars).getLast? = t.chars.getLast? :=
      List.getLast?_append_of_ne_nil cs htail
    rw [join, if_neg (by simp [ht]), endsWithSlash, endsWithSlash]
    split
    · rw [← hlast p.chars]
      simp [chars]
    · rw [← hlast (p.chars ++ ['/'])]
      simp [chars]
  rw [steps_eq, steps_eq, words_join ht, hslash]
  simp [words_of_relative ht hne]

/-- The path that a link leads to, as seen from where the link was looked up. -/
def following (p t : Path) : Path :=
  match p.parent with
  | some dir => dir.join t
  | none => t

theorem following_of_absolute (ht : t.isAbsolute = true) (p : Path) : p.following t = t := by
  rw [following]
  split
  · exact join_absolute ht
  · rfl

/-- A relative link leads on from the directory that holds it. -/
theorem steps_following (hp : p.steps = ds ++ [s]) (hs : s ≠ ".") (ht : t.isAbsolute = false)
    (hne : t.isEmpty = false) :
    (p.following t).isAbsolute = p.isAbsolute ∧ ∃ ws, (p.following t).steps = ws ++ t.steps ∧
      ws.filter (· != ".") = ds.filter (· != ".") := by
  have hnames : names p.chars = ds.filter (· != ".") ++ [s] := by
    rw [← filter_steps, hp, List.filter_append]
    simp [hs]
  obtain ⟨q, hq⟩ := exists_parent (p := p) (by simp [hnames])
  rcases parent_cases hq with ⟨-, hnil⟩ | ⟨⟨s', hs'⟩, -, habs⟩
  · simp [hnames] at hnil
  · have hds := (List.append_inj' (hnames.symm.trans hs') rfl).1
    rw [following, hq]
    refine ⟨(isAbsolute_join ht q).trans habs, words q.chars, steps_join ht hne q, ?_⟩
    rw [filter_words, hds]

end Join

end ConanPipeline.Path
