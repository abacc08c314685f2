import ConanPipeline.Proofs.Profile.Line

/-! How far an edit reaches when nothing is known of its key and value. The entry is put in as it
is, so it may come to more lines than one. A look-up goes over lines one by one (`get_eq_scan`), and
no other one notices an edit exactly when none of the entry's lines begins a section or sets another
key (`get_set_iff`). -/

namespace ConanPipeline.Profile

/-- How far a look-up has come: not to its section yet, into or past it, or to its end. -/
inductive Reading where
  | before
  | within (inside : Bool)
  | done (value : Option (List Char))
  deriving DecidableEq, Repr

namespace Reading

def next (sec key : List Char) : Reading → List Char → Reading
  | before, l => if opens sec (Text.trim l) then within true else before
  | within inside, l =>
    if isHeader (Text.trim l) then if opens sec (Text.trim l) then done none else within false
    else if inside && assigns key (Text.trim l) then done (some (valueOf l))
    else within inside
  | done value, _ => done value

def found : Reading → Option (List Char)
  | done value => value
  | _ => none

/-- The look-up after the lines of a text. -/
def scan (sec key text : List Char) (r : Reading) : Reading :=
  (Text.spans text).foldl (next sec key) r

end Reading

/-- The key that a stripped line sets. -/
def keyOf (stripped : List Char) : List Char :=
  match Text.cutAt '=' stripped with
  | some (name, _) => Text.trim name
  | none => stripped

/-- No line of the entry begins a section, and none sets another key than the entry's. -/
def Confined (key : List Char) (value : Option (List Char)) : Prop :=
  ∀ l ∈ Text.spans (entry key value), isHeader (Text.trim l) = false ∧
    (keyOf (Text.trim l) = [] ∨ keyOf (Text.trim l) = key)

instance (key : List Char) (value : Option (List Char)) : Decidable (Confined key value) :=
  inferInstanceAs (Decidable (∀ l ∈ Text.spans (entry key value), _ ∧ _))

/-- A key that can be looked for. -/
structure IsPlain (key : List Char) : Prop where
  ne_nil : key ≠ []
  trimmed : Text.trim key = key
  equals : '=' ∉ key
  newline : '\n' ∉ key

variable {sec key sec' key' text l : List Char} {value : Option (List Char)} {r : Reading}
variable {ls ls' : List (List Char)} {s : Progress}

open Reading

section Scanning

theorem assigns_iff {stripped : List Char} : assigns key stripped = true ↔ keyOf stripped = key := by
  rw [assigns, keyOf]
  cases Text.cutAt '=' stripped <;> simp

theorem foldl_next_congr (h : ls.map Text.trim = ls'.map Text.trim) :
    ls.foldl (next sec key) r = ls'.foldl (next sec key) r := by
  have hnext (l l' : List Char) (r : Reading) (h : Text.trim l = Text.trim l') :
      next sec key r l = next sec key r l' := by
    cases r <;> simp only [next, valueOf, h]
  induction ls generalizing r ls' with
  | nil => rw [List.map_eq_nil_iff.1 h.symm]
  | cons l ls ih =>
    cases ls' with
    | nil => cases h
    | cons l' ls' =>
      obtain ⟨hl, hls⟩ := List.cons.inj h
      rw [List.foldl_cons, List.foldl_cons, hnext l l' r hl, ih hls]

theorem foldl_next_done (v : Option (List Char)) : ls.foldl (next sec key) (done v) = done v := by
  induction ls with
  | nil => rfl
  | cons l ls ih => exact ih

theorem getInside_eq (inside : Bool) :
    getInside sec key inside ls = (ls.foldl (next sec key) (within inside)).found := by
  induction ls generalizing inside with
  | nil => rfl
  | cons l ls ih =>
    rw [getInside, List.foldl_cons, next]
    split
    · split
      · rw [foldl_next_done]
        rfl
      · exact ih false
    · split
      · rw [foldl_next_done]
        rfl
      · exact ih inside

theorem getLines_eq : getLines sec key ls = (ls.foldl (next sec key) before).found := by
  induction ls with
  | nil => rfl
  | cons l ls ih =>
    rw [getLines, List.foldl_cons, next]
    split
    · exact getInside_eq true
    · exact ih

theorem get_eq_scan (sec key text : List Char) :
    get sec key text = (scan sec key text before).found := by
  rw [get_eq, getLines_eq]
  rfl

/-- A text that goes on a line of its own is read after the one before it. -/
theorem scan_append {a b : List Char} (hb : b ≠ []) :
    scan sec key (a ++ (if a.isEmpty || a.getLast? == some '\n' then [] else ['\n']) ++ b) r =
      scan sec key b (scan sec key a r) := by
  have hspans : Text.spans b ≠ [] := by
    intro h
    have hflat := Text.flatten_spans b
    rw [h] at hflat
    exact hb hflat.symm
  have ha : ∀ l ∈ Text.spans a, Text.IsSpan l := Text.isSpan_of_mem_spans
  have htext := Text.flatten_closed_append ha (Text.closed_spans a) hspans
  rw [Text.closed_spans, Text.flatten_spans, Text.flatten_spans] at htext
  have hlines : ∀ l ∈ Text.spans a ++ Text.spans b, Text.IsSpan l := by
    intro l hl
    rcases List.mem_append.1 hl with hl | hl
    · exact Text.isSpan_of_mem_spans l hl
    · exact Text.isSpan_of_mem_spans l hl
  rw [scan, ← htext, Text.spans_closed hlines, foldl_next_congr (Text.map_trim_closed _),
    List.foldl_append]
  rfl

theorem scan_append_of_ended {a : List Char} (ha : a.getLast? = some '\n') (b : List Char) :
    scan sec key (a ++ b) r = scan sec key b (scan sec key a r) := by
  by_cases hb : b = []
  · rw [hb, List.append_nil]
    rfl
  · have hended : (a.isEmpty || a.getLast? == some '\n') = true := by simp [ha]
    rw [← scan_append hb, hended, if_pos rfl, List.append_nil]

theorem scan_line (h : Text.IsSpan l) : scan sec key l r = next sec key r l := by
  rw [scan, Text.spans_of_isSpan h]
  rfl

theorem scan_blank (hkey : key ≠ []) : scan sec key ['\n'] r = r := by
  have hnil : Text.trim ['\n'] = [] := by decide
  have hassigns : assigns key [] = false := by
    simpa [assigns, Text.cutAt] using hkey
  rw [scan_line ⟨by simp, by simp⟩]
  cases r <;> simp [next, hnil, opens, isHeader, hassigns, Text.startsWith, Text.after?]

theorem getLast?_entry_eq (key : List Char) (value : Option (List Char)) :
    (entry key value).getLast? = some '\n' := by
  rw [entry.eq_def]
  cases value <;> exact List.getLast?_concat

end Scanning

section Other

/-- An edit in its section, and a look-up for another section inside its own: never both. -/
def Reading.Apart (sec sec' : List Char) (r : Reading) (inside : Bool) : Prop :=
  sec' ≠ sec → inside = true → r ≠ within true

variable (hsec : IsSection sec) (hsec' : IsSection sec') (hkey' : key' ≠ [])
variable (hne : (sec', key') ≠ (sec, key))

include hkey' hne in
/-- A look-up passes by a line that sets the key of another slot. -/
theorem next_of_confined (ha : Apart sec sec' r true) (hl : isHeader (Text.trim l) = false)
    (hkey : keyOf (Text.trim l) = [] ∨ keyOf (Text.trim l) = key) : next sec' key' r l = r := by
  cases r with
  | before => rw [next, opens_of_isHeader hl, if_neg Bool.false_ne_true]
  | done v => rfl
  | within inside =>
    rw [next, hl, if_neg Bool.false_ne_true, if_neg]
    intro hsets
    obtain ⟨rfl, hassigns⟩ := Bool.and_eq_true_iff.1 hsets
    rw [assigns_iff] at hassigns
    rcases hkey with hnil | hkey
    · exact hkey' (hassigns.symm.trans hnil)
    · have hsame : key' = key := hassigns.symm.trans hkey
      exact ha (fun h => hne (by rw [h, hsame])) rfl rfl

include hkey' hne in
theorem scan_entry (hc : Confined key value) (ha : Apart sec sec' r true) :
    scan sec' key' (entry key value) r = r := by
  rw [Confined] at hc
  rw [scan]
  generalize Text.spans (entry key value) = ls at hc
  induction ls with
  | nil => rfl
  | cons l ls ih =>
    rw [List.forall_mem_cons] at hc
    rw [List.foldl_cons, next_of_confined hkey' hne ha hc.1.1 hc.1.2]
    exact ih hc.2

/-- What becomes of one line: it stays, the entry goes before it at the end of the section, or the
entry takes its place. -/
theorem editLine_cases (sec key : List Char) (value : Option (List Char)) (s : Progress)
    (l : List Char) :
    ((editLine sec key value s l).1 = l ∧ ((editLine sec key value s l).2.inside = true →
        opens sec (Text.trim l) = true ∨ s.inside = true ∧ isHeader (Text.trim l) = false)) ∨
      (s.inside = true ∧ (editLine sec key value s l).1 = entry key value ++ l ∧
        (editLine sec key value s l).2.inside = false) ∨
      (s.inside = true ∧ isHeader (Text.trim l) = false ∧ keyOf (Text.trim l) = key ∧
        (editLine sec key value s l).1 = entry key value) := by
  obtain ⟨inside, written⟩ := s
  rw [editLine]
  dsimp only
  by_cases ho : opens sec (Text.trim l) = true
  · rw [if_pos ho]
    exact Or.inl ⟨rfl, fun _ => Or.inl ho⟩
  rw [if_neg ho]
  cases inside with
  | false => exact Or.inl ⟨by simp, by simp⟩
  | true =>
    cases hends : ((Text.trim l).isEmpty || isHeader (Text.trim l)) with
    | true =>
      cases written with
      | true => exact Or.inl ⟨by simp, by simp⟩
      | false => exact Or.inr (Or.inl ⟨rfl, by simp, by simp⟩)
    | false =>
      have hheader : isHeader (Text.trim l) = false := (Bool.or_eq_false_iff.1 hends).2
      cases hassigns : assigns key (Text.trim l) with
      | true => exact Or.inr (Or.inr ⟨rfl, hheader, assigns_iff.1 hassigns, by simp⟩)
      | false => exact Or.inl ⟨by simp, fun _ => Or.inr ⟨rfl, hheader⟩⟩

include hsec hsec' in
theorem apart_of_opens (ho : opens sec (Text.trim l) = true) (inside : Bool) :
    Apart sec sec' (next sec' key' r l) inside := by
  intro hs _ hr
  have ho' : opens sec' (Text.trim l) = false := by
    simpa using fun ho' => hs (opens_inj hsec' hsec ho' ho)
  cases r with
  | before => simp [next, ho'] at hr
  | within inside => simp [next, ho', isHeader_of_opens ho] at hr
  | done v => cases hr

include hsec hsec' hkey' hne in
theorem scan_editLine (hc : Confined key value) (hl : Text.IsSpan l)
    (ha : Apart sec sec' r s.inside) :
    scan sec' key' (editLine sec key value s l).1 r = next sec' key' r l ∧
      Apart sec sec' (next sec' key' r l) (editLine sec key value s l).2.inside := by
  rcases editLine_cases sec key value s l with ⟨hkept, hinside⟩ | ⟨hs, hgap, hout⟩ |
    ⟨hs, hheader, hkey, hentry⟩
  · rw [hkept]
    refine ⟨scan_line hl, fun hne' hin => ?_⟩
    rcases hinside hin with ho | ⟨hs, hheader⟩
    · exact apart_of_opens hsec hsec' ho true hne' rfl
    · have hr := ha hne' hs
      cases r with
      | before => simp [next, opens_of_isHeader hheader]
      | done v => simp [next]
      | within inside =>
        rw [next, hheader, if_neg Bool.false_ne_true]
        split
        · simp
        · exact hr
  · rw [hs] at ha
    rw [hgap, scan_append_of_ended (getLast?_entry_eq key value), scan_entry hkey' hne hc ha,
      scan_line hl, hout]
    exact ⟨rfl, fun _ h => absurd h Bool.false_ne_true⟩
  · rw [hs] at ha
    rw [hentry, scan_entry hkey' hne hc ha, next_of_confined hkey' hne ha hheader (Or.inr hkey)]
    exact ⟨rfl, fun hne' _ => ha hne' rfl⟩

theorem getLast?_editLine (hl : l.getLast? = some '\n') :
    (editLine sec key value s l).1.getLast? = some '\n' := by
  rcases editLine_cases sec key value s l with ⟨h, -⟩ | ⟨-, h, -⟩ | ⟨-, -, -, h⟩
  · rw [h, hl]
  · rw [h, List.getLast?_append, hl]
    rfl
  · rw [h, getLast?_entry_eq]

include hsec hsec' hkey' hne in
/-- A look-up of another slot comes as far in the edited lines as in those before. -/
theorem scan_editLines (hc : Confined key value) (hls : ∀ l ∈ ls, Text.IsSpan l)
    (hclosed : Text.closed ls = ls) (ha : Apart sec sec' r s.inside) :
    scan sec' key' (editLines sec key value s ls).1 r = ls.foldl (next sec' key') r ∧
      Apart sec sec' (ls.foldl (next sec' key') r) (editLines sec key value s ls).2.inside := by
  induction ls generalizing r s with
  | nil => exact ⟨rfl, ha⟩
  | cons l ls ih =>
    rw [List.forall_mem_cons] at hls
    obtain ⟨hended, hrest⟩ := Text.closed_cons_eq_self.1 hclosed
    obtain ⟨hscan, hapart⟩ := scan_editLine hsec hsec' hkey' hne hc hls.1 ha
    obtain ⟨hscan', hapart'⟩ := ih hls.2 hrest hapart
    rw [editLines]
    dsimp only
    refine ⟨?_, hapart'⟩
    by_cases hnil : ls = []
    · subst hnil
      rw [editLines, List.append_nil]
      exact hscan
    · rw [scan_append_of_ended (getLast?_editLine (hended hnil)), hscan, hscan']
      rfl

include hsec hsec' hkey' hne in
/-- What is put at the end of a text does not show at another slot. -/
theorem scan_closing (hc : Confined key value) {out : List Char} {inside : Bool}
    (ha : Apart sec sec' (scan sec' key' out r) inside) :
    (scan sec' key' (out ++ closing sec key value out inside) r).found =
      (scan sec' key' out r).found := by
  have hentry : entry key value ≠ [] := by
    intro h
    have hlast := getLast?_entry_eq key value
    rw [h] at hlast
    cases hlast
  rw [closing, List.append_assoc, ← List.append_assoc, scan_append (by simp [hentry])]
  generalize scan sec' key' out r = r at ha
  cases inside with
  | true => rw [if_pos rfl, List.nil_append, scan_entry hkey' hne hc ha]
  | false =>
    have htext : (if false = true then [] else '\n' :: '[' :: sec ++ [']', '\n']) ++ entry key value =
        ['\n'] ++ (heading sec ++ entry key value) := by simp [heading]
    have hopens := opens_heading_self sec
    rw [htext, scan_append_of_ended rfl, scan_blank hkey', scan_append_of_ended (getLast?_heading sec),
      scan_line (isSpan_heading hsec.1),
      scan_entry hkey' hne hc (apart_of_opens hsec hsec' hopens true)]
    cases r with
    | before =>
      rw [next]
      split <;> rfl
    | within inside =>
      rw [next, isHeader_of_opens hopens, if_pos rfl]
      split <;> rfl
    | done v => rfl

include hsec hsec' hkey' hne in
theorem get_set_of_confined (hc : Confined key value) (text : List Char) :
    get sec' key' (set sec key value text) = get sec' key' text := by
  have hspans : ∀ l ∈ Text.spans text, Text.IsSpan l := Text.isSpan_of_mem_spans
  obtain ⟨hscan, hapart⟩ := scan_editLines (s := ⟨false, false⟩) (r := before) hsec hsec' hkey' hne hc
    hspans (Text.closed_spans text) fun _ h => absurd h Bool.false_ne_true
  rw [get_eq_scan, get_eq_scan, set]
  dsimp only
  split
  · rw [hscan]
    rfl
  · rw [scan_closing hsec hsec' hkey' hne hc (hscan ▸ hapart), hscan]
    rfl

end Other

section Reached

/-- A look-up that is past its section reads nothing more. -/
theorem foldl_next_outside : ls.foldl (next sec key) (within false) = within false ∨
    ls.foldl (next sec key) (within false) = done none := by
  induction ls with
  | nil => exact Or.inl rfl
  | cons l ls ih =>
    rw [List.foldl_cons, next, Bool.false_and, if_neg Bool.false_ne_true]
    split
    · split
      · exact Or.inr (foldl_next_done none)
      · exact ih
    · exact ih

/-- A header among lines that do not set the key ends the section. -/
theorem foldl_next_of_header (sec : List Char) (hkey : ∀ l ∈ ls, keyOf (Text.trim l) ≠ key)
    (hheader : ∃ l ∈ ls, isHeader (Text.trim l) = true) (inside : Bool) :
    ls.foldl (next sec key) (within inside) = within false ∨
      ls.foldl (next sec key) (within inside) = done none := by
  induction ls with
  | nil => simp at hheader
  | cons l ls ih =>
    rw [List.forall_mem_cons] at hkey
    rw [List.foldl_cons, next]
    split
    · split
      · exact Or.inr (foldl_next_done none)
      · exact foldl_next_outside
    · rename_i hl
      have hassigns : assigns key (Text.trim l) = false :=
        Bool.eq_false_iff.2 fun h => hkey.1 (assigns_iff.1 h)
      rw [hassigns, Bool.and_false, if_neg Bool.false_ne_true]
      refine ih hkey.2 ?_
      rcases hheader with ⟨l', hl', h⟩
      rcases List.mem_cons.1 hl' with rfl | hl'
      · exact absurd h hl
      · exact ⟨l', hl', h⟩

/-- A key that one of the lines sets is found. -/
theorem foldl_next_of_setting (sec : List Char) (hheader : ∀ l ∈ ls, isHeader (Text.trim l) = false)
    (hkey : ∃ l ∈ ls, keyOf (Text.trim l) = key) :
    ∃ v, ls.foldl (next sec key) (within true) = done (some v) := by
  induction ls with
  | nil => simp at hkey
  | cons l ls ih =>
    rw [List.forall_mem_cons] at hheader
    rw [List.foldl_cons, next, hheader.1, if_neg Bool.false_ne_true, Bool.true_and]
    split
    · exact ⟨_, foldl_next_done _⟩
    · rename_i hassigns
      refine ih hheader.2 ?_
      rcases hkey with ⟨l', hl', h⟩
      rcases List.mem_cons.1 hl' with rfl | hl'
      · exact absurd (assigns_iff.2 h) hassigns
      · exact ⟨l', hl', h⟩

theorem length_keyOf_le (stripped : List Char) : (keyOf stripped).length ≤ stripped.length := by
  rw [keyOf]
  split
  · rename_i name rest hcut
    obtain ⟨rfl, -⟩ := Text.eq_of_cutAt hcut
    have hname := (Text.trim_infix name).length_le
    rw [List.length_append]
    omega
  · exact Nat.le_refl _

theorem not_mem_trim (h : Text.IsSpan l) : '\n' ∉ Text.trim l := by
  by_cases hended : l.getLast? = some '\n'
  · obtain ⟨body, rfl⟩ := List.getLast?_eq_some_iff.1 hended
    have hbody : '\n' ∉ body := by simpa using h.2
    rw [Text.trim_append_newline]
    exact fun hmem => hbody ((Text.trim_infix body).subset hmem)
  · exact fun hmem => h.not_mem hended ((Text.trim_infix l).subset hmem)

theorem isPlain_keyOf (h : Text.IsSpan l) (hne : keyOf (Text.trim l) ≠ []) :
    IsPlain (keyOf (Text.trim l)) := by
  have hline := not_mem_trim h
  rw [keyOf] at hne ⊢
  split at hne
  · rename_i name rest hcut
    obtain ⟨hsplit, hequals⟩ := Text.eq_of_cutAt hcut
    have hsub := (Text.trim_infix name).subset
    rw [hsplit] at hline
    exact ⟨hne, Text.trim_trim name, fun hmem => hequals (hsub hmem),
      fun hmem => hline (List.mem_append_left _ (hsub hmem))⟩
  · rename_i hcut
    exact ⟨hne, Text.trim_trim l, Text.not_mem_of_cutAt hcut, hline⟩

/-- There is a key longer than a text. -/
theorem exists_long_key (n : Nat) : ∃ key, IsKey key ∧ n < key.length := by
  refine ⟨List.replicate (n + 1) 'a', ⟨by simp, ?_, by simp, by simp, ?_⟩, by simp⟩
  · have hblank : Text.isBlank 'a' = false := by decide
    rw [List.replicate_succ, Text.trim_cons hblank]
    cases n with
    | zero => rfl
    | succ n =>
      rw [List.replicate_succ', Text.trimEnd_append_cons hblank]
      rfl
  · simp [List.replicate_succ]

variable (hsec : IsSection sec)

include hsec in
/-- The entry of a section that begins with a blank line goes above that. -/
theorem set_above_blank (key : List Char) (value : Option (List Char)) (hl : Text.IsSpan l)
    (hheader : isHeader (Text.trim l) = false) :
    set sec key value (heading sec ++ (['\n'] ++ l)) =
      heading sec ++ (entry key value ++ (['\n'] ++ l)) := by
  have hspans : Text.spans (heading sec ++ (['\n'] ++ l)) = [heading sec, ['\n'], l] := by
    rw [Text.spans_append (isSpan_heading hsec.1) (getLast?_heading sec),
      Text.spans_append ⟨by simp, by simp⟩ rfl, Text.spans_of_isSpan hl]
  have hfirst : editLine sec key value ⟨false, false⟩ (heading sec) =
      (heading sec, ⟨true, false⟩) := by
    simp [editLine, opens_heading_self]
  have hblank : editLine sec key value ⟨true, false⟩ ['\n'] =
      (entry key value ++ ['\n'], ⟨false, true⟩) := by
    have hnil : Text.trim ['\n'] = [] := by decide
    have hopens : opens sec [] = false := rfl
    simp [editLine, hnil, hopens, isHeader]
  have hlast : editLine sec key value ⟨false, true⟩ l = (l, ⟨false, true⟩) := by
    simp [editLine, opens_of_isHeader hheader]
  rw [set, hspans]
  simp [editLines, hfirst, hblank, hlast]

include hsec in
/-- Below a blank line a look-up still finds a key of the section, but not behind a header in the
entry that an edit puts above it. -/
theorem header_reaches (hheader : ∃ l ∈ Text.spans (entry key value), isHeader (Text.trim l) = true) :
    ∃ text key', IsPlain key' ∧ key' ≠ key ∧
      get sec key' (set sec key value text) ≠ get sec key' text := by
  obtain ⟨other, hother, hlong⟩ := exists_long_key ((entry key value).length + key.length)
  let u : Update := { sec, key := other, key_ok := hother, value := none, value_ok := by simp [IsValue] }
  have hentry : ∀ l ∈ Text.spans (entry key value), keyOf (Text.trim l) ≠ other := by
    intro l hl h
    have hline := (List.sublist_flatten_of_mem hl).length_le
    have htrim := (Text.trim_infix l).length_le
    have hkey := length_keyOf_le (Text.trim l)
    rw [Text.flatten_spans] at hline
    rw [h] at hkey
    omega
  have hline : isHeader (Text.trim u.entry) = false :=
    (kind_eq_setting.1 (by simp : u.kind u.entry = .setting)).1
  have hset := set_above_blank hsec key value (isSpan_entry u) hline
  refine ⟨heading sec ++ (['\n'] ++ u.entry), other, ⟨hother.ne_nil, hother.trimmed, hother.equals,
    hother.newline⟩, ?_, ?_⟩
  · rintro rfl
    omega
  · have hnewline : ['\n'].getLast? = some '\n' := rfl
    rw [hset, get_eq_scan, get_eq_scan, scan_append_of_ended (getLast?_heading sec),
      scan_append_of_ended (getLast?_heading sec), scan_append_of_ended hnewline,
      scan_append_of_ended (getLast?_entry_eq key value), scan_append_of_ended hnewline,
      scan_blank hother.ne_nil, scan_blank hother.ne_nil, scan_line (isSpan_heading hsec.1), next,
      opens_heading_self, if_pos rfl, scan_line (isSpan_entry u), scan_line (isSpan_entry u)]
    have hfound : next sec other (within true) u.entry = done (some (valueOf u.entry)) := by
      have hassigns : assigns other (Text.trim u.entry) = true := assigns_entry u
      simp [next, hline, hassigns]
    rw [hfound, scan]
    rcases foldl_next_of_header sec hentry hheader true with h | h
    · simp [h, next, hline, found]
    · simp [h, next, found]

include hsec in
/-- A line of the entry that sets another key sets it in the section. -/
theorem setting_reaches (hheader : ∀ l ∈ Text.spans (entry key value), isHeader (Text.trim l) = false)
    (hl : l ∈ Text.spans (entry key value)) (hne : keyOf (Text.trim l) ≠ []) :
    get sec (keyOf (Text.trim l)) (set sec key value []) ≠ get sec (keyOf (Text.trim l)) [] := by
  have hset : set sec key value [] = ['\n'] ++ (heading sec ++ entry key value) := by
    simp [set, editLines, Text.spans, closing, heading]
  obtain ⟨v, hv⟩ := foldl_next_of_setting sec hheader ⟨l, hl, rfl⟩
  rw [hset, get_eq_scan, scan_append_of_ended rfl, scan_blank hne,
    scan_append_of_ended (getLast?_heading sec), scan_line (isSpan_heading hsec.1), next,
    opens_heading_self, if_pos rfl, scan, hv]
  intro h
  cases h

end Reached

/-- An edit is not noticed by any other look-up, whatever the text, exactly if its entry is
confined. -/
theorem get_set_iff (hsec : IsSection sec) (key : List Char) (value : Option (List Char)) :
    (∀ text sec' key', IsSection sec' → IsPlain key' → (sec', key') ≠ (sec, key) →
      get sec' key' (set sec key value text) = get sec' key' text) ↔ Confined key value := by
  constructor
  · intro h l hl
    have hheader : ∀ l ∈ Text.spans (entry key value), isHeader (Text.trim l) = false := by
      by_contra hnot
      have hexists : ∃ l ∈ Text.spans (entry key value), isHeader (Text.trim l) = true := by
        simpa using hnot
      obtain ⟨text, key', hplain, hkey, hget⟩ := header_reaches hsec hexists
      exact hget (h text sec key' hsec hplain fun he => hkey (Prod.mk.inj he).2)
    refine ⟨hheader l hl, ?_⟩
    by_contra hnot
    rw [not_or] at hnot
    have hplain := isPlain_keyOf (Text.isSpan_of_mem_spans l hl) hnot.1
    exact setting_reaches hsec hheader hl hnot.1
      (h [] sec _ hsec hplain fun he => hnot.2 (Prod.mk.inj he).2)
  · intro hc text sec' key' hsec' hplain hne
    exact get_set_of_confined hsec hsec' hplain.ne_nil hne hc text

end ConanPipeline.Profile
