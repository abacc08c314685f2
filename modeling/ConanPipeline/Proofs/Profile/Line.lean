import ConanPipeline.Profile
import ConanPipeline.Proofs.Text.Lines

/-! What one line of a profile is to a section and a key. Setting and looking up both ask
for this kind only (`getInside_cons`, `getLines_cons`), and an entry sets its own key in
every section and no other (`kind_entry`). -/

namespace ConanPipeline.Profile

/-- A section whose header is one line and names no other section. -/
def IsSection (sec : List Char) : Prop := '\n' ∉ sec ∧ ']' ∉ sec

/-- A key that an entry sets and that reads back as itself. -/
structure IsKey (key : List Char) : Prop where
  ne_nil : key ≠ []
  trimmed : Text.trim key = key
  newline : '\n' ∉ key
  equals : '=' ∉ key
  bracket : key.head? ≠ some '['

def IsValue (value : Option (List Char)) : Prop := ∀ v ∈ value, '\n' ∉ v

instance (sec : List Char) : Decidable (IsSection sec) :=
  inferInstanceAs (Decidable (_ ∧ _))

instance (key : List Char) : Decidable (IsKey key) :=
  decidable_of_iff (key ≠ [] ∧ Text.trim key = key ∧ '\n' ∉ key ∧ '=' ∉ key ∧
      key.head? ≠ some '[')
    ⟨fun ⟨h1, h2, h3, h4, h5⟩ => ⟨h1, h2, h3, h4, h5⟩,
      fun h => ⟨h.ne_nil, h.trimmed, h.newline, h.equals, h.bracket⟩⟩

instance (value : Option (List Char)) : Decidable (IsValue value) :=
  inferInstanceAs (Decidable (∀ v ∈ value, '\n' ∉ v))

/-- A place for a value: a section and a key in it. -/
structure Slot where
  sec : List Char
  key : List Char
  key_ok : IsKey key := by decide
  deriving DecidableEq

structure Update extends Slot where
  value : Option (List Char)
  value_ok : IsValue value := by decide

/-- Two slots whose sections a text tells apart. -/
structure Slot.Distinct (k j : Slot) : Prop where
  ne : k ≠ j
  left : IsSection k.sec
  right : IsSection j.sec

inductive Kind where
  | opening
  | header
  | blank
  | setting
  | plain
  deriving DecidableEq, Repr

/-- What a line is to a slot: a header of its section or another one, a blank line, one
that sets its key, or anything else. -/
def Slot.kind (k : Slot) (line : List Char) : Kind :=
  let stripped := Text.trim line
  if isHeader stripped then if opens k.sec stripped then .opening else .header
  else if stripped.isEmpty then .blank
  else if assigns k.key stripped then .setting
  else .plain

/-- The value that a line sets its key to. -/
def valueOf (line : List Char) : List Char :=
  match Text.cutAt '=' (Text.trim line) with
  | some (_, v) => Text.trim v
  | none => []

/-- The header line of a new section. -/
def heading (sec : List Char) : List Char := '[' :: sec ++ [']', '\n']

def Update.entry (u : Update) : List Char := Profile.entry u.key u.value

theorem opens_iff {sec s : List Char} : opens sec s = true ↔ ∃ t, s = '[' :: sec ++ ']' :: t := by
  rw [opens, Text.startsWith, Option.isSome_iff_exists]
  simp only [Text.after?_eq_some_iff, List.append_assoc, List.singleton_append]

theorem isHeader_of_opens {sec s : List Char} (h : opens sec s = true) : isHeader s = true := by
  obtain ⟨t, rfl⟩ := opens_iff.1 h
  rfl

theorem opens_of_isHeader {sec s : List Char} (h : isHeader s = false) : opens sec s = false := by
  cases ho : opens sec s with
  | false => rfl
  | true => exact absurd (isHeader_of_opens ho) (by simp [h])

/-- A line is a header of one section at most: the name ends at the first bracket. -/
theorem opens_inj {sec sec' s : List Char} (hs : IsSection sec) (hs' : IsSection sec')
    (h : opens sec s = true) (h' : opens sec' s = true) : sec = sec' := by
  obtain ⟨t, rfl⟩ := opens_iff.1 h
  obtain ⟨t', ht⟩ := opens_iff.1 h'
  have he : sec ++ ']' :: t = sec' ++ ']' :: t' := by simpa using ht
  have h1 := Text.cutAt_append hs.2 t
  rw [he, Text.cutAt_append hs'.2] at h1
  simp_all

/-- A section with a header line has a name without a line end. -/
theorem newline_of_opens {sec l : List Char} (hl : Text.IsSpan l)
    (h : opens sec (Text.trim l) = true) : '\n' ∉ sec := by
  obtain ⟨t, ht⟩ := opens_iff.1 h
  obtain ⟨a, b, hab⟩ := Text.trim_infix l
  intro hn
  have he : l = (a ++ '[' :: sec) ++ ']' :: (t ++ b) := by
    rw [← hab, ht]
    simp
  refine hl.2 ?_
  rw [he, List.dropLast_append_cons]
  simp [hn]

theorem assigns_inj {key key' s : List Char} (h : assigns key s = true)
    (h' : assigns key' s = true) : key = key' := by
  rw [assigns] at h h'
  split at h <;> simp_all

section Kind

variable {k j : Slot} {l : List Char}

theorem kind_congr {l' : List Char} (h : Text.trim l = Text.trim l') : k.kind l = k.kind l' := by
  simp only [Slot.kind, h]

@[simp] theorem kind_terminated : k.kind (Text.terminated l) = k.kind l :=
  kind_congr (Text.trim_terminated l)

theorem kind_eq_opening : k.kind l = .opening ↔ opens k.sec (Text.trim l) = true := by
  rw [Slot.kind]
  split
  · split <;> simp_all
  · rename_i h
    have ho : opens k.sec (Text.trim l) = false := opens_of_isHeader (by simpa using h)
    split
    · simp [ho]
    · split <;> simp [ho]

theorem kind_of_isHeader (h : isHeader (Text.trim l) = true) :
    k.kind l = if opens k.sec (Text.trim l) then .opening else .header := by
  rw [Slot.kind, if_pos h]

theorem kind_of_trim_eq_nil (h : Text.trim l = []) : k.kind l = .blank := by
  simp [Slot.kind, h, isHeader]

theorem kind_of_content (h : isHeader (Text.trim l) = false) (hn : Text.trim l ≠ []) :
    k.kind l = if assigns k.key (Text.trim l) then .setting else .plain := by
  simp [Slot.kind, h, hn]

theorem line_cases (l : List Char) : isHeader (Text.trim l) = true ∨ Text.trim l = [] ∨
    (isHeader (Text.trim l) = false ∧ Text.trim l ≠ []) := by
  by_cases h : isHeader (Text.trim l) = true
  · exact Or.inl h
  · by_cases hn : Text.trim l = []
    · exact Or.inr (Or.inl hn)
    · exact Or.inr (Or.inr ⟨by simpa using h, hn⟩)

/-! A header of one section is a header to all slots, and no line sets two keys. -/

theorem kind_of_opening (hj : IsSection j.sec) (hk : IsSection k.sec) (h : k.kind l = .opening) :
    j.kind l = if j.sec = k.sec then .opening else .header := by
  have ho := kind_eq_opening.1 h
  rw [kind_of_isHeader (isHeader_of_opens ho)]
  by_cases hs : j.sec = k.sec
  · simp [hs, ho]
  · have hn : opens j.sec (Text.trim l) = false := by
      simpa using fun ho' => hs (opens_inj hj hk ho' ho)
    simp [hs, hn]

theorem kind_eq_setting : k.kind l = .setting ↔
    isHeader (Text.trim l) = false ∧ Text.trim l ≠ [] ∧ assigns k.key (Text.trim l) = true := by
  rcases line_cases l with hl | hl | ⟨hl, hn⟩
  · rw [kind_of_isHeader hl]
    split <;> simp [hl]
  · simp [kind_of_trim_eq_nil hl, hl]
  · rw [kind_of_content hl hn]
    split <;> simp_all

theorem kind_of_setting (h : k.kind l = .setting) :
    j.kind l = if j.key = k.key then .setting else .plain := by
  obtain ⟨hl, hn, ha⟩ := kind_eq_setting.1 h
  rw [kind_of_content hl hn]
  by_cases hk : j.key = k.key
  · simp [hk, ha]
  · have hf : assigns j.key (Text.trim l) = false := by
      simpa using fun ha' => hk (assigns_inj ha' ha)
    simp [hk, hf]

end Kind

section Entry

variable (k : Slot) (u : Update)

theorem IsKey.exists_cons {key : List Char} (h : IsKey key) :
    ∃ c cs, key = c :: cs ∧ Text.isBlank c = false ∧ c ≠ '[' := by
  obtain ⟨c, cs, rfl⟩ := List.exists_cons_of_ne_nil h.ne_nil
  exact ⟨c, cs, rfl, Text.isBlank_of_trim h.trimmed, fun hc => h.bracket (by simp [hc])⟩

theorem trim_entry : Text.trim u.entry = match u.value with
    | some v => u.key ++ '=' :: Text.trimEnd v
    | none => u.key := by
  obtain ⟨c, cs, hk, hc, -⟩ := u.key_ok.exists_cons
  cases hv : u.value with
  | none => simp only [Update.entry, entry, hv, Text.trim_append_newline, u.key_ok.trimmed]
  | some v =>
    have he : Text.isBlank '=' = false := by decide
    simp only [Update.entry, entry, hv, Text.trim_append_newline]
    rw [hk, List.cons_append, Text.trim_cons hc, Text.trimEnd_append_cons he, List.cons_append]

theorem trim_entry_cons : ∃ c cs, Text.trim u.entry = c :: cs ∧ c ≠ '[' := by
  obtain ⟨c, cs, hk, -, hb⟩ := u.key_ok.exists_cons
  rw [trim_entry, hk]
  cases u.value with
  | none => exact ⟨c, cs, rfl, hb⟩
  | some v => exact ⟨c, _, rfl, hb⟩

theorem assigns_entry : assigns u.key (Text.trim u.entry) = true := by
  rw [trim_entry, assigns]
  cases u.value with
  | none => simp [Text.cutAt_of_not_mem u.key_ok.equals]
  | some v => simp [Text.cutAt_append u.key_ok.equals, u.key_ok.trimmed]

@[simp] theorem kind_entry : k.kind u.entry = if k.key = u.key then .setting else .plain := by
  obtain ⟨c, cs, ht, hc⟩ := trim_entry_cons u
  refine kind_of_setting (k := u.toSlot) (kind_eq_setting.2 ⟨?_, ?_, assigns_entry u⟩)
  · simp [ht, isHeader, hc]
  · simp [ht]

/-- What is read back is the value without the blanks around it. -/
theorem valueOf_entry : valueOf u.entry = Text.trim (u.value.getD []) := by
  rw [valueOf, trim_entry]
  cases u.value with
  | none => simp [Text.cutAt_of_not_mem u.key_ok.equals, Text.trim, Text.trimStart, Text.trimEnd]
  | some v => simp [Text.cutAt_append u.key_ok.equals, Text.trim_trimEnd]

theorem getLast?_entry : u.entry.getLast? = some '\n' := by
  rw [Update.entry, entry.eq_def]
  cases u.value <;> exact List.getLast?_concat

theorem isSpan_entry : Text.IsSpan u.entry := by
  have hk := u.key_ok.newline
  cases hv : u.value with
  | none => simpa [Update.entry, entry, hv] using Text.isSpan_append_newline hk
  | some v =>
    have hn := u.value_ok v hv
    simp only [Update.entry, entry, hv]
    exact Text.isSpan_append_newline (by simp [hk, hn])

theorem heading_eq (sec : List Char) : heading sec = '[' :: sec ++ [']'] ++ ['\n'] := by
  simp [heading]

theorem getLast?_heading (sec : List Char) : (heading sec).getLast? = some '\n' := by
  rw [heading_eq]
  exact List.getLast?_concat

theorem trim_heading (sec : List Char) : Text.trim (heading sec) = '[' :: sec ++ [']'] := by
  have h1 : Text.isBlank '[' = false := by decide
  have h2 : Text.isBlank ']' = false := by decide
  rw [heading_eq, Text.trim_append_newline, List.cons_append, Text.trim_cons h1,
    Text.trimEnd_append_cons h2]
  rfl

theorem opens_heading_self (sec : List Char) : opens sec (Text.trim (heading sec)) = true := by
  rw [trim_heading, opens_iff]
  exact ⟨[], rfl⟩

@[simp] theorem kind_heading_self : k.kind (heading k.sec) = .opening :=
  kind_eq_opening.2 (opens_heading_self k.sec)

theorem kind_heading {j : Slot} (hj : IsSection j.sec) (hk : IsSection k.sec) :
    j.kind (heading k.sec) = if j.sec = k.sec then .opening else .header :=
  kind_of_opening hj hk (kind_heading_self k)

theorem isSpan_heading {sec : List Char} (h : '\n' ∉ sec) : Text.IsSpan (heading sec) := by
  rw [heading_eq]
  exact Text.isSpan_append_newline (by simp [h])

@[simp] theorem kind_newline : k.kind ['\n'] = .blank :=
  kind_of_trim_eq_nil (by decide)

end Entry

/-! Looking up. -/

theorem getInside_cons (k : Slot) (inside : Bool) (l : List Char) (ls : List (List Char)) :
    getInside k.sec k.key inside (l :: ls) = match k.kind l with
      | .opening => none
      | .header => getInside k.sec k.key false ls
      | .setting => if inside then some (valueOf l) else getInside k.sec k.key inside ls
      | .blank | .plain => getInside k.sec k.key inside ls := by
  rw [getInside]
  rcases line_cases l with hl | hl | ⟨hl, hn⟩
  · rw [if_pos hl, kind_of_isHeader hl]
    split <;> simp_all
  · have ha : assigns k.key [] = false := by
      simpa [assigns, Text.cutAt] using k.key_ok.ne_nil
    rw [kind_of_trim_eq_nil hl]
    simp [hl, ha, isHeader]
  · rw [kind_of_content hl hn, if_neg (by simp [hl])]
    cases inside with
    | false => cases assigns k.key (Text.trim l) <;> rfl
    | true => cases assigns k.key (Text.trim l) <;> rfl

theorem getLines_cons (k : Slot) (l : List Char) (ls : List (List Char)) :
    getLines k.sec k.key (l :: ls) =
      if k.kind l = .opening then getInside k.sec k.key true ls else getLines k.sec k.key ls := by
  simp only [getLines, kind_eq_opening]

theorem getInside_congr {sec key : List Char} {inside : Bool} {ls ls' : List (List Char)}
    (h : ls.map Text.trim = ls'.map Text.trim) :
    getInside sec key inside ls = getInside sec key inside ls' := by
  induction ls generalizing inside ls' with
  | nil => simp_all
  | cons l ls ih =>
    cases ls' with
    | nil => simp at h
    | cons l' ls' =>
      simp only [List.map_cons, List.cons.injEq] at h
      simp only [getInside, h.1, ih h.2]

/-- A look-up sees no more of a line than what it trims to. -/
theorem getLines_congr {sec key : List Char} {ls ls' : List (List Char)}
    (h : ls.map Text.trim = ls'.map Text.trim) : getLines sec key ls = getLines sec key ls' := by
  induction ls generalizing ls' with
  | nil => simp_all
  | cons l ls ih =>
    cases ls' with
    | nil => simp at h
    | cons l' ls' =>
      simp only [List.map_cons, List.cons.injEq] at h
      simp only [getLines, h.1, ih h.2, getInside_congr h.2]

theorem get_eq (sec key text : List Char) :
    get sec key text = getLines sec key (Text.spans text) := by
  refine getLines_congr ?_
  rw [Text.lines, List.map_map]
  exact List.map_congr_left fun l _ => Text.trim_unterminated l

end ConanPipeline.Profile
