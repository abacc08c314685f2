import ConanPipeline.Proofs.FileSystem.Names

/-! A path and those above it. The parent of a path is the path without its last component
(`components_parent`), and whoever goes from parent to parent comes to the root or to the empty path
(`upward_ancestors`). -/

namespace ConanPipeline.Path

/-- A path and those above it, nearest first. Each is the start of the one before it, without the last
component, and the last is the root or the empty path. -/
inductive Upward : Path → List Path → Prop
  | last {p : Path} (h : p.components = [] ∨ p.components = [.root]) : Upward p [p]
  | drop {p q : Path} {ps : List Path} {c : Component} (hpre : q.chars <+: p.chars)
      (h : p.components = q.components ++ [c]) (hc : c ≠ .root) (hq : Upward q ps) :
      Upward p (p :: ps)

variable {p q r : Path} {b cs : List Char} {ps : List Path} {n : Nat}

section Components

/-- What stands before the names of a path. -/
def lead (p : Path) : List Component :=
  if p.isAbsolute then [.root] else if (pieces p.chars).head? = some ['.'] then [.current] else []

theorem components_eq_lead (p : Path) : p.components = p.lead ++ body p.chars := by
  rw [components_eq_ite, lead]
  split
  · rfl
  · split <;> rfl

/-- What a name on the way stands for. -/
def componentNamed (s : String) : Component := if s = ".." then .parent else .name s

theorem componentNamed_ne_root (s : String) : componentNamed s ≠ .root := by
  rw [componentNamed]
  split <;> exact nofun

theorem body_eq_names (cs : List Char) : body cs = (names cs).map componentNamed := by
  rw [body, names, List.map_map]
  refine List.map_congr_left fun w _ => ?_
  have hup : String.ofList w = ".." ↔ w = ['.', '.'] := @String.ofList_inj w ['.', '.']
  rw [componentOf, Function.comp_apply, componentNamed]
  exact if_congr hup.symm rfl rfl

theorem lead_of_root (h : p.chars = '/' :: b) : p.lead = [.root] := by
  rw [lead, if_pos (by simp [isAbsolute, h])]

theorem lead_of_dot (h : p.chars = '.' :: b) (hb : b = [] ∨ b.head? = some '/') :
    p.lead = [.current] := by
  have hpieces : (pieces p.chars).head? = some ['.'] := by
    rw [h]
    rcases hb with rfl | hb
    · rfl
    · obtain ⟨rest, rfl⟩ := List.head?_eq_some_iff.1 hb
      rfl
  rw [lead, if_neg (by simp [isAbsolute, h]), if_pos hpieces]

theorem anchor_of_head?_pieces (h : (pieces cs).head? = some ['.']) : anchor cs = 1 := by
  cases cs with
  | nil => cases h
  | cons c cs =>
    rw [pieces] at h
    split at h
    · cases h
    · obtain ⟨w, ws, hw⟩ := List.exists_cons_of_ne_nil (pieces_ne_nil cs)
      rw [hw] at h
      obtain ⟨rfl, rfl⟩ : c = '.' ∧ w = [] := by simpa using h
      -- nothing but a slash can follow the dot
      cases cs with
      | nil => rfl
      | cons d cs =>
        by_cases hd : d = '/'
        · rw [hd]
          rfl
        · obtain ⟨v, vs, hv⟩ := List.exists_cons_of_ne_nil (pieces_ne_nil cs)
          rw [pieces, if_neg hd, hv] at hw
          cases hw

theorem lead_of_anchor (h : anchor p.chars = 0) : p.lead = [] := by
  rw [lead, if_neg, if_neg]
  · intro hdot
    rw [anchor_of_head?_pieces hdot] at h
    cases h
  · intro hroot
    rw [isAbsolute, beq_iff_eq] at hroot
    obtain ⟨b, hb⟩ := List.head?_eq_some_iff.1 hroot
    rw [hb] at h
    cases h

theorem prefix_of_front {front : List Char} (hq : q.chars = p.chars.take (anchor p.chars) ++ front)
    (hfront : front <+: p.chars.drop (anchor p.chars)) : q.chars <+: p.chars := by
  conv_rhs => rw [← List.take_append_drop (anchor p.chars) p.chars]
  rw [hq]
  exact (List.prefix_append_right_inj _).2 hfront

/-- What stands before the names is the same if the path is cut behind it. -/
theorem lead_eq_of_front {front : List Char} (hq : q.chars = p.chars.take (anchor p.chars) ++ front)
    (hfront : front <+: p.chars.drop (anchor p.chars)) (hne : front ≠ ['.']) : q.lead = p.lead := by
  obtain ⟨rest, hrest⟩ := prefix_of_front hq hfront
  rcases anchor_cases p.chars with ⟨b, hcs, hk⟩ | ⟨b, hcs, hk, hb⟩ | ⟨hcs, hk⟩
  · rw [hk, hcs] at hq
    rw [lead_of_root hcs, lead_of_root hq]
  · rw [hk, hcs] at hq hfront
    have hfront' : front = [] ∨ front.head? = some '/' := by
      cases front with
      | nil => exact .inl rfl
      | cons c front =>
        obtain ⟨rest', hrest'⟩ := hfront
        have hb' : b = c :: (front ++ rest') := hrest'.symm
        rw [hb'] at hb
        exact .inr (hb.resolve_left (List.cons_ne_nil _ _))
    rw [lead_of_dot hcs hb, lead_of_dot hq hfront']
  · rw [lead_of_anchor hk]
    refine lead_of_anchor ?_
    rcases anchor_cases q.chars with ⟨b, hb, -⟩ | ⟨b, hb, -, rfl | hslash⟩ | ⟨-, hk'⟩
    · exact absurd (by rw [← hrest, hb]; rfl) hcs
    · rw [hk, List.take_zero, List.nil_append] at hq
      exact absurd (hq.symm.trans hb) hne
    · obtain ⟨b', rfl⟩ := List.head?_eq_some_iff.1 hslash
      rw [← hrest, hb] at hk
      cases hk
    · exact hk'

/-- The parent of a path is its start without the last component. -/
theorem components_parent (h : p.parent = some q) : q.chars <+: p.chars ∧
    ∃ c, c ≠ .root ∧ p.components = q.components ++ [c] := by
  rcases parent_eq_some h with ⟨hq, hp, hdot, hk⟩ | ⟨front, s, hq, hfront, hne, hnames⟩
  · refine ⟨hq ▸ List.nil_prefix, .current, nofun, ?_⟩
    obtain ⟨b, hb⟩ := List.head?_eq_some_iff.1 hdot
    have hlead : p.lead = [.current] := by
      rcases anchor_cases p.chars with ⟨_, hcs, -⟩ | ⟨_, hcs, -, hb'⟩ | ⟨-, hk'⟩
      · rw [hb] at hcs
        cases hcs
      · exact lead_of_dot hcs hb'
      · rw [hk] at hk'
        cases hk'
    have hempty : q.components = [] := by
      rw [components_eq_lead, lead_of_anchor (by rw [hq]; rfl), body_eq_names, hq]
      rfl
    rw [components_eq_lead, hlead, body_eq_names, hp, hempty]
    rfl
  · have hlead := lead_eq_of_front hq hfront hne
    refine ⟨prefix_of_front hq hfront, componentNamed s, componentNamed_ne_root s, ?_⟩
    rw [components_eq_lead, components_eq_lead, hlead, body_eq_names, body_eq_names, hnames,
      List.map_append, List.append_assoc]
    rfl

/-- A path without a parent is the root or empty. -/
theorem components_of_parent_none (h : p.parent = none) :
    p.components = [] ∨ p.components = [.root] := by
  obtain ⟨hnames, hdot⟩ := parent_eq_none h
  rw [components_eq_lead, body_eq_names, hnames, List.map_nil, List.append_nil]
  rcases anchor_cases p.chars with ⟨b, hcs, -⟩ | ⟨b, hcs, hk, -⟩ | ⟨-, hk⟩
  · exact .inr (lead_of_root hcs)
  · exact absurd ⟨by rw [hcs]; rfl, hk⟩ hdot
  · exact .inl (lead_of_anchor hk)

end Components

section Chain

theorem ancestors_eq_cons (p : Path) : ∃ ps, p.ancestors = p :: ps := by
  rw [ancestors]
  cases p.chars.length <;> exact ⟨_, rfl⟩

theorem length_parent_lt (h : p.parent = some q) : q.chars.length < p.chars.length := by
  obtain ⟨hpre, c, -, hcomponents⟩ := components_parent h
  refine Nat.lt_of_le_of_ne hpre.length_le fun heq => ?_
  have hsame : q = p := congrArg Path.mk (String.toList_inj.1 (hpre.eq_of_length heq))
  rw [hsame] at hcomponents
  simp at hcomponents

theorem upward_ancestorsWithin (h : p.chars.length ≤ n) : p.Upward (p.ancestorsWithin n) := by
  induction n generalizing p with
  | zero =>
    have hp : p.parent = none := by
      cases hparent : p.parent with
      | none => rfl
      | some q => exact absurd (length_parent_lt hparent) (by omega)
    exact .last (components_of_parent_none hp)
  | succ n ih =>
    rw [ancestorsWithin]
    split
    · rename_i hp
      exact .last (components_of_parent_none hp)
    · rename_i q hq
      obtain ⟨hpre, c, hc, hcomponents⟩ := components_parent hq
      have hshort := length_parent_lt hq
      exact .drop hpre hcomponents hc (ih (by omega))

/-- The paths above a path come one after the other, each without the last component of the one
before. -/
theorem upward_ancestors (p : Path) : p.Upward p.ancestors := upward_ancestorsWithin (Nat.le_refl _)

theorem Upward.prefix_of_mem (h : p.Upward ps) (hr : r ∈ ps) : r.chars <+: p.chars := by
  induction h with
  | last => exact List.mem_singleton.1 hr ▸ List.prefix_refl _
  | drop hpre _ _ _ ih =>
    rcases List.mem_cons.1 hr with rfl | hr
    · exact List.prefix_refl _
    · exact (ih hr).trans hpre

end Chain

end ConanPipeline.Path
