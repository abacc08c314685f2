import ConanPipeline.Proofs.Cmake
import ConanPipeline.Proofs.FileSystem.Listed
import ConanPipeline.Proofs.Text.Bytes

/-! The order of what is found in a tree. One location is before another exactly if its path is
(`precedes_pathBelow`), by the number of components and then by their bytes, so the first of some
locations is the same in whatever order they are looked through (`shallowest?_spec`). -/

namespace ConanPipeline

/-- The bytes of a component as it is written. -/
def Component.bytes : Component → List UInt8
  | .root => Text.bytes "/"
  | .current => Text.bytes "."
  | .parent => Text.bytes ".."
  | .name s => Text.bytes s

/-- Fewer components, or as many that are smaller, one after the other, by their bytes. -/
def Path.Precedes (p q : Path) : Prop :=
  p.components.length < q.components.length ∨
    p.components.length = q.components.length ∧
      p.components.map Component.bytes < q.components.map Component.bytes

theorem Path.Precedes.asymm {p q : Path} (h : p.Precedes q) : ¬ q.Precedes p := by
  rintro (hlt | ⟨heq, hlt⟩)
  · rcases h with h | ⟨h, -⟩
    · exact absurd hlt (Nat.lt_asymm h)
    · exact absurd h.symm (Nat.ne_of_lt hlt)
  · rcases h with h | ⟨-, h⟩
    · exact absurd heq.symm (Nat.ne_of_lt h)
    · exact absurd hlt (List.lt_asymm h)

section Locations

variable {k l m : Location} {ls : List Location}

theorem lex_nameLt_iff : k.lex l nameLt = true ↔ k.map Text.bytes < l.map Text.bytes := by
  induction k generalizing l with
  | nil => cases l <;> simp
  | cons s k ih =>
    cases l with
    | nil => simp
    | cons t l =>
      rw [List.map_cons, List.map_cons, List.cons_lt_cons_iff, ← ih, ← Text.lex_iff_bytes,
        Text.bytes_injective.eq_iff]
      simp [List.cons_lex_cons, nameLt]

theorem shallower_iff : shallower k l = true ↔ k.length < l.length ∨
    k.length = l.length ∧ k.map Text.bytes < l.map Text.bytes := by
  rw [shallower, Bool.or_eq_true, Bool.and_eq_true, decide_eq_true_eq, beq_iff_eq, lex_nameLt_iff]

theorem shallower_trans (h : shallower k l = true) (h' : shallower l m = true) :
    shallower k m = true := by
  rw [shallower_iff] at *
  rcases h with h | ⟨heq, h⟩
  · rcases h' with h' | ⟨heq', -⟩
    · exact .inl (Nat.lt_trans h h')
    · exact .inl (heq' ▸ h)
  · rcases h' with h' | ⟨heq', h'⟩
    · exact .inl (heq ▸ h')
    · exact .inr ⟨heq.trans heq', List.lt_trans h h'⟩

theorem shallower_total (h : k ≠ l) : shallower k l = true ∨ shallower l k = true := by
  rw [shallower_iff, shallower_iff]
  rcases Nat.lt_trichotomy k.length l.length with hlt | heq | hgt
  · exact .inl (.inl hlt)
  · rcases Std.lt_trichotomy (k.map Text.bytes) (l.map Text.bytes) with hlt | hsame | hgt
    · exact .inl (.inr ⟨heq, hlt⟩)
    · exact absurd (List.map_injective_iff.2 Text.bytes_injective hsame) h
    · exact .inr (.inr ⟨heq.symm, hgt⟩)
  · exact .inr (.inl hgt)

theorem shallowest?_eq_none : shallowest? ls = none ↔ ls = [] := by
  cases ls with
  | nil => simp [shallowest?]
  | cons l ls =>
    refine iff_of_false ?_ (List.cons_ne_nil l ls)
    rw [shallowest?]
    split
    · exact Option.some_ne_none _
    · split <;> exact Option.some_ne_none _

/-- The shallowest of some locations is shallower than all others of them. -/
theorem shallowest?_spec (h : shallowest? ls = some k) :
    k ∈ ls ∧ ∀ l ∈ ls, l ≠ k → shallower k l = true := by
  refine ⟨mem_of_shallowest? h, ?_⟩
  induction ls generalizing k with
  | nil => cases h
  | cons a ls ih =>
    rw [List.forall_mem_cons]
    rw [shallowest?] at h
    split at h
    · rename_i hnone
      cases h
      rw [shallowest?_eq_none.1 hnone]
      exact ⟨fun h => absurd rfl h, List.forall_mem_nil _⟩
    · rename_i b hb
      have hleast := ih hb
      split at h
      · rename_i hba
        cases h
        exact ⟨fun _ => hba, hleast⟩
      · rename_i hba
        cases h
        refine ⟨fun h => absurd rfl h, fun l hl hne => ?_⟩
        by_cases hsame : a = b
        · exact hsame ▸ hleast l hl (hsame ▸ hne)
        · have hab := (shallower_total hsame).resolve_right hba
          by_cases hlb : l = b
          · exact hlb ▸ hab
          · exact shallower_trans hab (hleast l hl hlb)

end Locations

section Below

variable {p root : Path} {s : String} {k l : Location}

namespace FileSystem

/-- The names of a location as a tree has them. -/
def AreNames (l : Location) : Prop := ∀ s ∈ l, IsGiven s ∧ s ≠ ""

theorem IsGiven.isAbsolute_eq (hs : IsGiven s) : (Path.mk s).isAbsolute = false := by
  have h := Path.isAbsolute_ofChars hs.no_slash
  rwa [Path.ofChars, String.ofList_toList] at h

theorem isEmpty_of_ne (hne : s ≠ "") : (Path.mk s).isEmpty = false := by
  simpa [Path.isEmpty, Path.chars] using hne

theorem IsGiven.body_eq (hs : IsGiven s) (hne : s ≠ "") :
    Path.body (Path.mk s).chars = [.name s] := by
  have hempty : s.toList ≠ [] := fun h => hne (String.toList_inj.1 h)
  have hdot : s.toList ≠ ['.'] := fun h => hs.not_dot (String.toList_inj.1 h)
  have hup : s.toList ≠ ['.', '.'] := fun h => hs.not_up (String.toList_inj.1 h)
  rw [Path.body, Path.chars, Path.pieces_of_not_mem hs.no_slash,
    List.filter_cons_of_pos (by simp [Path.isIdle, hempty, hdot]), List.filter_nil,
    List.map_singleton, Path.componentOf, if_neg hup, String.ofList_toList]

end FileSystem

open FileSystem

theorem Path.head?_pieces_join {t : Path} (hp : p.isEmpty = false) (ht : t.isAbsolute = false) :
    (pieces (p.join t).chars).head? = (pieces p.chars).head? := by
  rw [join, if_neg (by simp [ht])]
  split
  · rename_i hslash
    rw [hp, Bool.false_or, beq_iff_eq, List.getLast?_eq_some_iff] at hslash
    obtain ⟨a, ha⟩ := hslash
    have hchars : (Path.mk (p.text ++ t.text)).chars = a ++ '/' :: t.chars := by
      have h : (Path.mk (p.text ++ t.text)).chars = p.chars ++ t.chars := String.toList_append
      rw [h, ha, List.append_assoc]
      rfl
    have hne := pieces_ne_nil a
    rw [hchars, ha, pieces_append, pieces_append, List.head?_append_of_ne_nil _ hne,
      List.head?_append_of_ne_nil _ hne]
  · have hchars : (Path.mk (p.text ++ "/" ++ t.text)).chars = p.chars ++ '/' :: t.chars := by
      simp [chars]
    rw [hchars, pieces_append, List.head?_append_of_ne_nil _ (pieces_ne_nil p.chars)]

/-- A name that is joined to a path is its last component. -/
theorem Path.components_join (hp : p.isEmpty = false) (hs : IsGiven s) (hne : s ≠ "") :
    (p.join ⟨s⟩).components = p.components ++ [.name s] := by
  rw [components_eq_ite, components_eq_ite, isAbsolute_join hs.isAbsolute_eq,
    head?_pieces_join hp hs.isAbsolute_eq, body_join hs.isAbsolute_eq, hs.body_eq hne]
  split
  · rfl
  · split <;> rfl

theorem components_pathBelow (hroot : root.isEmpty = false) (hl : AreNames l) :
    (pathBelow root l).components = root.components ++ l.map .name := by
  induction l generalizing root with
  | nil => exact (List.append_nil _).symm
  | cons s l ih =>
    rw [AreNames, List.forall_mem_cons] at hl
    obtain ⟨⟨hs, hne⟩, hl⟩ := hl
    have hjoin : (root.join ⟨s⟩).isEmpty = false := Path.isEmpty_join (.inl hroot)
    change (pathBelow (root.join ⟨s⟩) l).components = _
    rw [ih hjoin hl, Path.components_join hroot hs hne, List.append_assoc]
    rfl

/-- Below one directory, what is shallower goes first. -/
theorem precedes_pathBelow (hroot : root.isEmpty = false) (hk : AreNames k) (hl : AreNames l)
    (h : shallower k l = true) : (pathBelow root k).Precedes (pathBelow root l) := by
  have hbytes (m : Location) : (m.map Component.name).map Component.bytes = m.map Text.bytes :=
    List.map_map
  rw [Path.Precedes, components_pathBelow hroot hk, components_pathBelow hroot hl]
  simp only [List.length_append, List.length_map, List.map_append, hbytes]
  rcases shallower_iff.1 h with hlt | ⟨heq, hlt⟩
  · exact .inl (Nat.add_lt_add_left hlt _)
  · exact .inr ⟨congrArg _ heq, List.append_left_lt hlt⟩

end Below

end ConanPipeline
