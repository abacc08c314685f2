import ConanPipeline.Machine.Processes

/-! The names at the ends of paths. Joining, going on and looking on `PATH` keep the last name
(`fileName_join`, `fileName_which`). -/

namespace ConanPipeline

namespace Path

variable {p q : Path} {n tool : String}

theorem pieces_append (a b : List Char) : pieces (a ++ '/' :: b) = pieces a ++ pieces b := by
  induction a with
  | nil => rfl
  | cons c a ih =>
    rw [List.cons_append, pieces, pieces, ih]
    split
    · rfl
    · obtain ⟨w, ws, hw⟩ := List.exists_cons_of_ne_nil (pieces_ne_nil a)
      rw [hw]
      rfl

/-- What the pieces of a text name. -/
def body (cs : List Char) : List Component := ((pieces cs).filter fun w => !isIdle w).map componentOf

theorem body_append (a b : List Char) : body (a ++ '/' :: b) = body a ++ body b := by
  rw [body, pieces_append, List.filter_append, List.map_append]
  rfl

theorem components_eq_ite (p : Path) : p.components =
    if p.isAbsolute then .root :: body p.chars
    else if (pieces p.chars).head? = some ['.'] then .current :: body p.chars
    else body p.chars := rfl

theorem components_eq (p : Path) : p.components = body p.chars ∨
    p.components = .root :: body p.chars ∨ p.components = .current :: body p.chars := by
  rw [components_eq_ite]
  split
  · exact .inr (.inl rfl)
  · split
    · exact .inr (.inr rfl)
    · exact .inl rfl

theorem fileName_eq_last : p.fileName = some n ↔ p.components.getLast? = some (.name n) := by
  rw [fileName, lastComponent?]
  split <;> simp_all

theorem fileName_eq_some_iff : p.fileName = some n ↔ (body p.chars).getLast? = some (.name n) := by
  rw [fileName_eq_last]
  rcases components_eq p with h | h | h <;> rw [h]
  all_goals cases hb : body p.chars <;> simp

theorem body_join (hq : q.isAbsolute = false) :
    body (p.join q).chars = body p.chars ++ body q.chars := by
  rw [join, if_neg (by simp [hq])]
  split
  · rename_i hp
    have hchars : (Path.mk (p.text ++ q.text)).chars = p.chars ++ q.chars := by
      simp [chars]
    rw [hchars]
    rcases Bool.or_eq_true_iff.1 hp with hempty | hslash
    · rw [List.isEmpty_iff.1 hempty]
      rfl
    · obtain ⟨a, ha⟩ := List.getLast?_eq_some_iff.1 (beq_iff_eq.1 hslash)
      rw [ha, List.append_assoc, List.singleton_append, body_append, body_append]
      simp [body, pieces, isIdle]
  · have hchars : (Path.mk (p.text ++ "/" ++ q.text)).chars = p.chars ++ '/' :: q.chars := by
      simp [chars]
    rw [hchars, body_append]

theorem isEmpty_join (h : p.isEmpty = false ∨ q.isEmpty = false) :
    (p.join q).isEmpty = false := by
  rw [join]
  split
  · rename_i hq
    cases hchars : q.chars with
    | nil => simp [isAbsolute, hchars] at hq
    | cons => simp [isEmpty, hchars]
  · rcases h with h | h <;> split <;> simp_all [isEmpty, chars]

theorem fileName_join (h : q.fileName = some n) (p : Path) : (p.join q).fileName = some n := by
  cases hq : q.isAbsolute with
  | true => rwa [join_absolute hq]
  | false =>
    rw [fileName_eq_some_iff] at h ⊢
    rw [body_join hq, List.getLast?_append, h]
    rfl

theorem isNamed_iff (h : p.fileName = some n) (tool : String) :
    p.isNamed tool = ((stemOf n).toList.map Char.toLower == tool.toList.map Char.toLower) := by
  rw [isNamed, fileStem, h]
  rfl

theorem isNamed_join (h : q.isNamed tool = true) (p : Path) : (p.join q).isNamed tool = true := by
  cases hq : q.fileName with
  | none => simp [isNamed, fileStem, hq] at h
  | some n => rwa [isNamed_iff (fileName_join hq p), ← isNamed_iff hq]

/-- A path that has one name has no other. -/
theorem isNamed_of_isNamed {other : String} (h : p.isNamed tool = true)
    (hne : (tool.toList.map Char.toLower == other.toList.map Char.toLower) = false) :
    p.isNamed other = false := by
  cases hp : p.fileName with
  | none => simp [isNamed, fileStem, hp] at h
  | some n =>
    rw [isNamed_iff hp, beq_iff_eq] at h
    rw [isNamed_iff hp, h, hne]

end Path

/-- A program that is found has the name that it was looked for under. -/
theorem Machine.fileName_which {m : Machine} {tool : String} {p : Path}
    (htool : (Path.mk tool).components = [.name tool]) (h : m.which tool = some p) :
    p.fileName = some tool := by
  have hname : (Path.mk tool).fileName = some tool :=
    Path.fileName_eq_last.2 (by rw [htool]; rfl)
  have hmem := List.mem_of_find?_eq_some h
  simp only [Machine.candidates, htool, List.length_singleton, Nat.lt_irrefl, decide_false,
    Bool.false_and, Bool.false_eq_true, if_false] at hmem
  split at hmem
  · cases hmem
  · obtain ⟨d, -, rfl⟩ := List.mem_map.1 hmem
    exact Path.fileName_join hname _

theorem Machine.isNamed_which {m : Machine} {tool : String} {p : Path}
    (htool : (Path.mk tool).components = [.name tool]) (h : m.which tool = some p)
    (other : String) : p.isNamed other = (Path.mk tool).isNamed other := by
  have hname : (Path.mk tool).fileName = some tool :=
    Path.fileName_eq_last.2 (by rw [htool]; rfl)
  rw [Path.isNamed_iff (fileName_which htool h), Path.isNamed_iff hname]

end ConanPipeline
