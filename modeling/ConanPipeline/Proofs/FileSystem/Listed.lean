import Mathlib.Data.List.Nodup
import ConanPipeline.Proofs.FileSystem.Tree

/-! The entries of a file system as they are listed. If each place is listed once, the entries are
what stands at the places (`Listed.node?_eq_some_iff`), in whatever order they are listed
(`Listed.node?_of_perm`), and a path leads to what stands at the places on its way
(`status_congr`, `linkStatus_congr`). -/

namespace ConanPipeline.FileSystem

/-- A name that the system could have given. -/
structure IsGiven (s : String) : Prop extends IsName s where
  no_slash : '/' ∉ s.toList
  no_end : '\x00' ∉ s.toList

variable {fs fs' : FileSystem} {cwd l : Location} {p : Path} {node : Node} {final : Bool}

section Places

variable (h : fs.SameAs fs')

include h in
theorem walk_congr (n : Nat) (l : Location) (xs : List String) :
    fs'.walk final n l xs = fs.walk final n l xs := by
  induction n, l, xs using walk_induction fs with
  | nil n l => rw [walk_nil, walk_nil]
  | dot n l rest ih => rw [walk_dot, walk_dot, ih]
  | refused n l s rest r hdot hr =>
    rw [walk_refused hdot hr, walk_refused hdot (by rwa [h.refused])]
  | up n l rest hx ih => rw [walk_up hx, walk_up (h.keepsWays.search l hx), ih]
  | long n l s rest hdot hup hx hlong =>
    rw [walk_long hdot hup hx hlong, walk_long hdot hup (h.keepsWays.search l hx) hlong]
  | name n l s rest hs ih ihn =>
    rw [walk_name hs, walk_name ⟨hs.toIsName, h.keepsWays.search l hs.search⟩, h.node]
    cases hnode : fs.node? (l ++ [s]) with
    | none => rfl
    | some node =>
      cases node with
      | directory => exact ih hnode
      | file b mode => rfl
      | link t =>
        cases n with
        | zero => rfl
        | succ n =>
          dsimp only [follow]
          rw [ihn t n hnode (Nat.lt_succ_self n), h.refused]

include h in
theorem locate_bind_congr (cwd : Location) (p : Path) :
    fs'.locate cwd final p >>= fs'.at? = fs.locate cwd final p >>= fs.at? := by
  have hat : fs'.at? = fs.at? := funext fun l => by rw [at?, at?, h.node]
  have hlocate : fs'.locate cwd final p = fs.locate cwd final p := by
    rw [locate, locate]
    exact congrArg _ (funext fun start => walk_congr h _ start _)
  rw [hat, hlocate]

include h in
/-- What a path leads to depends on what stands where and what is refused, and on nothing else. -/
theorem status_congr (cwd : Location) (p : Path) : fs'.status cwd p = fs.status cwd p :=
  locate_bind_congr h cwd p

include h in
theorem linkStatus_congr (cwd : Location) (p : Path) : fs'.linkStatus cwd p = fs.linkStatus cwd p :=
  locate_bind_congr h cwd p

end Places

instance (s : String) : Decidable (IsGiven s) :=
  decidable_of_iff (IsName s ∧ '/' ∉ s.toList ∧ '\x00' ∉ s.toList)
    ⟨fun ⟨h1, h2, h3⟩ => ⟨h1, h2, h3⟩, fun h => ⟨h.toIsName, h.no_slash, h.no_end⟩⟩

/-- Each place is listed once, by names that the system could have given. -/
structure Listed (fs : FileSystem) : Prop where
  once : (fs.entries.map Prod.fst).Nodup
  given : ∀ e ∈ fs.entries, ∀ s ∈ e.1, IsGiven s

namespace Listed

variable (h : fs.Listed)

include h

theorem node?_eq_some_iff (hl : l ≠ []) : fs.node? l = some node ↔ (l, node) ∈ fs.entries := by
  refine ⟨mem_entries_of_node? hl, fun hmem => ?_⟩
  obtain ⟨a, l, rfl⟩ := List.exists_cons_of_ne_nil hl
  have hfound : (fs.entries.find? fun e => e.1 == a :: l).isSome :=
    List.find?_isSome.2 ⟨_, hmem, beq_self_eq_true _⟩
  obtain ⟨e, he⟩ := Option.isSome_iff_exists.1 hfound
  have hplace : e.1 = a :: l := by simpa using List.find?_some he
  have hsame : e = (a :: l, node) :=
    List.inj_on_of_nodup_map h.once (List.mem_of_find?_eq_some he) hmem hplace
  rw [node?, he, hsame]
  rfl

theorem given_of_node? (hl : fs.node? l ≠ none) : ∀ s ∈ l, IsGiven s := by
  intro s hs
  obtain ⟨node, hnode⟩ := Option.ne_none_iff_exists'.1 hl
  exact h.given _ (mem_entries_of_node? (List.ne_nil_of_mem hs) hnode) s hs

theorem of_perm (hperm : fs'.entries.Perm fs.entries) : fs'.Listed where
  once := ((hperm.map Prod.fst).nodup_iff).2 h.once
  given e he := h.given e (hperm.mem_iff.1 he)

/-- In whatever order the places are listed, the same stands there. -/
theorem node?_of_perm (hperm : fs'.entries.Perm fs.entries) (l : Location) :
    fs'.node? l = fs.node? l := by
  by_cases hl : l = []
  · rw [hl, node?_nil, node?_nil]
  · refine Option.ext fun node => ?_
    rw [(h.of_perm hperm).node?_eq_some_iff hl, h.node?_eq_some_iff hl]
    exact hperm.mem_iff

end Listed

end ConanPipeline.FileSystem
