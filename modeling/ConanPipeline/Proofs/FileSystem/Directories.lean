import ConanPipeline.Proofs.FileSystem.Links

/-! Making a directory with those above it. Whatever comes of it, nothing that was there is changed,
and what is new are directories (`makeDirectories_makes`). On a path that is straight, where no `..`
stands behind a missing directory, they are all on the way to the one that was asked for. -/

namespace ConanPipeline

namespace Path

variable {p q : Path} {xs : List String}

theorem lastComponent?_of_names (h : names p.chars = xs ++ [".."]) :
    p.lastComponent? = some .parent := by
  have hlast := congrArg List.getLast? h
  rw [names, List.getLast?_map, List.getLast?_concat, Option.map_eq_some_iff] at hlast
  obtain ⟨w, hw, hup⟩ := hlast
  have hbody : (body p.chars).getLast? = some .parent := by
    have hdots : w = ['.', '.'] := String.ofList_inj.1 hup
    rw [body, List.getLast?_map, hw, hdots]
    rfl
  rw [lastComponent?]
  rcases components_eq p with hp | hp | hp <;> rw [hp]
  · exact hbody
  all_goals rw [List.getLast?_cons, hbody]; rfl

theorem ne_dot_of_mem_names {s : String} (h : s ∈ names p.chars) : s ≠ "." := by
  rw [← filter_steps, List.mem_filter] at h
  simpa using h.2

theorem Usable.of_prefix (hp : p.Usable) (h : q.chars <+: p.chars) (hq : q.isEmpty = false) :
    q.Usable := by
  obtain ⟨rest, hrest⟩ := h
  refine ⟨fun hend => hp.no_end (hrest ▸ List.mem_append_left _ hend), hq, ?_⟩
  have htext : p.text = q.text ++ String.ofList rest := by
    rw [← String.toList_inj, String.toList_append, String.toList_ofList]
    exact hrest.symm
  have hshort := hp.short
  rw [htext, String.utf8ByteSize_append] at hshort
  exact Nat.lt_of_le_of_lt (Nat.le_add_right _ _) hshort

end Path

namespace FileSystem

/-- The steps lead to where nothing is, over `n` links. More steps may remain there. -/
inductive Breaks (fs : FileSystem) : Location → List String → Nat → Prop
  | missing {l s rest} (hs : fs.IsStep l s) (hne : s ≠ "") (h : fs.node? (l ++ [s]) = none) :
      Breaks fs l (s :: rest) 0
  | dot {l rest n} (h : Breaks fs l rest n) : Breaks fs l ("." :: rest) n
  | up {l rest n} (hx : fs.Allows .search l) (h : Breaks fs l.dropLast rest n) :
      Breaks fs l (".." :: rest) n
  | down {l s rest n} (hs : fs.IsStep l s) (hd : fs.node? (l ++ [s]) = some .directory)
      (h : Breaks fs (l ++ [s]) rest n) : Breaks fs l (s :: rest) n
  | follow {l s t rest n} (hs : fs.IsStep l s) (hl : fs.node? (l ++ [s]) = some (.link t))
      (hk : fs.Allows .read (l ++ [s])) (ht : t.isEmpty = false)
      (h : Breaks fs (t.base l) (t.steps ++ rest) n) : Breaks fs l (s :: rest) (n + 1)

/-- All that was there is there, and what is new are directories on the way to a place. -/
structure Grown (fs : FileSystem) (there : Location) (fs' : FileSystem) : Prop where
  refused : fs'.refused = fs.refused
  kept : ∀ l node, fs.node? l = some node → fs'.node? l = some node
  added : ∀ l node, fs.node? l = none → fs'.node? l = some node →
    node = .directory ∧ l <+: there

/-- No `..` on the way to the path's directory stands behind a directory that is missing. -/
def Straight (fs : FileSystem) (cwd : Location) (p : Path) : Prop :=
  ∀ q ∈ p.ancestors, q.lastComponent? = some .parent → ∀ r, q.parent = some r →
    r.isEmpty = false → fs.status cwd r ≠ .error .noEntry

variable {fs fs' fs₁ fs₂ : FileSystem} {cwd l d m there : Location} {s : String}
variable {xs ys : List String} {n k : Nat} {p q : Path}

/-- A path without steps up is straight. -/
theorem straight_of_no_up (h : p.ancestors.all (fun q => q.lastComponent? != some .parent) = true) :
    fs.Straight cwd p := by
  intro q hq hup
  rw [List.all_eq_true] at h
  simpa [hup] using h q hq

section Missing

namespace Breaks

theorem of_dots (h : fs.Breaks l ys n) (hxs : ∀ x ∈ xs, x = ".") : fs.Breaks l (xs ++ ys) n := by
  induction xs with
  | nil => exact h
  | cons x xs ih =>
    rw [List.forall_mem_cons] at hxs
    rw [hxs.1]
    exact .dot (ih hxs.2)

/-- Dots on the way make no difference. -/
theorem of_filter (h : fs.Breaks l xs n)
    (heq : ys.filter (· != ".") = xs.filter (· != ".")) : fs.Breaks l ys n := by
  -- the steps that are the same are found behind dots
  have hcons {s : String} {rest ys : List String} (hs : s ≠ ".")
      (heq : ys.filter (· != ".") = (s :: rest).filter (· != ".")) :
      ∃ as bs, ys = as ++ s :: bs ∧ (∀ a ∈ as, a = ".") ∧
        bs.filter (· != ".") = rest.filter (· != ".") := by
    rw [List.filter_cons_of_pos (by simpa using hs), List.filter_eq_cons_iff] at heq
    obtain ⟨as, bs, rfl, has, -, hbs⟩ := heq
    exact ⟨as, bs, rfl, by simpa using has, hbs⟩
  induction h generalizing ys with
  | missing hs hne h =>
    obtain ⟨as, bs, rfl, has, -⟩ := hcons hs.not_dot heq
    exact of_dots (.missing hs hne h) has
  | dot _ ih => exact ih (by simpa using heq)
  | up hx _ ih =>
    obtain ⟨as, bs, rfl, has, hbs⟩ := hcons (by decide) heq
    exact of_dots (.up hx (ih hbs)) has
  | down hs hd _ ih =>
    obtain ⟨as, bs, rfl, has, hbs⟩ := hcons hs.not_dot heq
    exact of_dots (.down hs hd (ih hbs)) has
  | follow hs hl hk ht _ ih =>
    obtain ⟨as, bs, rfl, has, hbs⟩ := hcons hs.not_dot heq
    refine of_dots (.follow hs hl hk ht (ih ?_)) has
    rw [List.filter_append, List.filter_append, hbs]

theorem append (h : fs.Breaks l xs n) (ys : List String) : fs.Breaks l (xs ++ ys) n := by
  induction h with
  | missing hs hne h => exact .missing hs hne h
  | dot _ ih => exact .dot ih
  | up hx _ ih => exact .up hx ih
  | down hs hd _ ih => exact .down hs hd ih
  | follow hs hl hk ht _ ih =>
    rw [List.append_assoc] at ih
    exact .follow hs hl hk ht ih

end Breaks

/-- A step up from nowhere is not where the way breaks off. -/
theorem Breaks.of_concat_up (h : fs.Breaks l (xs ++ [".."]) n) : fs.Breaks l xs n := by
  generalize hsteps : xs ++ [".."] = steps at h
  induction h generalizing xs with
  | missing hs hne h =>
    rcases List.append_eq_cons_iff.1 hsteps with ⟨-, hup⟩ | ⟨xs, rfl, -⟩
    · cases hup
      exact absurd rfl hs.not_up
    · exact .missing hs hne h
  | dot h ih =>
    rcases List.append_eq_cons_iff.1 hsteps with ⟨-, hup⟩ | ⟨xs, rfl, hrest⟩
    · exact absurd (List.cons.inj hup).1 (by decide)
    · exact .dot (ih hrest.symm)
  | up hx h ih =>
    rcases List.append_eq_cons_iff.1 hsteps with ⟨-, hup⟩ | ⟨xs, rfl, hrest⟩
    · cases hup
      cases h
    · exact .up hx (ih hrest.symm)
  | down hs hd h ih =>
    rcases List.append_eq_cons_iff.1 hsteps with ⟨-, hup⟩ | ⟨xs, rfl, hrest⟩
    · cases hup
      exact absurd rfl hs.not_up
    · exact .down hs hd (ih hrest.symm)
  | @follow l s t rest n hs hl hk ht h ih =>
    rcases List.append_eq_cons_iff.1 hsteps with ⟨-, hup⟩ | ⟨xs, rfl, hrest⟩
    · cases hup
      exact absurd rfl hs.not_up
    · have hsteps : (t.steps ++ xs) ++ [".."] = t.steps ++ rest := by rw [hrest, List.append_assoc]
      exact .follow hs hl hk ht (ih hsteps)

theorem breaks_of_walk (hfs : fs.WellFormed) (hl : fs.IsSeat l) (hxs : ∀ x ∈ xs, x ≠ "")
    (h : fs.walk true n l xs >>= fs.at? = .error .noEntry) : ∃ k, k ≤ n ∧ fs.Breaks l xs k := by
  induction n, l, xs using walk_induction fs with
  | nil n l =>
    rw [walk_nil] at h
    change fs.at? l = _ at h
    rcases hl l (List.prefix_refl l) with hd | hgone
    · rw [at?, hd] at h
      cases h
    · rw [at?] at h
      split at h
      · cases h
      · rw [if_pos hgone] at h
        cases h
  | dot n l rest ih =>
    rw [walk_dot] at h
    obtain ⟨k, hk, h⟩ := ih hl (List.forall_mem_cons.1 hxs).2 h
    exact ⟨k, hk, .dot h⟩
  | refused n l s rest r hdot hr =>
    rw [walk_refused hdot hr] at h
    exact absurd (Except.error.inj h) r.errno_ne_noEntry
  | up n l rest hx ih =>
    rw [walk_up hx] at h
    obtain ⟨k, hk, h⟩ := ih hl.dropLast (List.forall_mem_cons.1 hxs).2 h
    exact ⟨k, hk, .up hx h⟩
  | long n l s rest hdot hup hx hlong =>
    rw [walk_long hdot hup hx hlong] at h
    cases h
  | name n l s rest hs ih ihn =>
    obtain ⟨hne, hrest⟩ := List.forall_mem_cons.1 hxs
    cases hnode : fs.node? (l ++ [s]) with
    | none => exact ⟨0, Nat.zero_le n, .missing hs hne hnode⟩
    | some node =>
      rw [walk_name hs, hnode] at h
      cases node with
      | directory =>
        obtain ⟨k, hk, h⟩ := ih hnode (hfs.isSeat hnode) hrest h
        exact ⟨k, hk, .down hs hnode h⟩
      | file b mode =>
        cases rest with
        | nil =>
          change fs.at? (l ++ [s]) = _ at h
          rw [at?, hnode] at h
          cases h
        | cons _ _ => cases h
      | link t =>
        have ht := hfs.target _ _ hnode
        simp only [Bool.not_true, Bool.and_false, Bool.false_eq_true, if_false] at h
        cases n with
        | zero => cases h
        | succ n =>
          rw [follow] at h
          split at h
          · rename_i r hr
            exact absurd (Except.error.inj h) r.errno_ne_noEntry
          · rename_i hread
            rw [if_neg (by simp [ht])] at h
            have hsteps : ∀ x ∈ t.steps ++ rest, x ≠ "" := fun x hx =>
              (List.mem_append.1 hx).elim Path.ne_empty_of_mem_steps (hrest x)
            obtain ⟨k, hk, h⟩ := ihn t n hnode (Nat.lt_succ_self n) (hl.base t) hsteps h
            exact ⟨k + 1, Nat.succ_le_succ hk, .follow hs hnode hread ht h⟩

theorem walk_of_breaks (h : fs.Breaks l xs k) (hk : k ≤ n) :
    fs.walk true n l xs >>= fs.at? = .error .noEntry := by
  induction h generalizing n with
  | @missing l s rest hs hne h =>
    rw [walk_name hs, h]
    cases rest with
    | nil =>
      change fs.at? (l ++ [s]) = _
      rw [at?, h]
      simp [hne]
    | cons _ _ => rfl
  | dot _ ih =>
    rw [walk_dot]
    exact ih hk
  | up hx _ ih =>
    rw [walk_up hx]
    exact ih hk
  | down hs hd _ ih =>
    rw [walk_name hs, hd]
    exact ih hk
  | @follow l s t rest k hs hl hread ht _ ih =>
    rw [walk_name hs, hl]
    cases n with
    | zero => cases hk
    | succ n =>
      simp only [Bool.not_true, Bool.and_false, Bool.false_eq_true, if_false, follow, hread, ht]
      exact ih (Nat.le_of_succ_le_succ hk)

/-- A directory that stands behind a missing one cannot be looked up. -/
theorem status_of_breaks (hp : p.Usable) (h : fs.Breaks (p.base cwd) p.steps k)
    (hk : k ≤ linkLimit) : fs.status cwd p = .error .noEntry := by
  rw [status, locate, origin_of_usable hp]
  exact walk_of_breaks h hk

end Missing

section Making

theorem Grown.of_same (h : fs.SameAs fs') (there : Location) : fs.Grown there fs' where
  refused := h.refused
  kept l node hl := (h.node l).trans hl
  added l node hl hl' := by
    rw [h.node, hl] at hl'
    cases hl'

theorem Grown.node?_eq_none (h : fs.Grown there fs') (hl : fs'.node? l = none) :
    fs.node? l = none := by
  cases hnode : fs.node? l with
  | none => rfl
  | some node =>
    rw [h.kept l node hnode] at hl
    cases hl

theorem Grown.trans (h : fs.Grown there fs₁) (h' : fs₁.Grown m fs') (hm : there <+: m) :
    fs.Grown m fs' where
  refused := h'.refused.trans h.refused
  kept l node hl := h'.kept l node (h.kept l node hl)
  added l node hl hl' := by
    cases hnode : fs₁.node? l with
    | none => exact h'.added l node hnode hl'
    | some node' =>
      obtain ⟨rfl, hthere⟩ := h.added l node' hl hnode
      rw [h'.kept l _ hnode] at hl'
      exact ⟨(Option.some.inj hl').symm, hthere.trans hm⟩

theorem grown_put (h : fs.node? (d ++ [s]) = none) :
    fs.Grown (d ++ [s]) (fs.put (d ++ [s]) .directory) := by
  have hput (l : Location) : (fs.put (d ++ [s]) .directory).node? l =
      if l = d ++ [s] then some .directory else fs.node? l := node?_put (by simp)
  refine ⟨rfl, fun l node hl => ?_, fun l node hl hl' => ?_⟩
  · rw [hput, if_neg, hl]
    rintro rfl
    simp [h] at hl
  · rw [hput] at hl'
    split at hl'
    · rename_i heq
      exact ⟨(Option.some.inj hl').symm, heq ▸ List.prefix_refl _⟩
    · simp [hl] at hl'

theorem Grown.keepsWays (h : fs.Grown there fs') : fs.KeepsWays fs' :=
  .of_refused h.refused fun l node _ => h.kept l node

theorem Grown.enters (h : fs.Grown there fs') (he : fs.Enters l xs k d) : fs'.Enters l xs k d :=
  he.enters_of_kept h.keepsWays

/-- Making a directory puts it where the last name of the path is looked up. -/
theorem makeDirectory_puts (h : fs.makeDirectory cwd p = .ok fs') :
    ∃ d s, fs.parentAndName cwd p = .ok (some (d, s)) ∧ fs.node? (d ++ [s]) = none ∧
      fs' = fs.put (d ++ [s]) .directory := by
  rw [makeDirectory] at h
  obtain ⟨place, hplace, h⟩ := exists_of_bind_eq_ok h
  cases place with
  | none => cases h
  | some place =>
    obtain ⟨d, s⟩ := place
    dsimp only at h
    split at h
    · cases h
    · cases h
    · rename_i hnone _
      cases h
      exact ⟨d, s, hplace, hnone, rfl⟩

/-- A directory that is made is new, in the directory that the names before it lead into. -/
theorem makeDirectory_ok (h : fs.makeDirectory cwd p = .ok fs') :
    ∃ d s xs k, Path.names p.chars = xs ++ [s] ∧ fs.Enters (p.base cwd) xs k d ∧
      fs.node? (d ++ [s]) = none ∧ fs.Grown (d ++ [s]) fs' ∧
      fs'.Enters (p.base cwd) (Path.names p.chars) k (d ++ [s]) := by
  obtain ⟨d, s, hplace, hnone, rfl⟩ := makeDirectory_puts h
  obtain ⟨-, -, ds, k, hsteps, hs, -, he⟩ := parentAndName_eq_some_iff.1 hplace
  have hnames : Path.names p.chars = ds.filter (· != ".") ++ [s] := by
    rw [← Path.names_withoutSlash, ← Path.filter_steps, hsteps, List.filter_append]
    simp [hs.not_dot]
  have hgrown := grown_put hnone
  have henters := Walks.filter_iff.1 he
  refine ⟨d, s, _, k, hnames, henters, hnone, hgrown, ?_⟩
  rw [hnames]
  have hnew : (fs.put (d ++ [s]) .directory).node? (d ++ [s]) = some .directory := by
    rw [node?_put (by simp), if_pos rfl]
  have hdown : (fs.put (d ++ [s]) .directory).Enters d [s] 0 (d ++ [s]) :=
    .down ⟨hs.toIsName, hs.search⟩ hnew (.here _)
  exact (hgrown.enters henters).append hdown fun _ _ => rfl

/-- A directory that is made is all that is new, and its path leads into it. -/
theorem makeDirectory_new (h : fs.makeDirectory cwd p = .ok fs') :
    p.Usable ∧ ∃ there k, k ≤ linkLimit ∧ fs'.Enters (p.base cwd) p.steps k there ∧
      fs.node? there = none ∧
        ∀ l, fs'.node? l = if l = there then some .directory else fs.node? l := by
  obtain ⟨d, s, hplace, hnone, rfl⟩ := makeDirectory_puts h
  obtain ⟨hu, -, ds, k, hsteps, hs, hk, he⟩ := parentAndName_eq_some_iff.1 hplace
  have hput (l : Location) : (fs.put (d ++ [s]) .directory).node? l =
      if l = d ++ [s] then some .directory else fs.node? l := node?_put (by simp)
  refine ⟨hu, d ++ [s], k, hk, ?_, hnone, hput⟩
  rw [Path.steps_withoutSlash] at hsteps
  rw [Walks.filter_iff, Path.filter_steps, ← Path.filter_words, ← Walks.filter_iff, hsteps]
  exact ((grown_put hnone).enters he).append
    (.down ⟨hs.toIsName, hs.search⟩ ((hput _).trans (if_pos rfl)) (.here _)) fun _ _ => rfl

theorem isEmpty_of_origin (h : origin cwd p = .error .noEntry) : p.isEmpty = true := by
  rw [origin] at h
  split at h
  · cases h
  · split at h
    · assumption
    · split at h <;> cases h

/-- Looking up what stands before a `.` or `..` at the end fails as looking up the path does. -/
theorem walk_of_parentAndName (h : fs.parentAndName cwd p = .error .noEntry)
    (hp : p.isEmpty = false) : p.Usable ∧ ∃ ds s, p.withoutSlash.steps = ds ++ [s] ∧
      (s = "." ∨ s = ".." → fs.walk true linkLimit (p.base cwd) ds >>= fs.at? = .error .noEntry) := by
  rw [parentAndName] at h
  rcases cases_of_bind_eq_error h with h | ⟨start, hstart, h⟩
  · rw [isEmpty_of_origin h] at hp
    cases hp
  · obtain ⟨hu, rfl⟩ := origin_eq_ok_iff.1 hstart
    refine ⟨hu, ?_⟩
    dsimp only at h
    split at h
    · cases h
    · rename_i s hs
      obtain ⟨ds, hds⟩ := List.getLast?_eq_some_iff.1 hs
      refine ⟨ds, s, hds, fun hdots => ?_⟩
      rw [hds, List.dropLast_concat] at h
      rcases cases_of_bind_eq_error h with h | ⟨dir, hdir, h⟩
      · rw [h]
        rfl
      · rw [hdir]
        change fs.at? dir = _
        have hs' : (decide (s = ".") || decide (s = "..")) = true := by simpa using hdots
        rw [at?]
        split at h
        · rename_i hnone
          rw [hnone]
          dsimp only
          rw [hs', Bool.and_true] at h
          split at h
          · cases h
          · rename_i hlast
            rw [if_neg (by simpa using hlast)]
        · split at h
          · rename_i r _
            exact absurd (Except.error.inj h) r.errno_ne_noEntry
          · rw [if_pos hs'] at h
            cases h
        · cases h

/-- A path that ends in `..` is refused for want of an entry only if what stands before is
missing. -/
theorem status_of_makeDirectory (hfs : fs.WellFormed) (hcwd : fs.IsSeat cwd)
    (h : fs.makeDirectory cwd p = .error .noEntry)
    (hup : Path.names p.chars = Path.names q.chars ++ [".."]) (hpre : q.chars <+: p.chars)
    (hq : q.isEmpty = false) (hroot : q.isAbsolute = p.isAbsolute) :
    fs.status cwd q = .error .noEntry := by
  have hp : p.isEmpty = false := by
    rw [Path.isEmpty, List.isEmpty_eq_false_iff]
    intro hnil
    rw [hnil] at hup
    exact absurd hup (by simp)
  have hplace : fs.parentAndName cwd p = .error .noEntry := by
    rw [makeDirectory] at h
    rcases cases_of_bind_eq_error h with h | ⟨place, -, h⟩
    · exact h
    · split at h
      · cases h
      · split at h
        · cases h
        · rename_i r _ _
          exact absurd (Except.error.inj h) r.errno_ne_noEntry
        · cases h
  obtain ⟨hu, ds, s, hds, hwalk⟩ := walk_of_parentAndName hplace hp
  have hbase : q.base cwd = p.base cwd := by rw [Path.base, Path.base, hroot]
  have hsteps : ds.filter (· != ".") ++ [s].filter (· != ".") =
      q.steps.filter (· != ".") ++ [".."] := by
    rw [← List.filter_append, ← hds, Path.filter_steps, Path.filter_steps, Path.names_withoutSlash,
      hup]
  have hne : ∀ x ∈ ds, x ≠ "" := fun x hx =>
    Path.ne_empty_of_mem_steps (p := p.withoutSlash) (hds ▸ List.mem_append_left _ hx)
  -- the last step that is not a dot is the step up
  by_cases hdot : s = "."
  · obtain ⟨k, hk, hb⟩ := breaks_of_walk hfs (hcwd.base p) hne (hwalk (Or.inl hdot))
    have hq' : fs.Breaks (p.base cwd) (q.steps ++ [".."]) k := by
      refine hb.of_filter ?_
      rw [List.filter_append, ← List.append_nil (ds.filter _)]
      simpa [hdot] using hsteps.symm
    exact status_of_breaks (hu.of_prefix hpre hq) (hbase ▸ hq'.of_concat_up) hk
  · rw [List.filter_cons_of_pos (by simpa using hdot), List.filter_nil] at hsteps
    obtain ⟨hfilter, hs⟩ := List.append_inj' hsteps rfl
    obtain ⟨k, hk, hb⟩ := breaks_of_walk hfs (hcwd.base p) hne
      (hwalk (Or.inr (List.cons.inj hs).1))
    exact status_of_breaks (hu.of_prefix hpre hq) (hbase ▸ hb.of_filter hfilter.symm) hk

theorem enters_of_locate {final : Bool}
    (h : fs.locate cwd final p >>= fs.at? = .ok (m, .directory)) :
    p.Usable ∧ ∃ k, k ≤ linkLimit ∧ fs.Enters (p.base cwd) p.steps k m := by
  obtain ⟨m', hm, hat⟩ := exists_of_bind_eq_ok h
  obtain ⟨hp, k, hk, hleads⟩ := locate_eq_ok_iff.1 hm
  obtain ⟨rfl, -⟩ := at?_eq_ok_iff.1 hat
  exact ⟨hp, k, hk, hleads.enters_of_at? (fun x hx => Path.ne_empty_of_mem_steps hx) hat⟩

theorem enters_of_status (h : fs.status cwd p = .ok (m, .directory)) :
    p.Usable ∧ ∃ k, k ≤ linkLimit ∧ fs.Enters (p.base cwd) p.steps k m := enters_of_locate h

theorem isDirectory_iff : fs.isDirectory cwd p = true ↔ p.Usable ∧ ∃ m k, k ≤ linkLimit ∧
    fs.Enters (p.base cwd) p.steps k m ∧ fs.at? m = .ok (m, .directory) := by
  rw [isDirectory]
  constructor
  · intro h
    split at h
    · rename_i m hstatus
      obtain ⟨hp, k, hk, hm⟩ := enters_of_status hstatus
      obtain ⟨m', -, hat⟩ := exists_of_bind_eq_ok hstatus
      obtain ⟨rfl, -⟩ := at?_eq_ok_iff.1 hat
      exact ⟨hp, m, k, hk, hm, hat⟩
    · cases h
  · rintro ⟨hp, m, k, hk, hm, hat⟩
    rw [status, locate_eq_ok_iff.2 ⟨hp, k, hk, hm.of_enters⟩]
    dsimp only [bind, Except.bind]
    rw [hat]

theorem enters_of_isDirectory (h : fs.isDirectory cwd p = true) :
    ∃ m k, fs.Enters (p.base cwd) (Path.names p.chars) k m := by
  obtain ⟨-, m, k, -, hm, -⟩ := isDirectory_iff.1 h
  rw [← Path.filter_steps]
  exact ⟨m, k, Walks.filter_iff.1 hm⟩

theorem isDirectory_of_makeDirectory (h : fs.makeDirectory cwd p = .ok fs') :
    fs'.isDirectory cwd p = true := by
  obtain ⟨hu, there, k, hk, henters, -, hnew⟩ := makeDirectory_new h
  exact isDirectory_iff.2
    ⟨hu, there, k, hk, henters, at?_eq_ok_iff.2 ⟨rfl, .inl ((hnew there).trans (if_pos rfl))⟩⟩

/-- What there is after directories were made: nothing new, or directories up to one that was
missing, and then the path leads into it if all went well. -/
def Makes {ε : Type} (fs : FileSystem) (cwd : Location) (p : Path)
    (r : Except ε Unit × FileSystem) : Prop :=
  fs.SameAs r.2 ∨ ∃ there, fs.node? there = none ∧ fs.Grown there r.2 ∧
    (r.1 = .ok () → ∃ k, r.2.Enters (p.base cwd) (Path.names p.chars) k there)

/-- How a failure is told makes no difference. -/
theorem Makes.of_outcome {ε ε' : Type} {r : Except ε Unit} {r' : Except ε' Unit}
    (h : fs.Makes cwd p (r, fs')) (hr : r' = .ok () → r = .ok ()) : fs.Makes cwd p (r', fs') :=
  h.imp_right fun ⟨there, hnone, hgrown, henters⟩ =>
    ⟨there, hnone, hgrown, fun hok => henters (hr hok)⟩

theorem makes_of_makeDirectory (h : fs.makeDirectory cwd p = .ok fs') :
    fs.Makes cwd p (Except.ok (ε := Errno) (), fs') := by
  obtain ⟨d, s, xs, k, -, -, hnone, hgrown, henters⟩ := makeDirectory_ok h
  exact Or.inr ⟨d ++ [s], hnone, hgrown, fun _ => ⟨k, henters⟩⟩

/-- Making a directory once those above it have been made. -/
theorem Makes.step (hfs : fs.WellFormed) (hcwd : fs.IsSeat cwd) (hpq : p.parent = some q)
    (hmissing : fs.makeDirectory cwd p = .error .noEntry)
    (hstraight : p.lastComponent? = some .parent → q.isEmpty = false →
      fs.status cwd q ≠ .error .noEntry) (hq : q.isEmpty = false)
    (h : fs.Makes cwd q (Except.ok (ε := Errno) (), fs₁)) :
    fs.Makes cwd p (match fs₁.makeDirectory cwd p with
      | .ok fs₂ => (.ok (), fs₂)
      | .error e => (if fs₁.isDirectory cwd p then .ok () else .error e, fs₁)) := by
  obtain ⟨⟨s, hnames⟩, hpre, hroot⟩ := (Path.parent_cases hpq).resolve_left
    fun h => by simp [Path.isEmpty, h.1] at hq
  have hbase : q.base cwd = p.base cwd := by rw [Path.base, Path.base, hroot]
  rcases h with hsame | ⟨there, hnone, hgrown, henters⟩
  · cases hmake : fs₁.makeDirectory cwd p with
    | ok fs₂ =>
      obtain ⟨d, s, xs, k, -, -, hfree, hgrown, henters⟩ := makeDirectory_ok hmake
      refine Or.inr ⟨d ++ [s], hsame.node _ ▸ hfree, ?_, fun _ => ⟨k, henters⟩⟩
      exact (Grown.of_same hsame (d ++ [s])).trans hgrown (List.prefix_refl _)
    | error e => exact Or.inl hsame
  · obtain ⟨k, henters⟩ := henters rfl
    rw [hbase] at henters
    cases hmake : fs₁.makeDirectory cwd p with
    | ok fs₂ =>
      obtain ⟨d, s', xs, k', hxs, hd, hfree, hgrown', henters'⟩ := makeDirectory_ok hmake
      -- the parent that was made is the directory that the new one goes into
      obtain ⟨rfl, -⟩ := List.append_inj' (hxs.symm.trans hnames) rfl
      obtain ⟨rfl, -⟩ := henters.enters_unique hd
      refine Or.inr ⟨there ++ [s'], hgrown.node?_eq_none hfree, ?_, fun _ => ⟨k', henters'⟩⟩
      exact hgrown.trans hgrown' (List.prefix_append _ _)
    | error e =>
      by_cases hdir : fs₁.isDirectory cwd p = true
      · obtain ⟨m, j, hm⟩ := enters_of_isDirectory hdir
        rw [hnames] at hm
        obtain ⟨d, j', i, hd, hlast, rfl⟩ := hm.split fun _ _ => rfl
        obtain ⟨rfl, -⟩ := henters.enters_unique hd
        have hnone' := hfs.node?_eq_none hnone (List.prefix_append there [s])
        -- nothing was inside the parent before, so the last name is no link and not missing
        rcases hlast.single_cases with ⟨hdot, -⟩ | ⟨hup, -⟩ | ⟨-, rfl, -, -⟩ | ⟨t, -, -, hlink, -⟩
        · exact absurd hdot (Path.ne_dot_of_mem_names (hnames ▸ List.mem_append_right _
            (List.mem_singleton.2 rfl)))
        · rw [hup] at hnames
          exact absurd (status_of_makeDirectory hfs hcwd hmissing hnames hpre hq hroot)
            (hstraight (Path.lastComponent?_of_names hnames) hq)
        · refine Or.inr ⟨there ++ [s], hnone', ?_, fun _ => ⟨_, hnames ▸ hm⟩⟩
          exact hgrown.trans (Grown.of_same (.refl _) _) (List.prefix_append _ _)
        · have hnew := (hgrown.added _ _ hnone' hlink).1
          cases hnew
      · refine Or.inr ⟨there, hnone, hgrown, fun hok => ?_⟩
        simp [hdir] at hok

theorem wellFormed_of_makeDirectory (hfs : fs.WellFormed) (h : fs.makeDirectory cwd p = .ok fs') :
    fs'.WellFormed := by
  obtain ⟨d, s, hplace, hnone, rfl⟩ := makeDirectory_puts h
  obtain ⟨-, hd, ds, k, hsteps, -⟩ := parentAndName_eq_some_iff.1 hplace
  have hs : s ≠ "" := Path.ne_empty_of_mem_steps (hsteps ▸ List.mem_append_right ds (by simp))
  exact hfs.of_set hd hs (by simp [hnone]) ((node?_put (by simp)).trans (if_pos rfl)) (by simp)
    fun l hl => (node?_put (by simp)).trans (if_neg hl)

/-- What holds at first, and stays true with each directory that is made, holds in the end. -/
theorem makeDirectories_induction {motive : FileSystem → Prop} {ps : List Path}
    (step : ∀ fs₁ fs₂, ∀ p ∈ ps, fs₁.makeDirectory cwd p = .ok fs₂ → motive fs₁ → motive fs₂)
    (h : motive fs) : motive (fs.makeDirectories cwd ps).2 := by
  induction ps with
  | nil => exact h
  | cons p ps ih =>
    have ih := ih fun fs₁ fs₂ q hq => step fs₁ fs₂ q (List.mem_cons_of_mem p hq)
    rw [makeDirectories]
    split
    · exact h
    · split
      · rename_i hmake
        exact step _ _ p List.mem_cons_self hmake h
      · split
        · rename_i habove
          rw [habove] at ih
          split
          · rename_i hmake
            exact step _ _ p List.mem_cons_self hmake ih
          · exact ih
        · rename_i habove
          rw [habove] at ih
          exact ih
      · exact h

/-- If all goes well there is a directory in the end. -/
theorem isDirectory_of_makeDirectories {ps : List Path} (hp : p.isEmpty = false)
    (h : fs.makeDirectories cwd (p :: ps) = (.ok (), fs')) : fs'.isDirectory cwd p = true := by
  have hdir {e : Errno} {fs : FileSystem}
      (h : ((if fs.isDirectory cwd p then .ok () else .error e : Except Errno Unit), fs) =
        (.ok (), fs')) : fs'.isDirectory cwd p = true := by
    split at h
    · rename_i hdir
      cases h
      exact hdir
    · cases h
  rw [makeDirectories, if_neg (by simp [hp])] at h
  split at h
  · rename_i hmake
    cases h
    exact isDirectory_of_makeDirectory hmake
  · split at h
    · split at h
      · rename_i hmake
        cases h
        exact isDirectory_of_makeDirectory hmake
      · exact hdir h
    · cases h
  · exact hdir h

/-- Whatever comes of making directories, what was there is there, and what is new are
directories. -/
theorem makeDirectories_makes (hfs : fs.WellFormed) (hcwd : fs.IsSeat cwd)
    (hstraight : ∀ q ∈ p.ancestorsWithin n, q.lastComponent? = some .parent → ∀ r,
      q.parent = some r → r.isEmpty = false → fs.status cwd r ≠ .error .noEntry) :
    fs.Makes cwd p (fs.makeDirectories cwd (p.ancestorsWithin n)) := by
  induction n generalizing p with
  | zero =>
    rw [Path.ancestorsWithin, makeDirectories]
    split
    · exact Or.inl (.refl fs)
    · split
      · rename_i hmake
        exact makes_of_makeDirectory hmake
      · rename_i hmissing
        simp only [makeDirectories, hmissing]
        exact Or.inl (.refl fs)
      · exact Or.inl (.refl fs)
  | succ n ih =>
    rw [Path.ancestorsWithin, List.forall_mem_cons] at hstraight
    rw [Path.ancestorsWithin, makeDirectories]
    split
    · exact Or.inl (.refl fs)
    · split
      · rename_i hmake
        exact makes_of_makeDirectory hmake
      · rename_i hmissing
        cases hpq : p.parent with
        | none =>
          simp only [makeDirectories, hmissing]
          exact Or.inl (.refl fs)
        | some q =>
          rw [hpq] at hstraight
          cases hq : q.isEmpty with
          | true =>
            -- nothing is made above a path that has no directory in it
            have habove : fs.makeDirectories cwd (q.ancestorsWithin n) = (.ok (), fs) := by
              cases n <;> rw [Path.ancestorsWithin, makeDirectories, if_pos hq]
            simp only [habove, hmissing]
            exact Or.inl (.refl fs)
          | false =>
            have hmakes := ih hstraight.2
            dsimp only
            split
            · rename_i fs₁ habove
              rw [habove] at hmakes
              exact hmakes.step hfs hcwd hpq hmissing (fun hup => hstraight.1 hup q rfl) hq
            · rename_i e fs₁ habove
              rw [habove] at hmakes
              rcases hmakes with hsame | ⟨there, hnone, hgrown, -⟩
              · exact Or.inl hsame
              · exact Or.inr ⟨there, hnone, hgrown, fun hok => nomatch hok⟩
      · exact Or.inl (.refl fs)

end Making

end FileSystem

end ConanPipeline
