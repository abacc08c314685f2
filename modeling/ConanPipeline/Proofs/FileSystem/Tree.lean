import ConanPipeline.FileSystem.Replace
import ConanPipeline.Proofs.FileSystem.Walk
import ConanPipeline.Proofs.Machine.Launch

/-! File systems that are trees, and look-ups in them by what walks relate. Whatever exists stands
in a directory, so a walk that comes to a file or a link with its last step has gone down to it
from a directory (`WellFormed.last_of_leads`). -/

namespace ConanPipeline

/-- A path that the system takes. -/
structure Path.Usable (p : Path) : Prop where
  no_end : '\x00' ∉ p.chars
  not_empty : p.isEmpty = false
  short : p.text.utf8ByteSize < FileSystem.pathLimit

instance (p : Path) : Decidable p.Usable :=
  decidable_of_iff ('\x00' ∉ p.chars ∧ p.isEmpty = false ∧
      p.text.utf8ByteSize < FileSystem.pathLimit)
    ⟨fun ⟨h1, h2, h3⟩ => ⟨h1, h2, h3⟩, fun h => ⟨h.no_end, h.not_empty, h.short⟩⟩

namespace FileSystem

/-- Entries stand in directories and have names, and links have targets. -/
structure WellFormed (fs : FileSystem) : Prop where
  parent : ∀ l s, fs.node? (l ++ [s]) ≠ none → fs.node? l = some .directory
  named : ∀ l, fs.node? (l ++ [""]) = none
  target : ∀ l t, fs.node? l = some (.link t) → t.isEmpty = false

/-- A place where somebody can be: it and what is over it are directories, or were taken away. -/
def IsSeat (fs : FileSystem) (l : Location) : Prop :=
  ∀ d, d <+: l → fs.node? d = some .directory ∨ d.getLast? = some ""

/-- No entry stands as deep as this. -/
def Within (fs : FileSystem) (n : Nat) : Prop := ∀ l, fs.node? l ≠ none → l.length < n

/-- The same stands everywhere, and the same is refused. -/
structure SameAs (fs fs' : FileSystem) : Prop where
  node : ∀ l, fs'.node? l = fs.node? l
  refused : fs'.refused = fs.refused

variable {fs fs' : FileSystem} {cwd l d m : Location} {s : String} {xs ds : List String}
variable {n k : Nat} {p t : Path} {node : Node} {final : Bool}

section Trees

/-- If nothing else is refused, ways are kept with the directories and links. -/
theorem KeepsWays.of_refused (hr : fs'.refused = fs.refused)
    (h : ∀ l node, (∀ b mode, node ≠ .file b mode) → fs.node? l = some node →
      fs'.node? l = some node) : fs.KeepsWays fs' where
  directory l := h l .directory fun _ _ => Node.noConfusion
  link l t := h l (.link t) fun _ _ => Node.noConfusion
  search l hl := (congrFun (congrFun hr .search) l).trans hl
  read l hl := (congrFun (congrFun hr .read) l).trans hl

theorem SameAs.refl (fs : FileSystem) : fs.SameAs fs := ⟨fun _ => rfl, rfl⟩

theorem SameAs.symm (h : fs.SameAs fs') : fs'.SameAs fs :=
  ⟨fun l => (h.node l).symm, h.refused.symm⟩

theorem SameAs.keepsWays (h : fs.SameAs fs') : fs.KeepsWays fs' :=
  .of_refused h.refused fun l _ _ hl => (h.node l).trans hl

theorem mem_entries_of_node? (hl : l ≠ []) (h : fs.node? l = some node) :
    (l, node) ∈ fs.entries := by
  obtain ⟨a, l, rfl⟩ := List.exists_cons_of_ne_nil hl
  rw [node?, Option.map_eq_some_iff] at h
  obtain ⟨entry, hfind, rfl⟩ := h
  have hkey : entry.1 = a :: l := by simpa using List.find?_some hfind
  rw [← hkey]
  exact List.mem_of_find?_eq_some hfind

theorem mem_names (h : fs.node? (d ++ [s]) ≠ none) : s ∈ fs.names d := by
  obtain ⟨node, hnode⟩ := Option.ne_none_iff_exists'.1 h
  rw [names, List.mem_filterMap]
  refine ⟨(d ++ [s], node), mem_entries_of_node? (by simp) hnode, ?_⟩
  simp

theorem within_depth (fs : FileSystem) : fs.Within fs.depth := by
  intro l hl
  rw [depth, Nat.lt_succ_iff]
  by_cases hnil : l = []
  · rw [hnil]
    exact Nat.zero_le _
  · obtain ⟨node, hnode⟩ := Option.ne_none_iff_exists'.1 hl
    have hmem := mem_entries_of_node? hnil hnode
    generalize fs.entries = es at hmem
    induction es with
    | nil => cases hmem
    | cons a es ih =>
      rw [List.map_cons, List.foldr_cons]
      rcases List.mem_cons.1 hmem with rfl | hmem
      · exact Nat.le_max_left _ _
      · exact Nat.le_trans (ih hmem) (Nat.le_max_right _ _)

/-- Well-formedness, entry by entry. -/
theorem wellFormed_of_entries (h : ∀ e ∈ fs.entries, fs.node? e.1.dropLast = some .directory ∧
    e.1.getLast? ≠ some "" ∧ e.2 ≠ .link ⟨""⟩) : fs.WellFormed where
  parent l s hl := by
    obtain ⟨node, hnode⟩ := Option.ne_none_iff_exists'.1 hl
    have hparent := (h _ (mem_entries_of_node? (by simp) hnode)).1
    rwa [List.dropLast_concat] at hparent
  named l := by
    by_contra hl
    obtain ⟨node, hnode⟩ := Option.ne_none_iff_exists'.1 hl
    exact (h _ (mem_entries_of_node? (by simp) hnode)).2.1 (by simp)
  target l t hl := by
    have hne : l ≠ [] := by
      rintro rfl
      cases hl
    have htarget := (h _ (mem_entries_of_node? hne hl)).2.2
    rw [Path.isEmpty, List.isEmpty_eq_false_iff]
    intro hnil
    have htext : t.text = "" := by
      rw [← String.toList_inj]
      exact hnil
    exact htarget (congrArg Node.link (congrArg Path.mk htext))

theorem WellFormed.of_same (hfs : fs.WellFormed) (h : fs.SameAs fs') : fs'.WellFormed where
  parent l s hl := by
    rw [h.node] at hl ⊢
    exact hfs.parent l s hl
  named l := (h.node _).trans (hfs.named l)
  target l t hl := hfs.target l t ((h.node l).symm.trans hl)

/-- What is put in a directory, under a name and not over another directory, keeps it a tree. -/
theorem WellFormed.of_set (hfs : fs.WellFormed) (hd : fs.node? d = some .directory) (hs : s ≠ "")
    (hfree : fs.node? (d ++ [s]) ≠ some .directory) (hnow : fs'.node? (d ++ [s]) = some node)
    (hnode : ∀ t, node ≠ .link t) (hothers : ∀ l, l ≠ d ++ [s] → fs'.node? l = fs.node? l) :
    fs'.WellFormed where
  parent l s' hl := by
    by_cases hplace : l ++ [s'] = d ++ [s]
    · obtain ⟨rfl, -⟩ := List.append_inj' hplace rfl
      rw [hothers l (by simp), hd]
    · rw [hothers _ hplace] at hl
      have hdir := hfs.parent l s' hl
      rw [hothers l, hdir]
      rintro rfl
      exact hfree hdir
  named l := by
    rw [hothers, hfs.named]
    intro hplace
    exact hs (List.cons.inj (List.append_inj' hplace rfl).2).1.symm
  target l t hl := by
    by_cases hplace : l = d ++ [s]
    · rw [hplace, hnow] at hl
      exact absurd (Option.some.inj hl) (hnode t)
    · exact hfs.target l t ((hothers l hplace).symm.trans hl)

theorem WellFormed.directory_of_prefix (hfs : fs.WellFormed) (hl : fs.node? l ≠ none)
    (h : d <+: l) (hne : d ≠ l) : fs.node? d = some .directory := by
  obtain ⟨x, rfl⟩ := h
  induction x using List.reverseRecOn with
  | nil => exact absurd (List.append_nil d).symm hne
  | append_singleton x s ih =>
    rw [← List.append_assoc] at hl
    have hx := hfs.parent _ _ hl
    by_cases hnil : x = []
    · rwa [hnil, List.append_nil] at hx
    · exact ih (by simp [hx]) (by simpa using hnil)

/-- Nothing is below a place that is missing. -/
theorem WellFormed.node?_eq_none (hfs : fs.WellFormed) (hd : fs.node? d = none) (h : d <+: l) :
    fs.node? l = none := by
  by_contra hl
  by_cases hdl : d = l
  · exact hl (hdl ▸ hd)
  · rw [hfs.directory_of_prefix hl h hdl] at hd
    cases hd

theorem WellFormed.isGone_eq_false (hfs : fs.WellFormed) (hl : fs.node? l ≠ none) :
    isGone l = false := by
  by_contra hgone
  have hmem : "" ∈ l := by simpa [isGone] using hgone
  obtain ⟨a, b, rfl⟩ := List.append_of_mem hmem
  exact hl (hfs.node?_eq_none (hfs.named a) ⟨b, by simp⟩)

theorem isSeat_root : fs.IsSeat [] := by
  intro d hd
  rw [List.prefix_nil.1 hd]
  exact Or.inl rfl

theorem WellFormed.isSeat (hfs : fs.WellFormed) (hl : fs.node? l = some .directory) :
    fs.IsSeat l := by
  intro d hd
  by_cases hdl : d = l
  · exact Or.inl (hdl ▸ hl)
  · exact Or.inl (hfs.directory_of_prefix (by simp [hl]) hd hdl)

theorem IsSeat.base (h : fs.IsSeat cwd) (p : Path) : fs.IsSeat (p.base cwd) := by
  rw [Path.base]
  split
  · exact isSeat_root
  · exact h

theorem IsSeat.dropLast (h : fs.IsSeat l) : fs.IsSeat l.dropLast :=
  fun d hd => h d (hd.trans (List.dropLast_prefix l))

theorem IsSeat.enters (h : fs.IsSeat l) (he : fs.Enters l xs n d) : fs.IsSeat d := by
  induction he with
  | here l => exact h
  | dot _ ih => exact ih h
  | up _ _ ih => exact ih h.dropLast
  | @down l s _ _ _ _ hd _ ih =>
    refine ih fun d hpre => ?_
    rcases List.prefix_concat_iff.1 hpre with rfl | hpre
    · exact Or.inl hd
    · exact h d hpre
  | stop _ he => cases he
  | @follow l _ t _ _ _ _ _ _ _ _ _ ih => exact ih (h.base t)

/-- Only a directory is a place to be in. -/
theorem IsSeat.eq_directory (h : fs.IsSeat l) (hfs : fs.WellFormed) (hl : fs.node? l = some node) :
    node = .directory := by
  rcases h l (List.prefix_refl l) with hd | hgone
  · rw [hd] at hl
    exact (Option.some.inj hl).symm
  · obtain ⟨a, rfl⟩ := List.getLast?_eq_some_iff.1 hgone
    rw [hfs.named] at hl
    cases hl

theorem IsSeat.directory (h : fs.IsSeat l) (hl : isGone l = false) :
    fs.node? l = some .directory := by
  refine (h l (List.prefix_refl l)).resolve_right fun hgone => ?_
  obtain ⟨a, rfl⟩ := List.getLast?_eq_some_iff.1 hgone
  simp [isGone] at hl

theorem IsSeat.of_kept (h : fs.IsSeat l)
    (hd : ∀ l, fs.node? l = some .directory → fs'.node? l = some .directory) : fs'.IsSeat l :=
  fun d hpre => (h d hpre).imp_left (hd d)

theorem seatWithin_of_directories {above : Location} (h : ∀ d, d <+: l → d ≠ [] →
    fs.node? (above ++ d) = some .directory ∨ d.getLast? = some "") :
    fs.seatWithin above l = l := by
  induction l generalizing above with
  | nil => rfl
  | cons s l ih =>
    have hs := h [s] ⟨l, rfl⟩ (List.cons_ne_nil s [])
    have hrest : ∀ d, d <+: l → d ≠ [] →
        fs.node? (above ++ [s] ++ d) = some .directory ∨ d.getLast? = some "" := by
      intro d hd hne
      have hd' := h (s :: d) (List.cons_prefix_cons.2 ⟨rfl, hd⟩) (List.cons_ne_nil s d)
      rwa [List.append_cons, List.getLast?_cons_of_ne_nil hne] at hd'
    rw [seatWithin, if_pos (hs.symm.imp_left (by simp)), ih hrest]

/-- Who is in a place where somebody can be stays in it. -/
theorem IsSeat.seat_eq (h : fs.IsSeat l) : fs.seat l = l :=
  seatWithin_of_directories fun d hd _ => h d hd

theorem directory_of_seatWithin {above : Location} (h : d <+: fs.seatWithin above l)
    (hd : d ≠ []) : fs.node? (above ++ d) = some .directory ∨ d.getLast? = some "" := by
  induction l generalizing above d with
  | nil => exact absurd (List.prefix_nil.1 h) hd
  | cons s l ih =>
    obtain ⟨x, d, rfl⟩ := List.exists_cons_of_ne_nil hd
    rw [seatWithin] at h
    split at h
    · rename_i hs
      obtain ⟨rfl, h⟩ := List.cons_prefix_cons.1 h
      by_cases hnil : d = []
      · subst hnil
        exact hs.symm.imp_right (by simp)
      · rw [List.append_cons, List.getLast?_cons_of_ne_nil hnil]
        exact ih h hnil
    · have hlast := List.getLast_mem (List.cons_ne_nil x d)
      obtain ⟨_, -, hempty⟩ := List.mem_map.1 (h.subset hlast)
      exact .inr (by rw [List.getLast?_eq_some_getLast (List.cons_ne_nil x d), ← hempty])

/-- Whatever has become of the files, one is in a place where somebody can be. -/
theorem isSeat_seat (fs : FileSystem) (l : Location) : fs.IsSeat (fs.seat l) := by
  intro d hd
  by_cases hnil : d = []
  · exact .inl (hnil ▸ rfl)
  · exact directory_of_seatWithin hd hnil

/-- A walk to a file, or to a link that it does not follow, ends with a name in a directory. -/
theorem WellFormed.last_of_leads (hfs : fs.WellFormed) (hl : fs.IsSeat l)
    (h : fs.Leads false l xs n m) (hm : fs.node? m = some node) (hnode : node ≠ .directory) :
    ∃ ds s d, xs = ds ++ [s] ∧ fs.IsStep d s ∧ fs.Enters l ds n d ∧ m = d ++ [s] ∧
      fs.node? d = some .directory := by
  rcases List.eq_nil_or_concat xs with rfl | ⟨ds, s, rfl⟩
  · cases h
    exact absurd (hl.eq_directory hfs hm) hnode
  · rw [List.concat_eq_append] at h ⊢
    obtain ⟨d, j, k, hd, hs, rfl⟩ := h.split fun hnil => nomatch hnil
    have hseat := hl.enters hd
    rcases hs.single_cases with ⟨-, rfl, -⟩ | ⟨-, rfl, -⟩ | ⟨hname, rfl, rfl, -⟩ |
      ⟨t, _, _, _, _, he, -⟩
    · exact absurd (hseat.eq_directory hfs hm) hnode
    · exact absurd (hseat.dropLast.eq_directory hfs hm) hnode
    · exact ⟨ds, s, d, rfl, hname, hd, rfl, hfs.parent d s (by simp [hm])⟩
    · cases he

end Trees

section Lookups

theorem origin_eq_ok_iff : origin cwd p = .ok l ↔ p.Usable ∧ l = p.base cwd := by
  rw [origin]
  split
  · rename_i h
    refine iff_of_false (by simp) fun hp => hp.1.no_end (by simpa using h)
  · rename_i hend
    split
    · rename_i h
      exact iff_of_false (by simp) fun hp => by simp [hp.1.not_empty] at h
    · rename_i hempty
      split
      · rename_i h
        exact iff_of_false (by simp) fun hp => absurd hp.1.short (Nat.not_lt.2 h)
      · rename_i hshort
        rw [Except.ok.injEq]
        constructor
        · rintro rfl
          exact ⟨⟨by simpa using hend, by simpa using hempty, Nat.not_le.1 hshort⟩, rfl⟩
        · rintro ⟨-, rfl⟩
          rfl

theorem origin_of_usable (hp : p.Usable) (cwd : Location) : origin cwd p = .ok (p.base cwd) :=
  origin_eq_ok_iff.2 ⟨hp, rfl⟩

theorem locate_eq_ok_iff : fs.locate cwd final p = .ok l ↔
    p.Usable ∧ ∃ k, k ≤ linkLimit ∧ fs.Leads final (p.base cwd) p.steps k l := by
  rw [← walk_eq_ok_iff, locate]
  constructor
  · intro h
    obtain ⟨start, hstart, hwalk⟩ := exists_of_bind_eq_ok h
    obtain ⟨hp, rfl⟩ := origin_eq_ok_iff.1 hstart
    exact ⟨hp, hwalk⟩
  · rintro ⟨hp, hwalk⟩
    rw [origin_of_usable hp]
    exact hwalk

theorem at?_eq_ok_iff : fs.at? l = .ok (m, node) ↔ m = l ∧ (fs.node? l = some node ∨
    fs.node? l = none ∧ l.getLast? = some "" ∧ node = .directory) := by
  rw [at?]
  cases hl : fs.node? l with
  | some node' => simp [eq_comm]
  | none =>
    by_cases hgone : l.getLast? = some "" <;> simp [hgone, eq_comm]

/-- A directory that is led to has been led into. -/
theorem Walks.enters_of_at? (h : fs.Leads final l xs n m) (hxs : ∀ x ∈ xs, x ≠ "")
    (hm : fs.at? m = .ok (m, .directory)) : fs.Enters l xs n m := by
  induction h with
  | here l => exact .here l
  | dot _ ih => exact .dot (ih (List.forall_mem_cons.1 hxs).2 hm)
  | up hx _ ih => exact .up hx (ih (List.forall_mem_cons.1 hxs).2 hm)
  | down hs hd _ ih => exact .down hs hd (ih (List.forall_mem_cons.1 hxs).2 hm)
  | @stop l s _ he =>
    rcases (at?_eq_ok_iff.1 hm).2 with hd | ⟨-, hlast, -⟩
    · rw [hd] at he
      cases he
    · rw [List.getLast?_concat, Option.some.injEq] at hlast
      exact absurd hlast (hxs s (List.mem_singleton.2 rfl))
  | @follow l s t rest k m hs hl hk _ ht _ ih =>
    refine .follow hs hl hk (fun _ => rfl) ht (ih (fun x hx => ?_) hm)
    exact (List.mem_append.1 hx).elim Path.ne_empty_of_mem_steps ((List.forall_mem_cons.1 hxs).2 x)

/-- What is found at the place of a path, if that is not a directory. -/
theorem locate_bind_eq_ok_iff (hnode : node ≠ .directory) :
    fs.locate cwd final p >>= fs.at? = .ok (l, node) ↔
      p.Usable ∧ (∃ k, k ≤ linkLimit ∧ fs.Leads final (p.base cwd) p.steps k l) ∧
        fs.node? l = some node := by
  rw [← and_assoc, ← locate_eq_ok_iff]
  constructor
  · intro h
    obtain ⟨m, hm, hat⟩ := exists_of_bind_eq_ok h
    obtain ⟨rfl, hl | ⟨-, -, hl⟩⟩ := at?_eq_ok_iff.1 hat
    · exact ⟨hm, hl⟩
    · exact absurd hl hnode
  · rintro ⟨hm, hl⟩
    rw [hm]
    exact at?_eq_ok_iff.2 ⟨rfl, Or.inl hl⟩

theorem status_eq_ok_iff (hnode : node ≠ .directory) : fs.status cwd p = .ok (l, node) ↔
    p.Usable ∧ (∃ k, k ≤ linkLimit ∧ fs.Leads true (p.base cwd) p.steps k l) ∧
      fs.node? l = some node := locate_bind_eq_ok_iff hnode

theorem linkStatus_eq_ok_iff (hnode : node ≠ .directory) : fs.linkStatus cwd p = .ok (l, node) ↔
    p.Usable ∧ (∃ k, k ≤ linkLimit ∧ fs.Leads false (p.base cwd) p.steps k l) ∧
      fs.node? l = some node := locate_bind_eq_ok_iff hnode

/-- A file that is written over, while all ways are kept, is found as before. -/
theorem status_of_kept {b b' : ByteArray} {mode mode' : Nat} (hways : fs.KeepsWays fs')
    (hp : fs.status cwd p = .ok (l, .file b mode)) (hnow : fs'.node? l = some (.file b' mode')) :
    fs'.status cwd p = .ok (l, .file b' mode') := by
  obtain ⟨hu, ⟨k, hk, h⟩, -⟩ := (status_eq_ok_iff (by simp)).1 hp
  have hends : endsAt true (fs'.node? l) = true := by
    rw [hnow]
    rfl
  exact (status_eq_ok_iff (by simp)).2 ⟨hu, ⟨k, hk, h.of_kept hways fun _ => hends⟩, hnow⟩

theorem isFile_iff :
    fs.isFile cwd p = true ↔ ∃ l b mode, fs.status cwd p = .ok (l, .file b mode) := by
  rw [isFile]
  split
  · rename_i l b mode hstatus
    exact iff_of_true rfl ⟨l, b, mode, hstatus⟩
  · rename_i hother
    refine iff_of_false (by simp) ?_
    rintro ⟨l, b, mode, hstatus⟩
    exact hother l b mode hstatus

theorem read_eq_ok_iff {b : ByteArray} : fs.read cwd p = .ok b ↔
    ∃ l mode, fs.status cwd p = .ok (l, .file b mode) ∧ fs.Allows .read l := by
  rw [read]
  constructor
  · intro h
    split at h
    · cases h
    · rename_i l node hstatus
      split at h
      · cases h
      · rename_i b mode hallowed
        cases h
        exact ⟨l, mode, hstatus, hallowed⟩
      · cases h
  · rintro ⟨l, mode, hstatus, hallowed⟩
    rw [Allows] at hallowed
    simp only [hstatus, hallowed]

theorem parentAndName_eq_some_iff : fs.parentAndName cwd p = .ok (some (d, s)) ↔
    p.Usable ∧ fs.node? d = some .directory ∧ ∃ ds k, p.withoutSlash.steps = ds ++ [s] ∧
      fs.IsStep d s ∧ k ≤ linkLimit ∧ fs.Enters (p.base cwd) ds k d := by
  rw [parentAndName]
  constructor
  · intro h
    obtain ⟨start, hstart, h⟩ := exists_of_bind_eq_ok h
    obtain ⟨hp, rfl⟩ := origin_eq_ok_iff.1 hstart
    dsimp only at h
    split at h
    · cases h
    · rename_i s' hs'
      obtain ⟨dir, hwalk, h⟩ := exists_of_bind_eq_ok h
      obtain ⟨ds, hds⟩ := List.getLast?_eq_some_iff.1 hs'
      rw [hds, List.dropLast_concat] at hwalk
      split at h
      · split at h <;> cases h
      · rename_i hdir
        split at h
        · cases h
        · rename_i hx
          split at h
          · cases h
          · rename_i hdots
            split at h
            · cases h
            · rename_i hshort
              cases h
              obtain ⟨k, hk, hleads⟩ := leads_of_walk hwalk
              have hname : IsName s := by
                simp only [Bool.or_eq_true, decide_eq_true_eq, not_or] at hdots
                exact ⟨hdots.1, hdots.2, Nat.not_lt.1 hshort⟩
              have hsteps (x : String) (hx : x ∈ ds) : x ≠ "" :=
                Path.ne_empty_of_mem_steps (hds ▸ List.mem_append_left [s] hx)
              exact ⟨hp, hdir, ds, k, hds, ⟨hname, hx⟩, hk,
                hleads.enters_of_at? hsteps (at?_eq_ok_iff.2 ⟨rfl, Or.inl hdir⟩)⟩
      · cases h
  · rintro ⟨hp, hdir, ds, k, hds, hs, hk, he⟩
    have hwalk := walk_of_leads (Walks.of_enters he) linkLimit
    rw [if_pos hk] at hwalk
    have hdots : (decide (s = ".") || decide (s = "..")) = false := by
      simp [hs.not_dot, hs.not_up]
    simp [origin_of_usable hp, hds, hwalk, hdir, hs.search, hdots, Nat.not_lt.2 hs.short, bind,
      Except.bind, pure, Except.pure]

end Lookups

section Long

/-- The directory `c` at the top, by a path with `n` slashes in front. -/
def slashed (n : Nat) : Path := ⟨String.ofList (List.replicate n '/') ++ "c"⟩

theorem chars_slashed (n : Nat) : (slashed n).chars = List.replicate n '/' ++ ['c'] := by
  rw [slashed, Path.chars, String.toList_append, String.toList_ofList]
  rfl

theorem size_slashed (n : Nat) : (slashed n).text.utf8ByteSize = n + 1 := by
  have hsize : (String.ofList (List.replicate n '/')).utf8ByteSize = n := by
    induction n with
    | zero => rfl
    | succ n ih =>
      rw [List.replicate_succ, String.ofList_cons, String.utf8ByteSize_append, ih, Nat.add_comm]
      rfl
  rw [slashed, String.utf8ByteSize_append, hsize]
  rfl

theorem words_slashes (n : Nat) (cs : List Char) :
    Path.words (List.replicate n '/' ++ cs) = Path.words cs := by
  induction n with
  | zero => rfl
  | succ n ih => exact (Path.words_append [] _).trans ih

theorem words_slashed (n : Nat) : Path.words (slashed n).chars = ["c"] := by
  rw [chars_slashed, words_slashes]
  decide

theorem steps_slashed (n : Nat) : (slashed n).steps = ["c"] := by
  have hslash : ¬ (slashed n).endsWithSlash = true := by
    simp [Path.endsWithSlash, chars_slashed]
  rw [Path.steps_eq, if_neg fun h => hslash h.1, words_slashed, List.append_nil]

theorem usable_slashed {n : Nat} (hn : n + 1 < pathLimit) : (slashed n).Usable where
  no_end := by
    rw [chars_slashed, List.mem_append, List.mem_singleton]
    rintro (h | h)
    · exact absurd (List.eq_of_mem_replicate h) (by decide)
    · exact absurd h (by decide)
  not_empty := by simp [Path.isEmpty, chars_slashed]
  short := (size_slashed n).symm ▸ hn

end Long

end FileSystem

end ConanPipeline
