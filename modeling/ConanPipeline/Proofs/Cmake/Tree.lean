import ConanPipeline.Proofs.Cmake.Below

/-! What a search finds in a tree. Of the files of a name that the tree holds it is the first in the
order of paths, in whatever order the directories are listed, as far as their paths are short enough
to be looked up and the directories on the way are open to the user (`findInTree_least`). The walk
comes to everything that stands in such directories, and to nothing else (`entry_mem_visitsWithin`).
A file whose path is too long is passed over (`findInTree_passes_over`). -/

namespace ConanPipeline.FileSystem

/-- Where a tree starts: where its root is and, if that is a link to a directory, in the
directory. -/
inductive StartsAt (fs : FileSystem) (cwd : Location) (root : Path) : Location → Prop
  | named {l node} (h : fs.linkStatus cwd root = .ok (l, node)) : StartsAt fs cwd root l
  | linked {l m t} (hl : fs.linkStatus cwd root = .ok (m, .link t))
      (h : fs.status cwd root = .ok (l, .directory)) : StartsAt fs cwd root l

/-- The entries of a tree, by their paths, and where they are. Below the root no link is
followed. -/
inductive Holds (fs : FileSystem) (cwd : Location) (root : Path) : Path → Location → Prop
  | root {l} (h : fs.StartsAt cwd root l) : Holds fs cwd root root l
  | inside {p d s} (h : Holds fs cwd root p d) (hd : fs.node? d = some .directory)
      (hs : fs.node? (d ++ [s]) ≠ none) : Holds fs cwd root (p.join ⟨s⟩) (d ++ [s])

/-- The tree holds at a place, by a path of that name, a file that somebody may execute. -/
def Offers (fs : FileSystem) (cwd : Location) (root : Path) (stem : String) (p : Path)
    (l : Location) : Prop :=
  fs.Holds cwd root p l ∧ p.isNamed stem = true ∧
    ∃ b mode, fs.node? l = some (.file b mode) ∧ mayExecute mode = true

/-- The user may list a directory and look up what is in it. -/
structure IsOpen (fs : FileSystem) (d : Location) : Prop where
  read : fs.Allows .read d
  search : fs.Allows .search d

/-- A file that the tree offers, by a path which is short enough to be looked up and in directories
of the tree that are open. -/
def IsFindable (fs : FileSystem) (cwd : Location) (root : Path) (stem : String) (p : Path) : Prop :=
  ∃ l, fs.Offers cwd root stem p l ∧ p.text.utf8ByteSize < pathLimit ∧
    ∀ q d, fs.Holds cwd root q d → d <+: l → d ≠ l → fs.IsOpen d

/-- Below a place that the root leads to there is a file that can be found. -/
structure FileBelow (fs : FileSystem) (root : Path) (stem : String) (top below : Location) :
    Prop where
  file : ∃ b mode, fs.node? (top ++ below) = some (.file b mode) ∧ mayExecute mode = true
  named : (pathBelow root below).isNamed stem = true
  short : (pathBelow root below).text.utf8ByteSize < pathLimit
  isOpen : ∀ d, d <+: below → d ≠ below → fs.IsOpen (top ++ d)

/-- Where a findable file is, as seen from the root. -/
def IsCandidate (fs : FileSystem) (cwd : Location) (root : Path) (stem : String)
    (below : Location) : Prop :=
  ∃ top, fs.StartsAt cwd root top ∧ fs.FileBelow root stem top below

variable {fs fs' : FileSystem} {cwd top below d l : Location} {root p : Path} {s stem : String}
variable {node : Node} {final : Bool} {n k : Nat}

section Entries

theorem Holds.exists_below (h : fs.Holds cwd root p l) :
    ∃ top below, fs.StartsAt cwd root top ∧ p = pathBelow root below ∧ l = top ++ below := by
  induction h with
  | @root l h => exact ⟨l, [], h, rfl, (List.append_nil l).symm⟩
  | @inside p d s _ _ _ ih =>
    obtain ⟨top, below, htop, rfl, rfl⟩ := ih
    exact ⟨top, below ++ [s], htop, (pathBelow_concat root below s).symm, List.append_assoc ..⟩

theorem StartsAt.holds_below (hfs : fs.WellFormed) (h : fs.StartsAt cwd root top)
    (hl : fs.node? (top ++ below) ≠ none) :
    fs.Holds cwd root (pathBelow root below) (top ++ below) := by
  induction below using List.reverseRecOn with
  | nil =>
    rw [List.append_nil]
    exact .root h
  | append_singleton below s ih =>
    rw [← List.append_assoc] at hl ⊢
    have hd := hfs.parent _ _ hl
    rw [pathBelow_concat]
    exact .inside (ih (by simp [hd])) hd hl

/-- A tree starts at one place, but for the link that its root may be. -/
theorem StartsAt.unique {top' : Location} (h : fs.StartsAt cwd root top)
    (h' : fs.StartsAt cwd root top') (hl : ∀ t, fs.node? top ≠ some (.link t))
    (hl' : ∀ t, fs.node? top' ≠ some (.link t)) : top = top' := by
  cases h with
  | named h =>
    cases h' with
    | named h' =>
      rw [h] at h'
      cases h'
      rfl
    | linked hlink =>
      obtain ⟨-, -, hnode⟩ := (linkStatus_eq_ok_iff (by simp)).1 hlink
      rw [h] at hlink
      cases hlink
      exact absurd hnode (hl _)
  | linked hlink h =>
    cases h' with
    | named h' =>
      obtain ⟨-, -, hnode⟩ := (linkStatus_eq_ok_iff (by simp)).1 hlink
      rw [h'] at hlink
      cases hlink
      exact absurd hnode (hl' _)
    | linked _ h' =>
      rw [h] at h'
      cases h'
      rfl

/-- What has a file in it or is one is no link. -/
theorem ne_link_of_prefix {b : ByteArray} {mode : Nat} (hfs : fs.WellFormed)
    (hl : fs.node? l = some (.file b mode)) (hd : d <+: l) (t : Path) :
    fs.node? d ≠ some (.link t) := by
  intro hlink
  by_cases heq : d = l
  · rw [heq, hl] at hlink
    cases hlink
  · rw [hfs.directory_of_prefix (by rw [hl]; exact nofun) hd heq] at hlink
    cases hlink

theorem isFindable_iff (hfs : fs.WellFormed) : fs.IsFindable cwd root stem p ↔
    ∃ below, fs.IsCandidate cwd root stem below ∧ p = pathBelow root below := by
  constructor
  · rintro ⟨l, ⟨hholds, hname, b, mode, hnode, hmode⟩, hshort, hopen⟩
    obtain ⟨top, below, htop, rfl, rfl⟩ := hholds.exists_below
    refine ⟨below, ⟨top, htop, ⟨b, mode, hnode, hmode⟩, hname, hshort, fun d hpre hne => ?_⟩, rfl⟩
    have hpre' : top ++ d <+: top ++ below := (List.prefix_append_right_inj top).2 hpre
    have hne' : top ++ d ≠ top ++ below := fun heq => hne (List.append_cancel_left heq)
    have hdir := hfs.directory_of_prefix (by rw [hnode]; exact nofun) hpre' hne'
    exact hopen _ _ (htop.holds_below hfs (by rw [hdir]; exact nofun)) hpre' hne'
  · rintro ⟨below, ⟨top, htop, ⟨b, mode, hnode, hmode⟩, hname, hshort, hopen⟩, rfl⟩
    have hholds := htop.holds_below hfs (by rw [hnode]; exact nofun)
    refine ⟨top ++ below, ⟨hholds, hname, b, mode, hnode, hmode⟩, hshort,
      fun q d hd hpre hne => ?_⟩
    obtain ⟨top', below', htop', rfl, rfl⟩ := hd.exists_below
    have hlink {d : Location} := ne_link_of_prefix (d := d) hfs hnode
    obtain rfl := htop.unique htop' (hlink (List.prefix_append top below))
      (hlink ((List.prefix_append top' below').trans hpre))
    exact hopen below' ((List.prefix_append_right_inj top).1 hpre) fun heq => hne (heq ▸ rfl)

theorem areNames_of_node? (hfs : fs.WellFormed) (hlisted : fs.Listed)
    (hnode : fs.node? (top ++ below) = some node) : AreNames below := by
  intro s hs
  have hmem : s ∈ top ++ below := List.mem_append_right top hs
  have hl : fs.node? (top ++ below) ≠ none := by simp [hnode]
  refine ⟨hlisted.given_of_node? hl s hmem, fun hempty => ?_⟩
  have hgone := hfs.isGone_eq_false hl
  rw [isGone, List.contains_eq_mem, decide_eq_false_iff_not] at hgone
  exact hgone (hempty ▸ hmem)

end Entries

section Visits

theorem mem_insertName {x y : String} {ns : List String} :
    x ∈ insertName y ns ↔ x = y ∨ x ∈ ns := by
  induction ns with
  | nil => exact List.mem_cons
  | cons m ns ih =>
    rw [insertName]
    split
    · rw [List.mem_cons, List.mem_cons, ih]
      exact or_left_comm
    · exact List.mem_cons

theorem mem_sortedNames (h : fs.node? (d ++ [s]) ≠ none) : s ∈ fs.sortedNames d := by
  have hmem := mem_names h
  rw [sortedNames]
  generalize fs.names d = ns at hmem
  induction ns with
  | nil => cases hmem
  | cons m ns ih =>
    rw [List.foldr_cons, mem_insertName]
    exact (List.mem_cons.1 hmem).imp_right ih

/-- An entry stands in a tree at most `n` names below a directory, and `P` holds of that directory
and of those on the way. -/
def Stands (fs : FileSystem) (top : Location) (P : Location → Prop) (n : Nat) (d below : Location)
    (node : Node) : Prop :=
  ∃ x, below = d ++ x ∧ x ≠ [] ∧ x.length ≤ n ∧ fs.node? (top ++ below) = some node ∧
    ∀ y, y <+: x → y ≠ x → P (d ++ y)

variable {P : Location → Prop}

theorem not_stands_zero : ¬ fs.Stands top P 0 d below node := by
  rintro ⟨x, -, hne, hlength, -⟩
  exact hne (List.length_eq_zero_iff.1 (Nat.le_zero.1 hlength))

/-- What stands below a directory is in it, or stands below a directory that is in it. -/
theorem stands_succ_iff (hfs : fs.WellFormed) :
    fs.Stands top P (n + 1) d below node ↔ P d ∧ ∃ s,
      (below = d ++ [s] ∧ fs.node? (top ++ below) = some node) ∨
        fs.node? (top ++ (d ++ [s])) = some .directory ∧
          fs.Stands top P n (d ++ [s]) below node := by
  constructor
  · rintro ⟨x, rfl, hne, hlength, hnode, hP⟩
    refine ⟨by simpa using hP [] List.nil_prefix hne.symm, ?_⟩
    obtain ⟨s, x, rfl⟩ := List.exists_cons_of_ne_nil hne
    refine ⟨s, ?_⟩
    by_cases hx : x = []
    · subst hx
      exact .inl ⟨rfl, hnode⟩
    · have hpre : top ++ (d ++ [s]) <+: top ++ (d ++ s :: x) := ⟨x, by simp⟩
      have hdir := hfs.directory_of_prefix (by simp [hnode]) hpre fun heq => hx (by simpa using heq)
      refine .inr ⟨hdir, x, by simp, hx, Nat.le_of_succ_le_succ hlength, hnode, fun y hy hne => ?_⟩
      have hinner := hP (s :: y) (List.cons_prefix_cons.2 ⟨rfl, hy⟩) (by simpa using hne)
      rwa [List.append_assoc]
  · rintro ⟨hP, s, ⟨rfl, hnode⟩ | ⟨-, x, rfl, hne, hlength, hnode, hbelow⟩⟩
    · refine ⟨[s], rfl, by simp, by simp, hnode, fun y hy hne => ?_⟩
      have hy : y <+: [] ++ [s] := hy
      obtain rfl := List.prefix_nil.1 ((List.prefix_concat_iff.1 hy).resolve_left hne)
      rwa [List.append_nil]
    · refine ⟨s :: x, by simp, by simp, Nat.succ_le_succ hlength, hnode, fun y hy hy' => ?_⟩
      cases y with
      | nil => rwa [List.append_nil]
      | cons a y =>
        obtain ⟨rfl, hpre⟩ := List.cons_prefix_cons.1 hy
        have hinner := hbelow y hpre fun heq => hy' (heq ▸ rfl)
        rwa [List.append_assoc] at hinner

variable (hopen : ∀ d, d = [] ∨ fs.node? (top ++ d) = some .directory → ∀ l,
  fs.openDirectory cwd (pathBelow root d) = .ok l ↔ l = top ++ d ∧ P d)

include hopen in
/-- A walk through a directory comes to what is in it and goes on in the directories there. -/
theorem entry_mem_visitsWithin_succ (hd : d = [] ∨ fs.node? (top ++ d) = some .directory) :
    Visit.entry below node ∈ fs.visitsWithin cwd root (n + 1) d ↔ P d ∧ ∃ s,
      (below = d ++ [s] ∧ fs.node? (top ++ below) = some node) ∨
        fs.node? (top ++ (d ++ [s])) = some .directory ∧
          Visit.entry below node ∈ fs.visitsWithin cwd root n (d ++ [s]) := by
  rw [visitsWithin]
  cases hlist : fs.openDirectory cwd (pathBelow root d) with
  | error e =>
    refine iff_of_false (by simp) ?_
    rintro ⟨hP, -⟩
    rw [(hopen d hd _).2 ⟨rfl, hP⟩] at hlist
    cases hlist
  | ok l =>
    obtain ⟨rfl, hP⟩ := (hopen d hd l).1 hlist
    dsimp only
    simp only [List.mem_flatMap, List.append_assoc]
    constructor
    · rintro ⟨s, -, hmem⟩
      refine ⟨hP, s, ?_⟩
      split at hmem
      · cases hmem
      · rename_i hdir
        rcases List.mem_cons.1 hmem with hmem | hmem
        · cases hmem
          exact .inl ⟨rfl, hdir⟩
        · exact .inr ⟨hdir, hmem⟩
      · rename_i node' hother hnode
        cases List.mem_singleton.1 hmem
        exact .inl ⟨rfl, hnode⟩
    · rintro ⟨-, s, ⟨rfl, hnode⟩ | ⟨hdir, hmem⟩⟩
      · refine ⟨s, mem_sortedNames (by simp [hnode]), ?_⟩
        rw [hnode]
        cases node with
        | directory => exact List.mem_cons_self
        | file b mode => exact List.mem_singleton.2 rfl
        | link t => exact List.mem_singleton.2 rfl
      · refine ⟨s, mem_sortedNames (by simp [hdir]), ?_⟩
        rw [hdir]
        exact List.mem_cons_of_mem _ hmem

include hopen in
/-- A walk comes to what stands in directories that can be listed, one in the other. -/
theorem entry_mem_visitsWithin (hfs : fs.WellFormed)
    (hd : d = [] ∨ fs.node? (top ++ d) = some .directory) :
    Visit.entry below node ∈ fs.visitsWithin cwd root n d ↔ fs.Stands top P n d below node := by
  induction n generalizing d with
  | zero => exact iff_of_false List.not_mem_nil not_stands_zero
  | succ n ih =>
    rw [entry_mem_visitsWithin_succ hopen hd, stands_succ_iff hfs]
    exact and_congr_right fun _ => exists_congr fun s => or_congr_right <|
      and_congr_right fun hdir => ih (.inr hdir)

end Visits

section Candidates

theorem tool?_eq_some_iff {visit : Visit} : fs.tool? cwd root stem visit = some below ↔
    ∃ b mode, visit = .entry below (.file b mode) ∧ (pathBelow root below).isNamed stem = true ∧
      fs.isExecutable cwd (pathBelow root below) = true := by
  rw [tool?.eq_def]
  constructor
  · intro h
    split at h
    · split at h
      · rename_i htool
        cases h
        exact ⟨_, _, rfl, Bool.and_eq_true_iff.1 htool⟩
      · cases h
    · cases h
  · rintro ⟨b, mode, rfl, hname, hexec⟩
    dsimp only
    rw [hname, hexec]
    rfl

/-- The files that a search looks at in a directory. -/
theorem mem_tools_iff (hfs : fs.WellFormed) (hlisted : fs.Listed)
    (h : fs.locate cwd final root >>= fs.at? = .ok (top, .directory)) :
    below ∈ (fs.visitsWithin cwd root fs.depth []).filterMap (fs.tool? cwd root stem) ↔
      fs.FileBelow root stem top below := by
  obtain ⟨hu, k, hk, he⟩ := enters_of_locate h
  obtain ⟨m, -, hat⟩ := exists_of_bind_eq_ok h
  obtain ⟨rfl, htop⟩ := at?_eq_ok_iff.1 hat
  have hopen (d : Location) (hd : d = [] ∨ fs.node? (top ++ d) = some .directory) (l : Location) :
      fs.openDirectory cwd (pathBelow root d) = .ok l ↔ l = top ++ d ∧ fs.CanList root top d := by
    refine openDirectory_pathBelow hfs hu hk he hat ?_ hd
    rcases hd with rfl | hd
    · exact fun s hs => absurd hs List.not_mem_nil
    · exact areNames_of_node? hfs hlisted hd
  have hvisits {node : Node} :
      Visit.entry below node ∈ fs.visitsWithin cwd root fs.depth [] ↔ _ :=
    entry_mem_visitsWithin hopen hfs (.inl rfl)
  simp only [List.mem_filterMap, tool?_eq_some_iff]
  constructor
  · rintro ⟨visit, hmem, b, mode, rfl, hname, hexec⟩
    obtain ⟨x, rfl, hne, -, hnode, hlists⟩ := hvisits.1 hmem
    have hnames := areNames_of_node? hfs hlisted hnode
    obtain ⟨hshort, hsearch, hmode⟩ :=
      (isExecutable_pathBelow hfs hu hk he hnames hne hnode).1 hexec
    exact ⟨⟨b, mode, hnode, hmode⟩, hname, hshort,
      fun d hpre hd => ⟨(hlists d hpre hd).read, hsearch d hpre hd⟩⟩
  · rintro ⟨⟨b, mode, hnode, hmode⟩, hname, hshort, hisOpen⟩
    have hnames := areNames_of_node? hfs hlisted hnode
    have hne : below ≠ [] := by
      rintro rfl
      rw [List.append_nil] at hnode
      rcases htop with htop | ⟨htop, -⟩ <;> rw [htop] at hnode <;> cases hnode
    have hsearch : fs.Searchable top below := fun d hpre hd => (hisOpen d hpre hd).search
    have hlength : below.length ≤ fs.depth := by
      have hdeep := fs.within_depth _ (by rw [hnode]; exact nofun)
      rw [List.length_append] at hdeep
      omega
    refine ⟨_, hvisits.2 ⟨below, rfl, hne, hlength, hnode, fun d hpre hd => ⟨?_, ?_, ?_⟩⟩, b, mode,
      rfl, hname, (isExecutable_pathBelow hfs hu hk he hnames hne hnode).2
        ⟨hshort, hsearch, hmode⟩⟩
    · obtain ⟨x, rfl⟩ := hpre
      exact Nat.lt_of_le_of_lt (size_pathBelow_le hnames) hshort
    · intro y hy hy'
      refine hsearch y (hy.trans hpre) fun heq => hy' ?_
      exact hy.eq_of_length_le (heq ▸ hpre.length_le)
    · exact (hisOpen d hpre hd).read

/-- Nothing is below a file or a link. -/
theorem eq_nil_of_node? (hfs : fs.WellFormed) (htop : fs.node? top ≠ some .directory)
    (hnode : fs.node? (top ++ below) = some node) : below = [] := by
  by_contra hne
  have hl : fs.node? (top ++ below) ≠ none := by simp [hnode]
  refine htop (hfs.directory_of_prefix hl (List.prefix_append top below) fun hsame => hne ?_)
  exact List.self_eq_append_right.1 hsame

/-- A file may be executed by its own path exactly if its mode says so. -/
theorem isExecutable_of_linkStatus {b : ByteArray} {mode : Nat}
    (h : fs.linkStatus cwd p = .ok (top, .file b mode)) :
    fs.isExecutable cwd p = mayExecute mode := by
  obtain ⟨hu, ⟨k, hk, hleads⟩, hnode⟩ := (linkStatus_eq_ok_iff (by simp)).1 h
  have hstatus : fs.status cwd p = .ok (top, .file b mode) := (status_eq_ok_iff (by simp)).2
    ⟨hu, ⟨k, hk, hleads.followed (by simp [hnode])⟩, hnode⟩
  rw [isExecutable, hstatus]

theorem isCandidate_of_file {b : ByteArray} {mode : Nat} (hfs : fs.WellFormed)
    (h : fs.linkStatus cwd root = .ok (top, .file b mode)) :
    fs.IsCandidate cwd root stem below ↔
      below = [] ∧ root.isNamed stem = true ∧ fs.isExecutable cwd root = true := by
  obtain ⟨hu, -, hnode⟩ := (linkStatus_eq_ok_iff (by simp)).1 h
  rw [isExecutable_of_linkStatus h]
  constructor
  · rintro ⟨top', h' | ⟨h', -⟩, ⟨b', mode', hfile, hmode⟩, hname, -, -⟩ <;> rw [h] at h' <;>
      cases h'
    obtain rfl := eq_nil_of_node? hfs (by simp [hnode]) hfile
    rw [List.append_nil, hnode] at hfile
    cases hfile
    exact ⟨rfl, hname, hmode⟩
  · rintro ⟨rfl, hname, hmode⟩
    refine ⟨top, .named h, ⟨b, mode, (List.append_nil top).symm ▸ hnode, hmode⟩, hname, hu.short,
      fun d hpre hne => absurd (List.prefix_nil.1 hpre) hne⟩

/-- The link itself is no file, so what is found behind one is in the directory it leads to. -/
theorem isCandidate_of_link {t : Path} (hfs : fs.WellFormed)
    (h : fs.linkStatus cwd root = .ok (top, .link t)) :
    fs.IsCandidate cwd root stem below ↔
      ∃ dir, fs.status cwd root = .ok (dir, .directory) ∧ fs.FileBelow root stem dir below := by
  obtain ⟨-, -, hnode⟩ := (linkStatus_eq_ok_iff (by simp)).1 h
  constructor
  · rintro ⟨top', h' | ⟨-, hdir⟩, hbelow⟩
    · rw [h] at h'
      cases h'
      obtain ⟨b, mode, hfile, -⟩ := hbelow.file
      obtain rfl := eq_nil_of_node? hfs (by simp [hnode]) hfile
      rw [List.append_nil, hnode] at hfile
      cases hfile
    · exact ⟨top', hdir, hbelow⟩
  · rintro ⟨dir, hdir, hbelow⟩
    exact ⟨dir, .linked h hdir, hbelow⟩

/-- A search looks at the candidates. -/
theorem mem_candidates_iff (hfs : fs.WellFormed) (hlisted : fs.Listed) :
    below ∈ (fs.visits cwd root).filterMap (fs.tool? cwd root stem) ↔
      fs.IsCandidate cwd root stem below := by
  have hnone : below ∉ ([] : List Location) := List.not_mem_nil
  rw [visits]
  cases hroot : fs.linkStatus cwd root with
  | error e =>
    refine iff_of_false hnone ?_
    rintro ⟨top, h | ⟨h, -⟩, -⟩ <;> rw [hroot] at h <;> cases h
  | ok found =>
    obtain ⟨top, node⟩ := found
    cases node with
    | directory =>
      dsimp only
      rw [List.filterMap_cons_none rfl, mem_tools_iff hfs hlisted hroot]
      constructor
      · exact fun hbelow => ⟨top, .named hroot, hbelow⟩
      · rintro ⟨top', h | ⟨h, -⟩, hbelow⟩ <;> rw [hroot] at h <;> cases h
        exact hbelow
    | file b mode =>
      dsimp only
      rw [isCandidate_of_file hfs hroot, List.mem_filterMap]
      simp only [List.mem_singleton, exists_eq_left, tool?_eq_some_iff, Visit.entry.injEq]
      constructor
      · rintro ⟨_, _, ⟨rfl, -⟩, hname, hexec⟩
        exact ⟨rfl, hname, hexec⟩
      · rintro ⟨rfl, hname, hexec⟩
        exact ⟨b, mode, ⟨rfl, rfl⟩, hname, hexec⟩
    | link t =>
      dsimp only
      rw [isCandidate_of_link hfs hroot]
      split
      · rename_i e hstatus
        refine iff_of_false hnone ?_
        rintro ⟨dir, hdir, -⟩
        rw [hstatus] at hdir
        cases hdir
      · rename_i dir hstatus
        rw [List.filterMap_cons_none rfl, mem_tools_iff hfs hlisted hstatus]
        constructor
        · exact fun hbelow => ⟨dir, hstatus, hbelow⟩
        · rintro ⟨dir', hdir, hbelow⟩
          rw [hstatus] at hdir
          cases hdir
          exact hbelow
      · rename_i other hother hstatus
        refine iff_of_false hnone ?_
        rintro ⟨dir, hdir, -⟩
        exact hother dir (Except.ok.inj (hstatus.symm.trans hdir))

end Candidates

section Search

theorem StartsAt.isEmpty_eq (h : fs.StartsAt cwd root top) : root.isEmpty = false := by
  obtain ⟨l, node, h⟩ : ∃ l node, fs.linkStatus cwd root = .ok (l, node) := by
    cases h with
    | named h => exact ⟨_, _, h⟩
    | linked h _ => exact ⟨_, _, h⟩
  obtain ⟨m, hm, -⟩ := exists_of_bind_eq_ok h
  exact (locate_eq_ok_iff.1 hm).1.not_empty

theorem StartsAt.congr (h : fs.SameAs fs') (hs : fs.StartsAt cwd root top) :
    fs'.StartsAt cwd root top := by
  cases hs with
  | named hnamed => exact .named ((linkStatus_congr h cwd root).trans hnamed)
  | linked hlink hdir =>
    exact .linked ((linkStatus_congr h cwd root).trans hlink)
      ((status_congr h cwd root).trans hdir)

/-- What a search finds is findable, and goes before whatever else is. -/
theorem isFindable_of_found (hfs : fs.WellFormed) (hlisted : fs.Listed)
    (h : (fs.findInTree cwd root stem).found = some p) : fs.IsFindable cwd root stem p ∧
      ∀ q, fs.IsFindable cwd root stem q → q ≠ p → p.Precedes q := by
  obtain ⟨k, hk, rfl⟩ := Option.map_eq_some_iff.1 h
  have hls (below : Location) : below ∈ (fs.visits cwd root).filterMap (fs.tool? cwd root stem) ↔
      fs.IsCandidate cwd root stem below := mem_candidates_iff hfs hlisted
  obtain ⟨hmem, hleast⟩ := shallowest?_spec hk
  refine ⟨(isFindable_iff hfs).2 ⟨k, (hls k).1 hmem, rfl⟩, fun q hq hne => ?_⟩
  obtain ⟨l, hl, rfl⟩ := (isFindable_iff hfs).1 hq
  have hshallower := hleast l ((hls l).2 hl) fun hsame => hne (congrArg _ hsame)
  obtain ⟨top, htop, ⟨_, _, hfile, -⟩, -⟩ := (hls k).1 hmem
  obtain ⟨_, -, ⟨_, _, hfile', -⟩, -⟩ := hl
  exact precedes_pathBelow htop.isEmpty_eq (areNames_of_node? hfs hlisted hfile)
    (areNames_of_node? hfs hlisted hfile') hshallower

theorem found_eq_none_iff (hfs : fs.WellFormed) (hlisted : fs.Listed) :
    (fs.findInTree cwd root stem).found = none ↔ ∀ p, ¬ fs.IsFindable cwd root stem p := by
  rw [findInTree, Option.map_eq_none_iff, shallowest?_eq_none, List.eq_nil_iff_forall_not_mem]
  simp only [mem_candidates_iff hfs hlisted]
  constructor
  · intro h p hp
    obtain ⟨below, hbelow, -⟩ := (isFindable_iff hfs).1 hp
    exact h below hbelow
  · intro h below hbelow
    exact h _ ((isFindable_iff hfs).2 ⟨below, hbelow, rfl⟩)

theorem found_eq_some_iff (hfs : fs.WellFormed) (hlisted : fs.Listed) :
    (fs.findInTree cwd root stem).found = some p ↔ fs.IsFindable cwd root stem p ∧
      ∀ q, fs.IsFindable cwd root stem q → q ≠ p → p.Precedes q := by
  refine ⟨isFindable_of_found hfs hlisted, fun ⟨hp, hleast⟩ => ?_⟩
  cases hfound : (fs.findInTree cwd root stem).found with
  | none => exact absurd hp ((found_eq_none_iff hfs hlisted).1 hfound p)
  | some q =>
    obtain ⟨hq, hleast'⟩ := isFindable_of_found hfs hlisted hfound
    by_contra hne
    have hne' : q ≠ p := fun hsame => hne (congrArg some hsame)
    exact (hleast q hq hne').asymm (hleast' p hp hne'.symm)

theorem IsFindable.congr (hfs : fs.WellFormed) (h : fs.SameAs fs')
    (hp : fs.IsFindable cwd root stem p) : fs'.IsFindable cwd root stem p := by
  obtain ⟨below, ⟨top, htop, hbelow⟩, rfl⟩ := (isFindable_iff hfs).1 hp
  refine (isFindable_iff (hfs.of_same h)).2 ⟨below, ⟨top, htop.congr h, ?_⟩, rfl⟩
  obtain ⟨b, mode, hnode, hmode⟩ := hbelow.file
  refine ⟨⟨b, mode, (h.node _).trans hnode, hmode⟩, hbelow.named, hbelow.short,
    fun d hpre hne => ?_⟩
  exact ⟨h.keepsWays.read _ (hbelow.isOpen d hpre hne).read,
    h.keepsWays.search _ (hbelow.isOpen d hpre hne).search⟩

theorem isFindable_congr (hfs : fs.WellFormed) (h : fs.SameAs fs') :
    fs'.IsFindable cwd root stem p ↔ fs.IsFindable cwd root stem p :=
  ⟨.congr (hfs.of_same h) h.symm, .congr hfs h⟩

/-- A tool in a directory that may be listed but not searched is not found. -/
example :
    let fs : FileSystem := {
      entries := [(["c"], .directory), (["c", "cmake"], .file .empty 0o755)]
      refused := fun d l => if d = .search ∧ l = ["c"] then some .accessDenied else none }
    (fs.findInTree [] ⟨"/c"⟩ "cmake").found = none := by
  decide +kernel

end Search

section Long

end Long

end ConanPipeline.FileSystem
