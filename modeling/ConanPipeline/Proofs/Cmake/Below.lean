import ConanPipeline.Proofs.Cmake.Shallowest
import ConanPipeline.Proofs.FileSystem.Directories

/-! Paths below a directory. What is in the tree of a directory is found there by the directory's
path with the names joined to it, if that is short enough and the directories on the way may be
searched (`status_pathBelow`). -/

namespace ConanPipeline.FileSystem

variable {fs fs' : FileSystem} {cwd top below ds l : Location} {root p : Path} {s n : String}
variable {j k mode : Nat} {b : ByteArray} {node : Node}

section Names

theorem IsGiven.words_eq (hs : IsGiven s) (hne : s ≠ "") : Path.words (Path.mk s).chars = [s] := by
  rw [Path.words, Path.chars, Path.pieces_of_not_mem hs.no_slash,
    List.filter_cons_of_pos (by simpa using hne), List.filter_nil, List.map_singleton,
    String.ofList_toList]

theorem IsGiven.steps_eq (hs : IsGiven s) (hne : s ≠ "") : (Path.mk s).steps = [s] := by
  have hslash : ¬ (Path.mk s).endsWithSlash = true := fun h =>
    hs.no_slash (List.mem_of_getLast? (beq_iff_eq.1 h))
  rw [Path.steps_eq, if_neg fun h => hslash h.1, List.append_nil, hs.words_eq hne]

theorem base_pathBelow (h : AreNames below) : (pathBelow root below).base cwd = root.base cwd := by
  induction below generalizing root with
  | nil => rfl
  | cons s below ih =>
    rw [AreNames, List.forall_mem_cons] at h
    refine (ih h.2).trans ?_
    rw [Path.base, Path.base, Path.isAbsolute_join h.1.1.isAbsolute_eq]

theorem words_pathBelow (h : AreNames below) :
    Path.words (pathBelow root below).chars = Path.words root.chars ++ below := by
  induction below generalizing root with
  | nil => exact (List.append_nil _).symm
  | cons s below ih =>
    rw [AreNames, List.forall_mem_cons] at h
    obtain ⟨⟨hs, hne⟩, hbelow⟩ := h
    refine (ih hbelow).trans ?_
    rw [Path.words_join hs.isAbsolute_eq, hs.words_eq hne, List.append_assoc]
    rfl

theorem steps_pathBelow (h : AreNames (ds ++ [n])) :
    (pathBelow root (ds ++ [n])).steps = Path.words root.chars ++ ds ++ [n] := by
  rw [AreNames, List.forall_mem_append, List.forall_mem_singleton] at h
  obtain ⟨hds, hn, hne⟩ := h
  rw [pathBelow_concat, Path.steps_join hn.isAbsolute_eq (isEmpty_of_ne hne),
    words_pathBelow hds, hn.steps_eq hne]

theorem mem_pathBelow {c : Char} (h : AreNames below) (hc : c ∈ (pathBelow root below).chars) :
    c ∈ root.chars ∨ c = '/' ∨ ∃ s ∈ below, c ∈ s.toList := by
  induction below generalizing root with
  | nil => exact .inl hc
  | cons s below ih =>
    rw [AreNames, List.forall_mem_cons] at h
    rcases ih h.2 hc with hmem | hmem | ⟨t, ht, hmem⟩
    · rcases Path.mem_join h.1.1.isAbsolute_eq hmem with hmem | hmem | hmem
      · exact .inl hmem
      · exact .inr (.inl hmem)
      · exact .inr (.inr ⟨s, List.mem_cons_self .., hmem⟩)
    · exact .inr (.inl hmem)
    · exact .inr (.inr ⟨t, List.mem_cons_of_mem _ ht, hmem⟩)

theorem usable_pathBelow (hu : root.Usable) (h : AreNames below)
    (hshort : (pathBelow root below).text.utf8ByteSize < pathLimit) :
    (pathBelow root below).Usable where
  no_end hend := by
    rcases mem_pathBelow h hend with hmem | hmem | ⟨s, hs, hmem⟩
    · exact hu.no_end hmem
    · exact absurd hmem (by decide)
    · exact (h s hs).1.no_end hmem
  not_empty := isEmpty_pathBelow hu.not_empty below
  short := hshort

end Names

/-- The directories on the way down from one place to another may be searched. -/
def Searchable (fs : FileSystem) (top below : Location) : Prop :=
  ∀ d, d <+: below → d ≠ below → fs.Allows .search (top ++ d)

section Down

variable (hfs : fs.WellFormed) (hnode : fs.node? (top ++ below) = some node)

theorem searchable_concat : fs.Searchable top (ds ++ [s]) ↔
    fs.Searchable top ds ∧ fs.Allows .search (top ++ ds) := by
  constructor
  · intro h
    refine ⟨fun d hpre _ => h d (hpre.trans (List.prefix_append ds [s])) ?_,
      h ds (List.prefix_append ds [s]) (by simp)⟩
    rintro rfl
    have hlength := hpre.length_le
    rw [List.length_append, List.length_singleton] at hlength
    omega
  · rintro ⟨h, hds⟩ d hpre hne
    have hpre' : d <+: ds := (List.prefix_concat_iff.1 hpre).resolve_left hne
    by_cases heq : d = ds
    · rwa [heq]
    · exact h d hpre' heq

include hfs hnode in
/-- Names lead down to what is not a link, if the directories above it may be searched. -/
theorem leads_down_iff (hlink : ∀ t, node ≠ .link t) (hnames : AreNames below) :
    fs.Leads true top below j l ↔ j = 0 ∧ l = top ++ below ∧ fs.Searchable top below := by
  induction below using List.reverseRecOn generalizing node j l with
  | nil =>
    rw [List.append_nil]
    constructor
    · intro h
      cases h
      exact ⟨rfl, rfl, fun d hpre hne => absurd (List.prefix_nil.1 hpre) hne⟩
    · rintro ⟨rfl, rfl, -⟩
      exact .here _
  | append_singleton ds s ih =>
    rw [← List.append_assoc] at hnode ⊢
    rw [AreNames, List.forall_mem_append, List.forall_mem_singleton] at hnames
    obtain ⟨hds, hs, -⟩ := hnames
    have hdir := hfs.parent (top ++ ds) s (hnode ▸ Option.some_ne_none node)
    have ih {j : Nat} {l : Location} := ih (j := j) (l := l) hdir (by simp) hds
    rw [searchable_concat]
    constructor
    · intro h
      obtain ⟨d, j, _, hd, hlast, rfl⟩ := h.split (by simp)
      obtain ⟨rfl, rfl, hsearch⟩ := ih.1 hd.of_enters
      rcases hlast.single_cases with ⟨hdot, -⟩ | ⟨hup, -⟩ | ⟨hstep, rfl, rfl, -⟩ | ⟨t, _, -, hl, -⟩
      · exact absurd hdot hs.not_dot
      · exact absurd hup hs.not_up
      · exact ⟨rfl, rfl, hsearch, hstep.search⟩
      · rw [hnode] at hl
        exact absurd (Option.some.inj hl) (hlink t)
    · rintro ⟨rfl, rfl, hsearch, hx⟩
      have hat : fs.at? (top ++ ds) = .ok (top ++ ds, .directory) :=
        at?_eq_ok_iff.2 ⟨rfl, .inl hdir⟩
      have hdown := (ih.2 ⟨rfl, rfl, hsearch⟩).enters_of_at? (fun x hx => (hds x hx).2) hat
      have hstep : fs.IsStep (top ++ ds) s := ⟨hs.toIsName, hx⟩
      have hlast : fs.Leads true (top ++ ds) [s] 0 (top ++ ds ++ [s]) := by
        cases node with
        | directory => exact .down hstep hnode (.here _)
        | file b mode => exact .stop hstep (by rw [hnode]; rfl)
        | link t => exact absurd rfl (hlink t)
      exact hdown.append hlast (by simp)

variable (hu : root.Usable) (hk : k ≤ linkLimit)
variable (he : fs.Enters (root.base cwd) root.steps k top)

include hfs hnode hu hk he in
/-- What is in a directory's tree and no link is found there by its path, if that is short enough
and the directories on the way may be searched. -/
theorem status_pathBelow (hlink : ∀ t, node ≠ .link t) (hnames : AreNames below) (hne : below ≠ [])
    {found : Location × Node} : fs.status cwd (pathBelow root below) = .ok found ↔
      found = (top ++ below, node) ∧ (pathBelow root below).text.utf8ByteSize < pathLimit ∧
        fs.Searchable top below := by
  -- the directory's own path may end in a slash, which is a step but no name
  have he' := he
  rw [Walks.filter_iff, Path.filter_steps, ← Path.filter_words, ← Walks.filter_iff] at he'
  have hsteps : (pathBelow root below).steps = Path.words root.chars ++ below := by
    obtain ⟨ds, s, rfl⟩ := (List.eq_nil_or_concat' below).resolve_left hne
    rw [steps_pathBelow hnames, List.append_assoc]
  constructor
  · intro h
    obtain ⟨m, hm, hat⟩ := exists_of_bind_eq_ok h
    obtain ⟨hu', j, -, hleads⟩ := locate_eq_ok_iff.1 hm
    rw [base_pathBelow hnames, hsteps] at hleads
    obtain ⟨d, j, i, hd, hrest, rfl⟩ := hleads.split fun hnil => absurd hnil hne
    obtain ⟨rfl, -⟩ := hd.enters_unique he'
    obtain ⟨rfl, rfl, hsearch⟩ := (leads_down_iff hfs hnode hlink hnames).1 hrest
    rw [at?, hnode] at hat
    exact ⟨(Except.ok.inj hat).symm, hu'.short, hsearch⟩
  · rintro ⟨rfl, hshort, hsearch⟩
    have hdown := (leads_down_iff hfs hnode hlink hnames).2 ⟨rfl, rfl, hsearch⟩
    have hleads := he'.append hdown fun hnil => absurd hnil hne
    have hbase : (pathBelow root below).base cwd = root.base cwd := base_pathBelow hnames
    rw [← hsteps, ← hbase] at hleads
    have hlocate := locate_eq_ok_iff.2 ⟨usable_pathBelow hu hnames hshort, k, hk, hleads⟩
    rw [status, hlocate]
    exact at?_eq_ok_iff.2 ⟨rfl, .inl hnode⟩

end Down

/-- A path that leads into a directory leads to it. -/
theorem status_of_enters (hu : p.Usable) (hk : k ≤ linkLimit)
    (he : fs.Enters (p.base cwd) p.steps k top) (hat : fs.at? top = .ok (top, .directory)) :
    fs.status cwd p = .ok (top, .directory) := by
  rw [status, locate_eq_ok_iff.2 ⟨hu, k, hk, he.of_enters⟩]
  exact hat

/-- The directory by a path can be listed. -/
structure CanList (fs : FileSystem) (root : Path) (top below : Location) : Prop where
  short : (pathBelow root below).text.utf8ByteSize < pathLimit
  search : fs.Searchable top below
  read : fs.Allows .read (top ++ below)

section Tree

variable (hfs : fs.WellFormed) (hu : root.Usable) (hk : k ≤ linkLimit)
variable (he : fs.Enters (root.base cwd) root.steps k top)

include hfs hu hk he in
/-- A directory in a directory's tree is opened by its path if it can be listed. -/
theorem openDirectory_pathBelow (hat : fs.at? top = .ok (top, .directory)) (hnames : AreNames below)
    (hdir : below = [] ∨ fs.node? (top ++ below) = some .directory) :
    fs.openDirectory cwd (pathBelow root below) = .ok l ↔
      l = top ++ below ∧ fs.CanList root top below := by
  have hstatus {found : Location × Node} : fs.status cwd (pathBelow root below) = .ok found ↔
      found = (top ++ below, .directory) ∧ (pathBelow root below).text.utf8ByteSize < pathLimit ∧
        fs.Searchable top below := by
    by_cases hne : below = []
    · subst hne
      have hroot : pathBelow root [] = root := rfl
      rw [hroot, status_of_enters hu hk he hat, List.append_nil, Except.ok.injEq, eq_comm]
      refine ⟨fun h => ⟨h, hu.short, fun d hpre hne => ?_⟩, And.left⟩
      exact absurd (List.prefix_nil.1 hpre) hne
    · exact status_pathBelow hfs (hdir.resolve_left hne) hu hk he (by simp) hnames hne
  rw [openDirectory]
  constructor
  · intro h
    split at h
    · cases h
    · rename_i l' hfound
      obtain ⟨hplace, hshort, hsearch⟩ := hstatus.1 hfound
      cases hplace
      split at h
      · cases h
      · rename_i hread
        cases h
        exact ⟨rfl, hshort, hsearch, hread⟩
    · cases h
  · rintro ⟨rfl, hlist⟩
    rw [hstatus.2 ⟨rfl, hlist.short, hlist.search⟩]
    dsimp only
    rw [hlist.read]

include hfs hu hk he in
/-- A file in a directory's tree is found by its path, if that is short enough and the directories
on the way may be searched. -/
theorem isExecutable_pathBelow (hnames : AreNames below)
    (hne : below ≠ []) (hnode : fs.node? (top ++ below) = some (.file b mode)) :
    fs.isExecutable cwd (pathBelow root below) = true ↔
      (pathBelow root below).text.utf8ByteSize < pathLimit ∧ fs.Searchable top below ∧
        mayExecute mode = true := by
  have hstatus {found : Location × Node} : fs.status cwd (pathBelow root below) = .ok found ↔ _ :=
    status_pathBelow hfs hnode hu hk he (by simp) hnames hne
  rw [isExecutable]
  constructor
  · intro h
    split at h
    · rename_i l' b' mode' hfound
      obtain ⟨hplace, hshort, hsearch⟩ := hstatus.1 hfound
      cases hplace
      exact ⟨hshort, hsearch, h⟩
    · cases h
  · rintro ⟨hshort, hsearch, hmode⟩
    rw [hstatus.2 ⟨rfl, hshort, hsearch⟩]
    exact hmode

end Tree

/-- A path that goes on from another is longer. -/
theorem size_pathBelow_le (hnames : AreNames (ds ++ below)) :
    (pathBelow root ds).text.utf8ByteSize ≤
      (pathBelow root (ds ++ below)).text.utf8ByteSize := by
  induction below using List.reverseRecOn with
  | nil => exact Nat.le_of_eq (by rw [List.append_nil])
  | append_singleton below s ih =>
    rw [← List.append_assoc] at hnames ⊢
    rw [AreNames, List.forall_mem_append, List.forall_mem_singleton] at hnames
    rw [pathBelow_concat]
    refine Nat.le_trans (ih hnames.1) ?_
    rcases Path.chars_join hnames.2.1.isAbsolute_eq (pathBelow root (ds ++ below)) with h | h
    · have htext : ((pathBelow root (ds ++ below)).join ⟨s⟩).text =
          (pathBelow root (ds ++ below)).text ++ s := by
        rw [← String.toList_inj, String.toList_append]
        exact h
      rw [htext, String.utf8ByteSize_append]
      exact Nat.le_add_right _ _
    · have htext : ((pathBelow root (ds ++ below)).join ⟨s⟩).text =
          (pathBelow root (ds ++ below)).text ++ ("/" ++ s) := by
        rw [← String.toList_inj, String.toList_append, String.toList_append]
        exact h
      rw [htext, String.utf8ByteSize_append]
      exact Nat.le_add_right _ _

end ConanPipeline.FileSystem
