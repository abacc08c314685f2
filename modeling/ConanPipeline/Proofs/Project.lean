import ConanPipeline.Proofs.Configure.Update
import ConanPipeline.Proofs.FileSystem.Tree
import ConanPipeline.Proofs.Path.Ancestors

/-! The project that is found. Its root is the nearest directory upward in which a settings file or
a descriptor can be looked up, and the settings are those of its own file (`discoverFrom_nearest`).
A file that cannot be looked up might as well not be there, be it that the user may not search a
directory on the way or that the path is too long (`discoverFrom_passes_over`). -/

namespace ConanPipeline

open FileSystem

/-- A directory contains, under a relative path and through links or not, what is found at a
place: the system takes the path, all directories on the way may be searched and all links read,
and there are no more links than it follows. -/
structure FileSystem.Contains (fs : FileSystem) (cwd : Location) (dir name : Path) (l : Location)
    (node : Node) : Prop where
  usable : (dir.join name).Usable
  led : ∃ d j k, fs.Enters (dir.base cwd) (Path.words dir.chars) j d ∧
    fs.Leads true d name.steps k l ∧ j + k ≤ linkLimit
  found : fs.at? l = .ok (l, node)

/-- The directory contains a file that makes it the root of a project. -/
def Project.Marked (fs : FileSystem) (cwd : Location) (dir : Path) : Prop :=
  ∃ name ∈ [settingsFile, descriptorFile], ∃ l b mode, fs.Contains cwd dir name l (.file b mode)

/-- What reading settings from an entry comes to. The refusal is that of reading it, if any. -/
def Node.settings (file : Path) : Option Refusal → Node → Except Failure Settings
  | some r, _ => .error ((Failure.of (.refused r.errno)).inside (.readingSettings file))
  | none, .file b _ =>
    match String.fromUTF8? b with
    | none => .error ((Failure.of .notUtf8).inside (.readingSettings file))
    | some text =>
      match Settings.ofText text with
      | none => .error ((Failure.of .malformed).inside (.parsingSettings file))
      | some settings => .ok settings
  | none, _ => .error ((Failure.of (.refused .isDirectory)).inside (.readingSettings file))

/-- How the project at a root is opened: with the settings of its own file, or without any if there
is none. A file that holds no settings is not passed over. -/
inductive Project.Opened (m : Machine) (root : Path) : Except Failure Project → Prop
  | own {l node} (h : m.files.Contains m.cwd root settingsFile l node) :
      Opened m root ((node.settings (root.join settingsFile) (m.files.refused .read l)).map
        (⟨root, ·, m.env.home⟩))
  | without (h : ∀ l node, ¬ m.files.Contains m.cwd root settingsFile l node) :
      Opened m root (.ok ⟨root, {}, m.env.home⟩)

variable {fs : FileSystem} {cwd l : Location} {dir name start : Path} {node : Node} {m : Machine}

section Lookups

theorem FileSystem.status_join_iff (habs : name.isAbsolute = false) (hne : name.isEmpty = false) :
    fs.status cwd (dir.join name) = .ok (l, node) ↔ fs.Contains cwd dir name l node := by
  have hsteps := Path.steps_ne_nil habs hne
  have hbase : (dir.join name).base cwd = dir.base cwd := by
    rw [Path.base, Path.base, Path.isAbsolute_join habs]
  constructor
  · intro h
    obtain ⟨m, hm, hat⟩ := exists_of_bind_eq_ok h
    obtain ⟨rfl, -⟩ := at?_eq_ok_iff.1 hat
    obtain ⟨hu, n, hn, hleads⟩ := locate_eq_ok_iff.1 hm
    rw [hbase, Path.steps_join habs hne] at hleads
    obtain ⟨d, j, k, hd, hk, rfl⟩ := hleads.split fun hnil => absurd hnil hsteps
    exact ⟨hu, ⟨d, j, k, hd, hk, hn⟩, hat⟩
  · rintro ⟨hu, ⟨d, j, k, hd, hk, hn⟩, hat⟩
    have hleads := hd.append hk fun hnil => absurd hnil hsteps
    rw [← Path.steps_join habs hne, ← hbase] at hleads
    rw [status, locate_eq_ok_iff.2 ⟨hu, _, hn, hleads⟩]
    exact hat

theorem FileSystem.isFile_join_iff (habs : name.isAbsolute = false) (hne : name.isEmpty = false) :
    fs.isFile cwd (dir.join name) = true ↔
      ∃ l b mode, fs.Contains cwd dir name l (.file b mode) := by
  rw [isFile_iff]
  simp only [status_join_iff habs hne]

theorem Project.isRoot_iff : isRoot fs cwd dir = true ↔ Marked fs cwd dir := by
  rw [isRoot, Bool.or_eq_true, isFile_join_iff (by decide) (by decide),
    isFile_join_iff (by decide) (by decide), Marked, List.exists_mem_cons_iff,
    List.exists_mem_cons_iff]
  simp

end Lookups

namespace Project

section Discovery

theorem findRoot_eq_none_iff :
    findRoot fs cwd start = none ↔ ∀ dir ∈ start.ancestors, ¬ Marked fs cwd dir := by
  rw [findRoot, List.find?_eq_none]
  simp only [isRoot_iff]

theorem findRoot_eq_some_iff : findRoot fs cwd start = some dir ↔ Marked fs cwd dir ∧
    ∃ nearer farther, start.ancestors = nearer ++ dir :: farther ∧
      ∀ p ∈ nearer, ¬ Marked fs cwd p := by
  rw [findRoot, List.find?_eq_some_iff_append]
  simp only [isRoot_iff, Bool.not_eq_true', ← Bool.not_eq_true]

theorem run_loadSettings {file : Path} (h : m.files.status m.cwd file = .ok (l, node)) :
    (loadSettings file).run.run m = (node.settings file (m.files.refused .read l), m) := by
  rw [loadSettings, Action.run_get_bind, readText, FileSystem.read, h]
  dsimp only
  cases m.files.refused .read l with
  | some r => rfl
  | none =>
    cases node with
    | directory | link => rfl
    | file b mode =>
      rw [Node.settings]
      dsimp only
      cases String.fromUTF8? b with
      | none => rfl
      | some text =>
        dsimp only
        cases Settings.ofText text <;> rfl

theorem run_loadSettingsOrDefault_of_ok {file : Path}
    (h : m.files.status m.cwd file = .ok (l, node)) :
    (loadSettingsOrDefault file).run.run m = (node.settings file (m.files.refused .read l), m) := by
  have hpresent : m.files.present m.cwd file = true := by
    rw [present, h]
    rfl
  rw [loadSettingsOrDefault, Action.run_get_bind, if_pos hpresent, run_loadSettings h]

theorem run_loadSettingsOrDefault_of_error {file : Path} {e : Errno}
    (h : m.files.status m.cwd file = .error e) :
    ∃ events, (loadSettingsOrDefault file).run.run m = (.ok {}, { m with events }) := by
  have hpresent : ¬ m.files.present m.cwd file = true := by
    rw [present, h]
    exact Bool.false_ne_true
  rw [loadSettingsOrDefault, Action.run_get_bind, if_neg hpresent]
  exact ⟨_, rfl⟩

theorem opened_openAt (m : Machine) (root : Path) :
    Opened m root ((openAt root).run.run m).1 := by
  have hiff {l : Location} {node : Node} :
      m.files.status m.cwd (root.join settingsFile) = .ok (l, node) ↔
        m.files.Contains m.cwd root settingsFile l node := status_join_iff (by decide) (by decide)
  rw [openAt]
  cases hstatus : m.files.status m.cwd (root.join settingsFile) with
  | error e =>
    obtain ⟨events, hrun⟩ := run_loadSettingsOrDefault_of_error hstatus
    rw [Action.run_bind_of_ok hrun]
    refine .without fun l node h => ?_
    rw [hiff.2 h] at hstatus
    cases hstatus
  | ok found =>
    obtain ⟨l, node⟩ := found
    have hrun := run_loadSettingsOrDefault_of_ok hstatus
    have hown := Opened.own (hiff.1 hstatus)
    cases hsettings : node.settings (root.join settingsFile) (m.files.refused .read l) with
    | error f =>
      rw [hsettings] at hrun hown
      rw [Action.run_bind_of_error hrun]
      exact hown
    | ok settings =>
      rw [hsettings] at hrun hown
      rw [Action.run_bind_of_ok hrun]
      exact hown

/-- The project that is found has for its root the first of the start and the directories above it,
each without the last component of the one before, that contains a settings file or a descriptor,
and there is none to be found if none of them does. The settings are those of the root's own
file, or the defaults. -/
theorem discoverFrom_nearest (m : Machine) (start : Path) :
    start.Upward start.ancestors ∧
    (∀ dir, findRoot m.files m.cwd start = some dir ↔ Marked m.files m.cwd dir ∧
      ∃ nearer farther, start.ancestors = nearer ++ dir :: farther ∧
        ∀ p ∈ nearer, ¬ Marked m.files m.cwd p) ∧
    (findRoot m.files m.cwd start = none ↔
      ∀ dir ∈ start.ancestors, ¬ Marked m.files m.cwd dir) ∧
    match findRoot m.files m.cwd start with
    | some dir => Opened m dir ((discoverFrom start).run.run m).1
    | none => ((discoverFrom start).run.run m).1 =
        .error (.of (.missing "buildkit.toml or conanfile.py" start)) := by
  refine ⟨start.upward_ancestors, fun dir => findRoot_eq_some_iff, findRoot_eq_none_iff, ?_⟩
  rw [discoverFrom, Action.run_get_bind]
  cases findRoot m.files m.cwd start with
  | none => rfl
  | some dir => exact opened_openAt m dir

/-- A descriptor shadows the settings of the directories above it. -/
example :
    let m := Machine.ofEntries [(["a"], .directory), (["a", "b"], .directory),
      (["a", "b", "conanfile.py"], .file .empty 0o644),
      (["a", "buildkit.toml"], .file "[project]\nname = \"x\"\n".toUTF8 0o644)]
    ((discoverFrom ⟨"/a/b/./c/.."⟩).run.run m).1.toOption.map (·.settings) = some {} ∧
    ((discoverFrom ⟨"/a/c"⟩).run.run m).1.toOption.map (·.settings.name) = some (some "x") := by
  decide +kernel

/-- A descriptor is passed over if the user may not search the directory that it stands in. -/
example :
    let fs : FileSystem := {
      entries := [(["a"], .directory), (["a", "conanfile.py"], .file .empty 0o644),
        (["a", "b"], .directory), (["a", "b", "conanfile.py"], .file .empty 0o644)]
      refused := fun d l => if d = .search ∧ l = ["a", "b"] then some .accessDenied else none }
    findRoot fs [] ⟨"/a/b"⟩ = some ⟨"/a"⟩ := by
  decide +kernel

end Discovery

section Long

variable {s : String} {n : Nat}

theorem size_join_slashed (habs : name.isAbsolute = false) (n : Nat) :
    ((slashed n).join name).text.utf8ByteSize = n + 2 + name.text.utf8ByteSize := by
  have htext : ((slashed n).join name).text = (slashed n).text ++ "/" ++ name.text :=
    Path.text_join habs (by simp [Path.isEmpty, chars_slashed]) (by simp [chars_slashed])
  rw [htext, String.utf8ByteSize_append, String.utf8ByteSize_append, size_slashed]
  rfl

theorem usable_join_slashed (habs : name.isAbsolute = false) (hname : '\x00' ∉ name.chars)
    (hn : n + 2 + name.text.utf8ByteSize < pathLimit) : ((slashed n).join name).Usable := by
  have hdir : (slashed n).Usable := usable_slashed (by omega)
  refine ⟨?_, ?_, (size_join_slashed habs n).symm ▸ hn⟩
  · rcases Path.chars_join habs (slashed n) with h | h <;> simp [h, hdir.no_end, hname]
  · rcases Path.chars_join habs (slashed n) with h | h <;> simp [Path.isEmpty, h, chars_slashed]

theorem status_slashed (hn : n + 1 < pathLimit) (hx : fs.Allows .search [])
    (hd : fs.node? ["c"] = some .directory) :
    fs.status [] (slashed n) = .ok (["c"], .directory) := by
  have hlocate : fs.locate [] true (slashed n) = .ok ["c"] := by
    refine locate_eq_ok_iff.2 ⟨usable_slashed hn, 0, Nat.zero_le _, ?_⟩
    rw [steps_slashed, Path.base, ite_self]
    exact .down ⟨by decide, hx⟩ hd (.here _)
  rw [status, hlocate]
  exact at?_eq_ok_iff.2 ⟨rfl, .inl hd⟩

theorem contains_slashed (hx : fs.Allows .search []) (hd : fs.node? ["c"] = some .directory)
    (hu : ((slashed n).join name).Usable) (hs : fs.IsStep ["c"] s) (hname : name.steps = [s])
    {b : ByteArray} {mode : Nat} (hnode : fs.node? ["c", s] = some (.file b mode)) :
    fs.Contains [] (slashed n) name ["c", s] (.file b mode) where
  usable := hu
  led := by
    refine ⟨["c"], 0, 0, ?_, ?_, Nat.zero_le _⟩
    · rw [words_slashed, Path.base, ite_self]
      exact .down ⟨by decide, hx⟩ hd (.here _)
    · rw [hname]
      exact .stop hs (by rw [List.singleton_append, hnode]; rfl)
  found := at?_eq_ok_iff.2 ⟨rfl, .inl hnode⟩

/-- A file in what a path without words leads to from the top stands at the top. -/
theorem node?_of_contains {b : ByteArray} {mode : Nat}
    (h : fs.Contains [] dir name l (.file b mode)) (hdir : Path.words dir.chars = [])
    (hs : IsName s) (hname : name.steps = [s]) : fs.node? [s] ≠ none := by
  obtain ⟨d, j, k, hd, hk, -⟩ := h.led
  rw [hdir, Path.base, ite_self] at hd
  cases hd
  rw [hname] at hk
  cases hk with
  | dot => exact absurd rfl hs.not_dot
  | up => exact absurd rfl hs.not_up
  | down _ hd => exact Option.ne_none_iff_exists'.2 ⟨_, hd⟩
  | stop =>
    obtain ⟨-, hnode | ⟨-, -, hdir⟩⟩ := at?_eq_ok_iff.1 h.found
    · exact Option.ne_none_iff_exists'.2 ⟨_, hnode⟩
    · cases hdir
  | follow _ hl => exact Option.ne_none_iff_exists'.2 ⟨_, hl⟩

theorem not_marked_of_top (hdir : Path.words dir.chars = [])
    (h : ∀ name ∈ [settingsFile, descriptorFile], fs.node? [name.text] = none) :
    ¬ Marked fs [] dir := by
  rintro ⟨name, hname, l, b, mode, hcontains⟩
  have hnames : ∀ name ∈ [settingsFile, descriptorFile],
      IsName name.text ∧ name.steps = [name.text] := by decide
  obtain ⟨hs, hsteps⟩ := hnames name hname
  exact node?_of_contains hcontains hdir hs hsteps (h name hname)

theorem not_marked_of_long (hn : pathLimit ≤ n + 14) : ¬ Marked fs cwd (slashed n) := by
  rintro ⟨name, hname, l, b, mode, hcontains⟩
  have hnames : ∀ name ∈ [settingsFile, descriptorFile],
      name.isAbsolute = false ∧ 12 ≤ name.text.utf8ByteSize := by decide
  obtain ⟨habs, hsize⟩ := hnames name hname
  have hshort := hcontains.usable.short
  rw [size_join_slashed habs] at hshort
  omega

theorem mem_ancestors_slashed (h : dir ∈ (slashed n).ancestors) :
    dir = slashed n ∨ Path.words dir.chars = [] := by
  have hpre := (slashed n).upward_ancestors.prefix_of_mem h
  rw [chars_slashed] at hpre
  rcases List.prefix_concat_iff.1 hpre with heq | hpre
  · left
    rw [← chars_slashed] at heq
    exact congrArg Path.mk (String.toList_inj.1 heq)
  · right
    rw [(List.prefix_replicate_iff.1 hpre).2, ← List.append_nil (List.replicate _ _), words_slashes]
    rfl

theorem findRoot_slashed (hn : pathLimit ≤ n + 14)
    (h : ∀ name ∈ [settingsFile, descriptorFile], fs.node? [name.text] = none) :
    findRoot fs [] (slashed n) = none := by
  refine findRoot_eq_none_iff.2 fun dir hdir => ?_
  rcases mem_ancestors_slashed hdir with rfl | htop
  · exact not_marked_of_long hn
  · exact not_marked_of_top htop h

theorem openAt_slashed (hn : pathLimit ≤ n + 15) :
    ((openAt (slashed n)).run.run m).1 = .ok ⟨slashed n, {}, m.env.home⟩ := by
  have hopened := opened_openAt m (slashed n)
  generalize ((openAt (slashed n)).run.run m).1 = r at hopened ⊢
  cases hopened with
  | own h =>
    have hshort := h.usable.short
    rw [size_join_slashed (by decide)] at hshort
    have hsize : settingsFile.text.utf8ByteSize = 13 := rfl
    omega
  | without => rfl

/-- By a path that is almost too long the descriptor in a directory is not found, and by one that is
a little shorter it is, but not the settings beside it. -/
theorem discoverFrom_passes_over :
    let text := "[project]\nname = \"x\"\n"
    let m := Machine.ofEntries [(["c"], .directory), (["c", "conanfile.py"], .file .empty 0o644),
      (["c", "buildkit.toml"], .file text.toUTF8 0o644)]
    (∀ p ∈ [slashed 4090, slashed 4081], m.files.status m.cwd p = .ok (["c"], .directory)) ∧
      Settings.ofText text = some { name := some "x" } ∧
      findRoot m.files m.cwd (slashed 4090) = none ∧
      ((discoverFrom (slashed 4081)).run.run m).1 = .ok ⟨slashed 4081, {}, m.env.home⟩ := by
  intro text m
  have hd : m.files.node? ["c"] = some .directory := rfl
  -- the numbers stay opaque, or the paths are spelled out
  obtain ⟨far, hfar⟩ : ∃ far, far = 4090 := ⟨_, rfl⟩
  obtain ⟨near, hnear⟩ : ∃ near, near = 4081 := ⟨_, rfl⟩
  have hlimit : pathLimit = 4096 := rfl
  rw [← hfar, ← hnear]
  have hmarked : Marked m.files m.cwd (slashed near) := by
    have hsize : descriptorFile.text.utf8ByteSize = 12 := rfl
    have habs : descriptorFile.isAbsolute = false := by decide
    have husable := usable_join_slashed (n := near) habs (by decide) (by omega)
    exact ⟨descriptorFile, by decide, _, _, _,
      contains_slashed rfl hd husable ⟨by decide, rfl⟩ rfl rfl⟩
  have hroot : findRoot m.files m.cwd (slashed near) = some (slashed near) := by
    obtain ⟨ps, hps⟩ := (slashed near).ancestors_eq_cons
    exact findRoot_eq_some_iff.2 ⟨hmarked, [], ps, hps, nofun⟩
  refine ⟨?_, by decide +kernel, findRoot_slashed (by omega) (by decide), ?_⟩
  · have hfar' := status_slashed (n := far) (by omega) rfl hd
    have hnear' := status_slashed (n := near) (by omega) rfl hd
    exact List.forall_mem_cons.2 ⟨hfar', List.forall_mem_singleton.2 hnear'⟩
  · rw [discoverFrom, Action.run_get_bind, hroot]
    exact openAt_slashed (by omega)

end Long

end Project

end ConanPipeline
