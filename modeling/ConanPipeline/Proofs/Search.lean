import ConanPipeline.Proofs.Cmake
import ConanPipeline.Proofs.FileSystem.Tree
import ConanPipeline.Proofs.Machine.Keeps

/-! The search for tools, seen from outside. It writes to the log and runs commands with their
output captured, and it does nothing else: whatever outlasts these two outlasts a search
(`resolveConan_keeps`, `resolveCmake_keeps`). What it finds was a file when it was looked at. -/

namespace ConanPipeline

/-- Whatever is a file has been found, and it stays so to the end of a search. -/
structure IsSearch (I : Machine → Prop) (Found : Path → Machine → Prop) : Prop where
  kept : Lasts I I
  lasts : ∀ p, Lasts I (Found p)
  isFile : ∀ {m p}, I m → m.isFile p = true → Found p m

section Files

variable {fs : FileSystem} {cwd : Location} {p : Path}

theorem FileSystem.isFile_of_isExecutable (h : fs.isExecutable cwd p = true) :
    fs.isFile cwd p = true := by
  rw [isExecutable] at h
  split at h
  · rename_i hstatus
    exact isFile_iff.2 ⟨_, _, _, hstatus⟩
  · cases h

/-- What stands on `PATH` is a file. -/
theorem Machine.isFile_of_which {m : Machine} {name : String} (h : m.which name = some p) :
    m.isFile p = true := by
  rw [which] at h
  have hstart := List.find?_some h
  rw [FileSystem.startable] at hstart
  split at hstart
  · rename_i hstatus
    exact FileSystem.isFile_iff.2 ⟨_, _, _, hstatus⟩
  · cases hstart
  · cases hstart

end Files

namespace VersionLine

variable {cs w r : List Char}

theorem space_notMem_conanAt? (h : conanAt? cs = some w) : ' ' ∉ w := by
  obtain ⟨rest, -, h⟩ := Option.bind_eq_some_iff.1 h
  dsimp only at h
  split at h
  · cases h
  · obtain rfl := Option.some.inj h
    exact fun hmem => absurd (List.all_eq_true.1 List.all_takeWhile _ hmem) (by decide)

theorem space_notMem_conan? {ls : List (List Char)} (h : conan? ls = some w) : ' ' ∉ w := by
  induction ls with
  | nil => cases h
  | cons l ls ih =>
    rw [conan?] at h
    split at h
    · rename_i hat
      exact Option.some.inj h ▸ space_notMem_conanAt? hat
    · exact ih h

theorem space_notMem_digits? (h : digits? cs = some (w, r)) : ' ' ∉ w := by
  rw [digits?] at h
  split at h
  · cases h
  · cases h
    exact fun hmem => absurd (List.all_eq_true.1 List.all_takeWhile _ hmem) (by decide)

theorem space_notMem_triple? (h : triple? cs = some w) : ' ' ∉ w := by
  obtain ⟨⟨a, _⟩, ha, h⟩ := Option.bind_eq_some_iff.1 h
  obtain ⟨_, -, h⟩ := Option.bind_eq_some_iff.1 h
  obtain ⟨⟨b, _⟩, hb, h⟩ := Option.bind_eq_some_iff.1 h
  obtain ⟨_, -, h⟩ := Option.bind_eq_some_iff.1 h
  obtain ⟨⟨c, _⟩, hc, h⟩ := Option.bind_eq_some_iff.1 h
  obtain rfl := Option.some.inj h
  simp [space_notMem_digits? ha, space_notMem_digits? hb, space_notMem_digits? hc]

theorem space_notMem_cmake? (h : cmake? cs = some w) : ' ' ∉ w := by
  induction cs with
  | nil => cases h
  | cons c cs ih =>
    rw [cmake?] at h
    split at h
    · rename_i hat
      obtain ⟨_, -, htriple⟩ := Option.bind_eq_some_iff.1 hat
      exact Option.some.inj h ▸ space_notMem_triple? htriple
    · exact ih h

end VersionLine

/-- A version that was read off an answer is one word. -/
theorem Tool.space_notMem_version? {name : String} {read : List Char → Option (List Char)}
    {output v : String} (hread : ∀ {cs w}, read cs = some w → ' ' ∉ w)
    (h : version? name read output = .ok v) : ' ' ∉ v.toList := by
  rw [version?] at h
  split at h
  · rename_i hw
    obtain rfl := Except.ok.inj h
    rw [String.toList_ofList]
    exact hread hw
  · cases h

theorem Tool.space_notMem_conanVersion (output v : String) (h : conanVersion output = .ok v) :
    ' ' ∉ v.toList := space_notMem_version? VersionLine.space_notMem_conan? h

theorem Tool.space_notMem_cmakeVersion (output v : String) (h : cmakeVersion output = .ok v) :
    ' ' ∉ v.toList := space_notMem_version? VersionLine.space_notMem_cmake? h

variable {I P : Machine → Prop} {Found : Path → Machine → Prop}

theorem IsSearch.and (h : IsSearch I Found) (hP : Lasts I P) :
    IsSearch (fun m => I m ∧ P m) Found where
  kept := .and (.of_kept h.kept) (.of_kept hP)
  lasts p := .of_kept (h.lasts p)
  isFile hm := h.isFile hm.1

/-- A captured run keeps what a launch keeps. -/
theorem Command.run_keeps {R : Machine → Prop} (hI : Lasts I I) (hR : Lasts I R) (c : Command)
    (check : Bool) : Action.Keeps I R (c.run check) fun _ => R := by
  have hlaunch : Effect.Keeps I R (launch c false) fun _ => R :=
    fun m hm hr => ⟨hI.launch c hm hm, hR.launch c hm hr⟩
  unfold Command.run
  refine .log_bind hI hR (.bind (.lift hlaunch) fun r => ?_)
  split
  · exact .throw _
  · rename_i out
    dsimp only
    split
    · exact .failWith_bind _
    · exact .pure fun m _ h => h

/-- A tool that was found. Its version is one word. -/
structure Tool.IsFound (Found : Path → Machine → Prop) (tool : Tool) (m : Machine) : Prop where
  found : Found tool.path m
  word : ' ' ∉ tool.version.toList

theorem Tool.isFound_lasts (h : IsSearch I Found) (tool : Tool) : Lasts I (tool.IsFound Found) where
  log _ _ _ hI hm := ⟨(h.lasts _).log _ _ _ hI hm.found, hm.word⟩
  launch _ hI hm := ⟨(h.lasts _).launch _ hI hm.found, hm.word⟩

/-- A tool is asked for its version once it has been found. -/
theorem Tool.probe_keeps (h : IsSearch I Found) (path : Path)
    {read : String → Except Cause String}
    (hread : ∀ output v, read output = .ok v → ' ' ∉ v.toList) :
    Action.Keeps I (Found path) (Tool.probe path read) fun tool => tool.IsFound Found := by
  refine .bind (Command.run_keeps h.kept (h.lasts path) _ true) fun output => ?_
  split
  · rename_i hversion
    exact .pure fun m _ hm => ⟨hm, hread _ _ hversion⟩
  · exact .failWith _

theorem askPipenv_keeps (hI : Lasts I I) (root : Path) :
    Effect.Keeps I Any (askPipenv root) fun _ _ => True := by
  unfold askPipenv
  refine .reads fun m => .of_any ?_
  split
  · exact .pure fun _ _ _ => trivial
  · refine .bind (Command.run_keeps hI .any _ false) fun r =>
      .of_any ?_
    split
    · exact .log_bind hI .any (.pure fun _ _ _ => trivial)
    · split
      · exact .pure fun _ _ _ => trivial
      · exact .log_bind hI .any (.pure fun _ _ _ => trivial)

theorem findVenv_keeps (hI : Lasts I I) (configured : Option Path) (root : Path) :
    Effect.Keeps I Any (findVenv configured root) fun _ _ => True := by
  unfold findVenv
  refine .reads fun m => .of_any ?_
  dsimp only
  split
  · exact .log_bind hI .any (.pure fun _ _ _ => trivial)
  · exact askPipenv_keeps hI root

/-- What is found in a virtual environment is a file. -/
theorem findConan_keeps (h : IsSearch I Found) (venv : Path) :
    Action.Keeps I Any (findConan venv) fun found m => ∀ tool, found = some tool →
      tool.IsFound Found m := by
  unfold findConan
  refine .reads fun m => ?_
  split
  · exact .of_any (.log_bind h.kept .any (.pure fun _ _ _ _ hs => nomatch hs))
  · dsimp only
    split
    · exact .of_any (.log_bind h.kept .any (.pure fun _ _ _ _ hs => nomatch hs))
    · rename_i path hfind
      have hfile : m.isFile path = true := List.find?_some hfind
      have hprobe := Action.Keeps.of_pre (P := fun m' => m' = m ∧ Any m')
        (Tool.probe_keeps h path Tool.space_notMem_conanVersion)
        fun _ hI hm => h.isFile hI (hm.1 ▸ hfile)
      exact .bind hprobe fun tool => .log_bind h.kept (Tool.isFound_lasts h tool)
        (.pure fun _ _ hm _ htool => Option.some.inj htool ▸ hm)

theorem resolveConan_keeps (h : IsSearch I Found) (plan : Plan) :
    Action.Keeps I Any (resolveConan plan) fun tool => tool.IsFound Found := by
  unfold resolveConan
  refine .bind (.lift (findVenv_keeps h.kept _ _)) fun venv => ?_
  -- with a virtual environment or without one, the search goes on in the same way
  extract_lets onPath
  have hpath (inVenv : Option Tool) :
      Action.Keeps I (fun m => ∀ tool, inVenv = some tool → tool.IsFound Found m) (onPath inVenv)
        fun tool => tool.IsFound Found := by
    unfold onPath
    split
    · exact .pure fun m _ hm => hm _ rfl
    · refine .reads fun m => ?_
      split
      · rename_i path hwhich
        have hprobe := Tool.probe_keeps h path Tool.space_notMem_conanVersion
        refine .bind (.of_pre hprobe fun m' hI hm => ?_) fun tool =>
          .log_bind h.kept (Tool.isFound_lasts h tool) (.pure fun _ _ hm => hm)
        exact h.isFile hI (hm.1 ▸ Machine.isFile_of_which hwhich)
      · exact .failWith _
  split
  · exact .of_any (.bind (findConan_keeps h _) hpath)
  · exact .of_any (.bind (.pure fun _ _ _ _ hs => nomatch hs) hpath)

theorem fileText_keeps (p : Path) : Action.Keeps I Any (fileText p) fun _ _ => True := by
  unfold fileText
  refine .reads fun m => ?_
  split
  · exact .pure fun _ _ _ => trivial
  · exact .throw _

theorem findCmakeInCache_keeps (h : IsSearch I Found) (conanHome : Path) :
    Action.Keeps I Any (findCmakeInCache conanHome) fun tool => tool.IsFound Found := by
  unfold findCmakeInCache
  refine .reads fun m => ?_
  dsimp only
  generalize hsearch : m.files.findInTree m.cwd (conanHome.join ⟨"p"⟩) "cmake" = search
  have hlasts : Lasts I fun m' => ∀ path, search.found = some path → Found path m' :=
    .all fun path => .imp (h.lasts path)
  have hstart (m' : Machine) (hI : I m') (hm : m' = m ∧ Any m') (path : Path)
      (hfound : search.found = some path) : Found path m' := by
    have htool := FileSystem.named_and_executable_of_found (hsearch ▸ hfound)
    exact h.isFile hI (hm.1 ▸ FileSystem.isFile_of_isExecutable htool.2)
  have hlogs := Action.Keeps.forM (l := search.unread) fun u _ =>
    Action.Keeps.lift (Effect.Keeps.log hlasts h.kept .debug .cmake
      ("skipping unreadable cache entry: IO error for operation on " ++ u.1.text ++ ": " ++
        u.2.text))
  refine .bind (.of_pre hlogs hstart) fun _ => ?_
  split
  · exact .failWith _
  · rename_i path hfound
    have hprobe := Tool.probe_keeps h path Tool.space_notMem_cmakeVersion
    exact .bind (.of_pre hprobe fun _ _ hm => hm path hfound) fun tool =>
      .log_bind h.kept (Tool.isFound_lasts h tool) (.pure fun _ _ hm => hm)

theorem cmakeFromToolchain_keeps (hI : Lasts I I) (file : Path) (platform : Platform) :
    Action.Keeps I Any (cmakeFromToolchain file platform) fun _ _ => True := by
  unfold cmakeFromToolchain
  refine .reads fun m => .of_any ?_
  extract_lets read
  have hread (u : Unit) : Action.Keeps I Any (read u) fun _ _ => True := by
    refine .bind (fileText_keeps file) fun text => .of_any ?_
    split
    · exact .failWith _
    · exact .log_bind hI .any (.pure fun _ _ _ => trivial)
  split
  · exact .failWith_bind _
  · exact hread ()

/-- What the toolchain files give is a file. -/
theorem cmakeFromToolchains_keeps (h : IsSearch I Found) (files : List Path) :
    Effect.Keeps I Any (cmakeFromToolchains files)
      fun found m => ∀ cmake, found = some cmake → Found cmake m := by
  induction files with
  | nil => exact .pure fun _ _ _ _ hs => nomatch hs
  | cons file files ih =>
    rw [cmakeFromToolchains]
    refine .reads fun m => .of_any ?_
    split
    · exact ih
    · refine .bind (cmakeFromToolchain_keeps h.kept file _) fun r => .of_any ?_
      split
      · exact .log_bind h.kept .any ih
      · rename_i cmake
        refine .reads fun m' => ?_
        split
        · rename_i hfile
          exact .pure fun m hI hm cmake' hcmake =>
            Option.some.inj hcmake ▸ h.isFile hI (hm.1 ▸ hfile)
        · exact .of_any (.log_bind h.kept .any ih)

theorem resolveCmake_keeps (h : IsSearch I Found) (plan : Plan) :
    Action.Keeps I Any (resolveCmake plan) Found := by
  unfold resolveCmake
  refine .bind (.lift (cmakeFromToolchains_keeps h _)) fun found => ?_
  split
  · exact .pure fun _ _ hm => hm _ rfl
  · refine .of_any (.bind (.attempt (findCmakeInCache_keeps h _)) fun r => ?_)
    split
    · exact .pure fun _ _ hm => (hm _ rfl).found
    · refine .of_any (.log_bind h.kept .any (.reads fun m => ?_))
      split
      · rename_i cmake hwhich
        exact .pure fun m' hI hm => h.isFile hI (hm.1 ▸ Machine.isFile_of_which hwhich)
      · exact .failWith _

theorem detectGenerator_keeps (hI : Lasts I I) (cmake : Path) :
    Action.Keeps I Any (detectGenerator cmake) fun _ _ => True := by
  unfold detectGenerator
  dsimp only
  refine .bind (.attempt (Command.run_keeps hI .any _ false)) fun r =>
    .reads fun m => ?_
  split
  · exact .pure fun _ _ _ => trivial
  · exact .failWith _

end ConanPipeline
