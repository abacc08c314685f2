import ConanPipeline.Proofs.FileSystem.Tree
import ConanPipeline.Proofs.Search
import ConanPipeline.Report

/-! What the report marks as found, on a machine whose programs take nothing away. The package
manager and `cmake` are there; nobody looks at the virtual environment, so that is there only if
whoever named it was right (`inspect_exists_iff`). -/

namespace ConanPipeline

open FileSystem

/-- What there is stays there: directories, links, and files, whatever is in these. -/
structure FileSystem.Keeps (fs fs' : FileSystem) : Prop where
  directory : ∀ l, fs.node? l = some .directory → fs'.node? l = some .directory
  link : ∀ l t, fs.node? l = some (.link t) → fs'.node? l = some (.link t)
  file : ∀ l b mode, fs.node? l = some (.file b mode) →
    ∃ b' mode', fs'.node? l = some (.file b' mode')

/-- The programs take nothing away. -/
def Programs.DeleteNothing (programs : Programs) : Prop :=
  ∀ fs inv out, programs fs inv = .ok out → fs.Keeps out.files

/-- The files as they are for somebody whom nothing is refused. -/
def FileSystem.unrestricted (fs : FileSystem) : FileSystem := { entries := fs.entries }

/-- A path leads to a file, whether or not the user may look. -/
def Machine.HasFile (m : Machine) (p : Path) : Prop :=
  m.files.unrestricted.isFile m.cwd p = true

/-- A path leads to a directory, whether or not the user may look. -/
def Machine.HasDirectory (m : Machine) (p : Path) : Prop :=
  m.files.unrestricted.isDirectory m.cwd p = true

/-- A machine on which nothing that is there goes away. -/
structure Machine.IsSteady (m : Machine) : Prop where
  seat : m.files.IsSeat m.cwd
  programs : m.programs.DeleteNothing

section Steady

variable {fs fs' : FileSystem} {cwd : Location} {m : Machine} {p : Path}

theorem FileSystem.Keeps.refl (fs : FileSystem) : fs.Keeps fs :=
  ⟨fun _ h => h, fun _ _ h => h, fun _ b mode h => ⟨b, mode, h⟩⟩

theorem FileSystem.node?_unrestricted (fs : FileSystem) (l : Location) :
    fs.unrestricted.node? l = fs.node? l := by
  cases l <;> rfl

/-- A file is still there if nothing was taken away, as far as all ways are open by then. -/
theorem FileSystem.Keeps.isFile_unrestricted (h : fs.Keeps fs') (hp : fs.isFile cwd p = true) :
    fs'.unrestricted.isFile cwd p = true := by
  have hways : fs.KeepsWays fs'.unrestricted := {
    directory l hl := (fs'.node?_unrestricted l).trans (h.directory l hl)
    link l t hl := (fs'.node?_unrestricted l).trans (h.link l t hl)
    search _ _ := rfl
    read _ _ := rfl }
  obtain ⟨l, b, mode, hstatus⟩ := isFile_iff.1 hp
  obtain ⟨b', mode', hnow⟩ := h.file l b mode ((status_eq_ok_iff (by simp)).1 hstatus).2.2
  have hnow' := (fs'.node?_unrestricted l).trans hnow
  exact isFile_iff.2 ⟨l, b', mode', status_of_kept hways hstatus hnow'⟩

theorem FileSystem.Keeps.unrestricted (h : fs.Keeps fs') :
    fs.unrestricted.Keeps fs'.unrestricted := by
  refine ⟨fun l => ?_, fun l t => ?_, fun l b mode => ?_⟩ <;>
    rw [node?_unrestricted, node?_unrestricted]
  · exact h.directory l
  · exact h.link l t
  · exact h.file l b mode

/-- Only what programs do changes the files, and they take nothing away. -/
theorem Machine.IsSteady.launch (hm : m.IsSteady) (c : Command) (streamed : Bool) :
    ((launch c streamed).run m).2.IsSteady ∧
      ∀ p, m.HasFile p → ((launch c streamed).run m).2.HasFile p := by
  cases h : m.launchOf c >>= Launch.start m.programs m.files with
  | error e =>
    rw [run_launch_of_error h]
    exact ⟨⟨hm.seat, hm.programs⟩, fun _ hp => hp⟩
  | ok result =>
    obtain ⟨inv, out⟩ := result
    obtain ⟨r, -, hstart⟩ := exists_of_bind_eq_ok h
    have hkept := hm.programs m.files inv out (Launch.started_of_start hstart).2
    have hseat := hm.seat.of_kept hkept.directory
    rw [run_launch_of_ok h]
    refine ⟨⟨?_, hm.programs⟩, fun p hp => ?_⟩
    · change out.files.IsSeat (out.files.seat m.cwd)
      rwa [hseat.seat_eq]
    · change out.files.unrestricted.isFile (out.files.seat m.cwd) p = true
      rw [hseat.seat_eq]
      exact hkept.unrestricted.isFile_unrestricted hp

theorem steady_isSearch : IsSearch Machine.IsSteady fun p m => m.HasFile p where
  kept := {
    log := fun _ _ _ hm _ => ⟨hm.seat, hm.programs⟩
    launch := fun c hm _ => (hm.launch c false).1 }
  lasts p := ⟨fun _ _ _ _ h => h, fun c hm h => (hm.launch c false).2 p h⟩
  isFile _ h := (Keeps.refl _).isFile_unrestricted h

end Steady

/-- The entry of the virtual environment. -/
def ReportEntry.ofVenv : Option Path → ReportEntry
  | some v => ⟨"venv", true, v.text⟩
  | none => ⟨"venv", false, "no configured, active or pipenv environment"⟩

/-- What an entry names is there. -/
structure ReportEntry.Exists (e : ReportEntry) (m : Machine) : Prop where
  venv : e.name = "venv" → m.HasDirectory ⟨e.detail⟩
  /-- The path is what stands before the last blank. -/
  conan : e.name = "conan" → ∃ tool : Tool, e.detail = tool.describe ∧
    ' ' ∉ tool.version.toList ∧ m.HasFile tool.path
  cmake : e.name = "cmake" → m.HasFile ⟨e.detail⟩

section Entries

variable {I : Machine → Prop} {Found : Path → Machine → Prop} {plan : Plan} {m : Machine}

@[simp]
theorem ReportEntry.name_of {α : Type} (name : String) (show_ : α → String)
    (r : Except Failure α) : (of name show_ r).name = name := by
  cases r <;> rfl

@[simp]
theorem ReportEntry.name_ofVenv (venv : Option Path) : (ofVenv venv).name = "venv" := by
  cases venv <;> rfl

theorem ReportEntry.exists_of_found {α : Type} {name : String} {show_ : α → String}
    {r : Except Failure α} (h : (of name show_ r).found = true) :
    ∃ a, r = .ok a ∧ (of name show_ r).detail = show_ a := by
  cases r with
  | ok a => exact ⟨a, rfl, rfl⟩
  | error f => cases h

theorem ReportEntry.ofVenv_eq_found_iff {venv : Option Path} {v : Path} :
    ⟨"venv", true, v.text⟩ = ofVenv venv ↔ venv = some v := by
  cases venv with
  | none => exact iff_of_false (fun h => by cases h) (fun h => by cases h)
  | some w =>
    rw [ofVenv, ReportEntry.mk.injEq, Option.some.injEq]
    exact ⟨fun h => congrArg Path.mk h.2.2.symm, fun h => ⟨rfl, rfl, congrArg Path.text h.symm⟩⟩

/-- An entry goes by its name. -/
theorem ReportEntry.eq_of_mem {venv : Option Path} {conan : Except Failure Tool}
    {cmake : Except Failure Path} {e generator : ReportEntry}
    (hgen : generator.name = "generator")
    (he : e ∈
      [ofVenv venv, of "conan" Tool.describe conan, of "cmake" Path.text cmake, generator]) :
    (e.name = "venv" → e = ofVenv venv) ∧ (e.name = "conan" → e = of "conan" Tool.describe conan) ∧
      (e.name = "cmake" → e = of "cmake" Path.text cmake) := by
  simp only [List.mem_cons, List.not_mem_nil, or_false] at he
  rcases he with rfl | rfl | rfl | rfl <;> simp [hgen]

/-- The entries of the report, in their order. What is marked as found has been found. -/
theorem inspect_keeps (h : IsSearch I Found) (plan : Plan) :
    Effect.Keeps I Any (inspect plan) fun report m =>
      ∃ venv conan cmake generator, report.entries =
          [.ofVenv venv, .of "conan" Tool.describe conan, .of "cmake" Path.text cmake, generator] ∧
        generator.name = "generator" ∧ (∀ tool, conan = .ok tool → tool.IsFound Found m) ∧
        ∀ p, cmake = .ok p → Found p m := by
  unfold inspect
  refine .bind (findVenv_keeps h.kept _ _) fun venv => .of_any ?_
  dsimp only
  refine .bind (resolveConan_keeps h plan) fun conan => ?_
  have hconan : Lasts I fun m => ∀ tool, conan = .ok tool → tool.IsFound Found m :=
    .all fun tool => .imp (Tool.isFound_lasts h tool)
  refine .bind (.frame (resolveCmake_keeps (h.and hconan) plan)) fun cmake => ?_
  have hcmake : Lasts I fun m => ∀ p, cmake = .ok p → Found p m := .all fun p => .imp (h.lasts p)
  have hboth := h.and (hconan.and hcmake)
  split
  · rename_i path
    refine .bind (.frame (detectGenerator_keeps hboth.kept path)) fun generator => ?_
    exact .pure fun m _ hm => ⟨venv, conan, .ok path, .of "generator" id generator,
      by cases venv <;> rfl, by cases generator <;> rfl, hm.1.1, hm.1.2⟩
  · rename_i f
    exact .pure fun m _ hm => ⟨venv, conan, .error f, ⟨"generator", false, "needs cmake"⟩,
      by cases venv <;> rfl, rfl, hm.1, hm.2⟩

theorem fst_findVenv_of_known {configured : Option Path} {root p : Path} {how : String}
    (h : Venv.known? configured ((m.env.var? "VIRTUAL_ENV").map Path.mk) = some (how, p)) :
    ((findVenv configured root).run m).1 = some p := by
  rw [findVenv, Effect.run_bind, Effect.run_get]
  dsimp only
  rw [h]
  rfl

theorem head?_inspect (plan : Plan) (m : Machine) : ((inspect plan).run m).1.entries.head? =
    some (.ofVenv ((findVenv plan.venv plan.root).run m).1) := by
  rw [inspect, Effect.run_bind]
  generalize ((findVenv plan.venv plan.root).run m).1 = venv
  generalize ((findVenv plan.venv plan.root).run m).2 = m'
  dsimp only
  rw [Effect.run_bind, Effect.run_bind]
  split
  · rw [Effect.run_bind]
    cases venv <;> rfl
  · cases venv <;> rfl

/-- What is marked as found is there: the package manager and `cmake` always, and the virtual
environment if it happens to be a directory, since one that is configured or active is marked
without a look at it. -/
theorem inspect_exists_iff (hm : m.files.IsSeat m.cwd) (hp : m.programs.DeleteNothing)
    (plan : Plan) :
    let report := ((inspect plan).run m).1
    let m' := ((inspect plan).run m).2
    let venv := ((findVenv plan.venv plan.root).run m).1
    (∀ e ∈ report.entries, e.found = true →
      (e.Exists m' ↔ (e.name = "venv" → m'.HasDirectory ⟨e.detail⟩))) ∧
    (∀ v : Path, ⟨"venv", true, v.text⟩ ∈ report.entries ↔ venv = some v) ∧
    ∀ how v, Venv.known? plan.venv ((m.env.var? "VIRTUAL_ENV").map Path.mk) = some (how, v) →
      venv = some v := by
  intro report m' venv
  obtain ⟨venv', conan, cmake, generator, hentries, hgen, hconan, hcmake⟩ :=
    (inspect_keeps steady_isSearch plan m ⟨hm, hp⟩ trivial).2
  have hvenv : ReportEntry.ofVenv venv' = .ofVenv venv := by
    have hhead := head?_inspect plan m
    rwa [hentries, List.head?_cons, Option.some.injEq] at hhead
  change report.entries = _ at hentries
  rw [hentries, hvenv]
  refine ⟨fun e he hfound => ⟨fun h => h.venv, fun h => ⟨h, fun hname => ?_, fun hname => ?_⟩⟩,
    fun v => ?_, fun how v => fst_findVenv_of_known⟩
  · obtain rfl := (ReportEntry.eq_of_mem hgen he).2.1 hname
    obtain ⟨tool, htool, hdetail⟩ := ReportEntry.exists_of_found hfound
    have his := hconan tool htool
    exact ⟨tool, hdetail, his.word, his.found⟩
  · obtain rfl := (ReportEntry.eq_of_mem hgen he).2.2 hname
    obtain ⟨p, hp, hdetail⟩ := ReportEntry.exists_of_found hfound
    rw [hdetail]
    exact hcmake p hp
  · rw [← ReportEntry.ofVenv_eq_found_iff]
    exact ⟨fun hv => (ReportEntry.eq_of_mem hgen hv).1 rfl, fun hv => hv ▸ List.mem_cons_self ..⟩

end Entries

/-- A report on a machine with a relative directory in `PATH`. -/
theorem inspect_exists_relative :
    let project : Project := { root := ⟨"/w"⟩, settings := {}, home := ⟨"/"⟩ }
    let m : Machine := {
      files := { entries := [(["w"], .directory), (["w", "b"], .directory),
        (["w", "b", "cmake"], .file .empty 0o755), (["v"], .directory), (["v", "bin"], .directory),
        (["v", "bin", "conan"], .file .empty 0o755)] }
      env := { vars := [("PATH", "b"), ("VIRTUAL_ENV", "/v")] }
      cwd := ["w"]
      programs := fun fs _ => .ok { files := fs, stdout := "Conan version 2.3.0".toUTF8 } }
    let plan := Plan.ofProject project {}
    let inspected := (inspect plan).run m
    (m.files.IsSeat m.cwd ∧ m.programs.DeleteNothing) ∧
      (∀ e ∈ inspected.1.entries, e.found = true → e.Exists inspected.2) ∧
      inspected.1.entries.take 3 = [⟨"venv", true, "/v"⟩, ⟨"conan", true, "/v/bin/conan (2.3.0)"⟩,
        ⟨"cmake", true, "b/cmake"⟩] := by
  intro project m plan
  have hm : m.files.IsSeat m.cwd := (wellFormed_of_entries (by decide)).isSeat rfl
  have hp : m.programs.DeleteNothing := fun fs _ _ h => Except.ok.inj h ▸ .refl fs
  have hvenv : ∀ e ∈ ((inspect plan).run m).1.entries, e.name = "venv" →
      ((inspect plan).run m).2.files.unrestricted.isDirectory ((inspect plan).run m).2.cwd
        ⟨e.detail⟩ = true := by
    decide +kernel
  have h := (inspect_exists_iff hm hp plan).1
  exact ⟨⟨hm, hp⟩, fun e he hfound => (h e he hfound).2 (hvenv e he), by decide +kernel⟩

/-- A virtual environment that is configured and was never made. -/
theorem venv_found_missing :
    let project : Project :=
      { root := ⟨"/p"⟩, settings := { venv := some ⟨".venv"⟩ }, home := ⟨"/"⟩ }
    let m : Machine := {
      files := { entries := [(["p"], .directory)] }
      env := { vars := [] }
      cwd := []
      programs := fun fs _ => .ok { files := fs } }
    let inspected := (inspect (Plan.ofProject project {})).run m
    m.files.IsSeat m.cwd ∧ m.programs.DeleteNothing ∧
      ∃ e ∈ inspected.1.entries, e.found = true ∧ ¬ e.Exists inspected.2 := by
  intro project m inspected
  refine ⟨isSeat_root, fun fs _ _ h => Except.ok.inj h ▸ .refl fs,
    ⟨"venv", true, "/p/.venv"⟩, by decide +kernel, rfl, fun h => ?_⟩
  have hdir : inspected.2.files.unrestricted.isDirectory inspected.2.cwd ⟨"/p/.venv"⟩ = false := by
    decide +kernel
  exact absurd (h.venv rfl) (Bool.eq_false_iff.1 hdir)

end ConanPipeline
