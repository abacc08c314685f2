import ConanPipeline.Configure
import ConanPipeline.Pipeline.Steps
import ConanPipeline.Proofs.Conan.Home
import ConanPipeline.Report

/-! Runs of the steps, of the set-up and of the report start the package manager in the project's
home, except when they ask it for its version (`conan_in_home`, `conan_probed_without_home`). -/

namespace ConanPipeline

namespace Step

variable {console : Console} {plan : Plan}

theorem requireTree_inHome {home : Path} (tree : Path) :
    Action.Adds (Event.InHome home) (requireTree tree) fun _ => True := by
  unfold requireTree
  refine .reads fun m => ?_
  split
  · exact .failWith _
  · exact .pure trivial

theorem clean_inHome :
    Action.Adds (Event.InHome plan.conanHome) (clean.run console plan) fun _ => True := by
  unfold clean
  dsimp only
  split
  · refine .bind (.lift say_inHome) fun _ _ => .bind (.onFiles _) fun gone _ => ?_
    split
    · exact .bind (.lift log_inHome) fun _ _ => .lift say_inHome
    · exact .lift say_inHome
  · exact .pure trivial

theorem build_inHome :
    Action.Adds (Event.InHome plan.conanHome) (build.run console plan) fun _ => True := by
  unfold build
  dsimp only
  split
  · refine .bind (Conan.locate_inHome plan) fun conan hconan =>
      .bind (.lift start_inHome) fun work _ =>
        .bind (.forM fun args hargs => ?_) fun _ _ => .lift finish_inHome
    rw [← hconan.2]
    rcases List.mem_cons.1 hargs with rfl | hargs
    · exact Command.streamShown_inHome (Command.inHome_command conan _ (by decide) (by decide))
    · obtain rfl := List.mem_singleton.1 hargs
      exact Command.streamShown_inHome (Command.inHome_command conan _ (by decide) (by decide))
  · exact .pure trivial

theorem pack_inHome :
    Action.Adds (Event.InHome plan.conanHome) (pack.run console plan) fun _ => True := by
  unfold pack
  dsimp only
  split
  · exact .bind (requireTree_inHome _) fun _ _ => .bind (Cmake.locate_inHome plan) fun cmake h =>
      .bind (.lift start_inHome) fun work _ => .bind (Cmake.stream_inHome h _) fun _ _ =>
        .lift finish_inHome
  · exact .pure trivial

theorem test_inHome :
    Action.Adds (Event.InHome plan.conanHome) (test.run console plan) fun _ => True := by
  unfold test
  dsimp only
  split
  · exact .bind (requireTree_inHome _) fun _ _ => .bind (Cmake.locate_inHome plan) fun cmake _ =>
      .bind (Cmake.ctest_inHome cmake) fun ctest h => .bind (.lift start_inHome) fun work _ =>
        .bind (Command.streamShown_inHome (Command.inHome_of_other h)) fun _ _ =>
          .lift finish_inHome
  · exact .pure trivial

end Step

section Runs

variable {home : Path} {console : Console}

theorem Pipeline.runSteps_inHome {plan : Plan} {ss : List Step}
    (h : ∀ s ∈ ss, Action.Adds (Event.InHome home) (s.run console plan) fun _ => True) :
    Action.Adds (Event.InHome home) (runSteps console plan ss) fun _ => True := by
  induction ss with
  | nil => exact .pure trivial
  | cons s ss ih =>
    rw [List.forall_mem_cons] at h
    rw [runSteps]
    exact .bind (.lift log_inHome) fun _ _ => .bind h.1 fun _ _ => ih h.2

theorem build_inHome (plan : Plan) :
    Action.Adds (Event.InHome plan.conanHome) (build console plan) fun _ => True := by
  have hsteps : ∀ s ∈ [Step.clean, Step.build, Step.pack, Step.test],
      Action.Adds (Event.InHome plan.conanHome) (s.run console plan) fun _ => True := by
    simp only [List.forall_mem_cons]
    exact ⟨Step.clean_inHome, Step.build_inHome, Step.pack_inHome, Step.test_inHome,
      fun _ hs => absurd hs List.not_mem_nil⟩
  exact .bind (f := fun _ => Pipeline.runSteps console plan _) (.lift log_inHome)
    fun _ _ => Pipeline.runSteps_inHome hsteps

theorem inspect_inHome (plan : Plan) :
    Effect.Adds (Event.InHome home) (inspect plan) fun _ => True := by
  unfold inspect
  refine .bind (findVenv_inHome _ _) fun venv _ => ?_
  dsimp only
  refine .bind (resolveConan_inHome plan) fun tool _ => .bind (resolveCmake_inHome plan) fun r hr => ?_
  split
  · rename_i cmake
    exact .bind (detectGenerator_inHome (hr cmake rfl)) fun _ _ => .pure trivial
  · exact .pure trivial

theorem pipenvRun_inHome (root : Path) (args : List String) :
    Action.Adds (Event.InHome home) (pipenvRun root args) (Command.InHome home) := by
  unfold pipenvRun
  refine .reads fun m => ?_
  split
  · exact .failWith _
  · rename_i program hwhich
    refine .pure (Command.inHome_of_other ?_)
    rw [Machine.isNamed_which (by decide) hwhich]
    decide

theorem installConan_inHome (project : Project) :
    Action.Adds (Event.InHome home) (installConan project console) fun _ => True := by
  unfold installConan
  exact .bind (pipenvRun_inHome _ _) fun cmd hcmd => .bind (.lift start_inHome) fun work _ =>
    .bind (Command.streamShown_inHome hcmd) fun _ _ => .lift finish_inHome

theorem Conan.run_inHome (conan : Conan) {a : String} (args : List String) (check : Bool)
    (hname : Path.isNamed ⟨a⟩ "conan" = false) (hprobe : a ≠ "--version") :
    Action.Adds (Event.InHome conan.home) (conan.run (a :: args) check) fun _ => True := by
  unfold Conan.run
  exact .bind (.lift log_inHome) fun _ _ =>
    .during (Command.run_inHome (Command.inHome_command conan args hname hprobe) check) _

theorem initializeHome_inHome (conan : Conan) (fresh : Bool) :
    Action.Adds (Event.InHome conan.home) (initializeHome conan fresh) fun _ => True := by
  unfold initializeHome
  extract_lets ready
  have hready (u : Unit) : Action.Adds (Event.InHome conan.home) (ready u) fun _ => True :=
    .bind (.onFiles _) fun _ _ =>
      .bind (conan.run_inHome _ true (by decide) (by decide)) fun _ _ => .lift log_inHome
  split
  · refine .bind (.onFiles _) fun gone _ => ?_
    split
    · exact .bind (.lift log_inHome) fun _ _ => hready ()
    · exact hready ()
  · exact hready ()

theorem updateProfile_inHome (file : Path) (sec key : String) (value : Option String) :
    Action.Adds (Event.InHome home) (updateProfile file sec key value) fun _ => True := by
  unfold updateProfile
  refine .reads fun m => ?_
  dsimp only
  split
  · exact .failWith_bind _
  · exact .bind (fileText_inHome file) fun _ _ => .bind (.onFiles _) fun _ _ => .lift log_inHome

theorem initializeProfile_inHome (conan : Conan) (name standard : String) (shared : Bool)
    (platform : Platform) :
    Action.Adds (Event.InHome conan.home) (initializeProfile conan name standard shared platform)
      fun _ => True := by
  unfold initializeProfile
  refine .bind (conan.run_inHome _ false (by decide) (by decide)) fun shown _ => ?_
  extract_lets file edit
  have hedit (u : Unit) : Action.Adds (Event.InHome conan.home) (edit u) fun _ => True :=
    .bind (.forM fun _ _ => updateProfile_inHome _ _ _ _) fun _ _ => .pure trivial
  split
  · exact .bind (.lift log_inHome) fun _ _ => hedit ()
  · exact .bind (.lift log_inHome) fun _ _ =>
      .bind (conan.run_inHome _ true (by decide) (by decide)) fun _ _ => hedit ()

theorem readProfile_inHome (file : Path) :
    Action.Adds (Event.InHome home) (readProfile file) fun _ => True := by
  unfold readProfile
  refine .reads fun m => ?_
  dsimp only
  split
  · exact .failWith_bind _
  · exact fileText_inHome file

theorem validateProfile_inHome (file : Path) (standard : String) :
    Action.Adds (Event.InHome home) (validateProfile file standard) fun _ => True := by
  unfold validateProfile
  refine .bind (readProfile_inHome file) fun text _ => ?_
  split
  · exact .pure trivial
  · exact .failWith _

theorem configure_inHome (project : Project) (options : ConfigureOptions) :
    Action.Adds (Event.InHome project.conanHome) (configure project console options)
      fun _ => True := by
  unfold configure
  -- what follows is the same whether the package manager was installed first or not
  extract_lets s prepare
  have hprepare (u : Unit) :
      Action.Adds (Event.InHome project.conanHome) (prepare u) fun _ => True := by
    refine .bind (Conan.locate_inHome _) fun conan hconan => .bind (.lift start_inHome) fun work _ => ?_
    have hhome : conan.home = project.conanHome := hconan.2
    rw [← hhome]
    exact .bind (initializeHome_inHome conan _) fun _ _ =>
      .bind (initializeProfile_inHome conan _ _ _ _) fun file _ =>
        .bind (validateProfile_inHome file _) fun _ _ => .bind (.lift finish_inHome) fun _ _ =>
          .bind (.lift say_inHome) fun _ _ => .pure trivial
  split
  · exact .bind (installConan_inHome project) fun _ _ => hprepare ()
  · exact hprepare ()

end Runs

/-- Whatever a run of the steps, of the set-up or of the report starts as the package manager is
given the project's home, unless it is asked for its version and nothing else: then it is given
whatever home the machine's own variables name. -/
theorem conan_in_home (project : Project) (workflow : Workflow) (options : ConfigureOptions)
    (console : Console) (m : Machine) :
    let plan := Plan.ofProject project workflow
    let built := ((build console plan).run.run m).2
    let configured := ((configure project console options).run.run m).2
    let inspected := ((inspect plan).run m).2
    (∀ m' ∈ [built, configured, inspected], ∃ es, m'.events = m.events ++ es ∧
      ∀ c streamed inv, .ran c streamed (.ok inv) ∈ es → c.program.isNamed "conan" = true →
        inv.env.var? conanHomeVar =
          if c.args = ["--version"] then m.env.var? conanHomeVar
          else some project.conanHome.text) ∧
      ∀ conan, ((Conan.locate plan).run.run m).1 = .ok conan →
        conan.executable.isNamed "conan" = true := by
  intro plan built configured inspected
  have hall : ∀ m' ∈ [built, configured, inspected], ∃ es, m'.events = m.events ++ es ∧
      ∀ e ∈ es, e.InHome project.conanHome m.env := by
    simp only [List.forall_mem_cons]
    exact ⟨(build_inHome plan m).2.1, (configure_inHome project options m).2.1,
      (inspect_inHome plan m).2.1, fun _ hm => absurd hm List.not_mem_nil⟩
  refine ⟨fun m' hm' => ?_, fun conan hconan => ?_⟩
  · obtain ⟨es, hes, h⟩ := hall m' hm'
    exact ⟨es, hes, fun c streamed inv hran => h _ hran⟩
  · have hlocate : Action.Adds (Event.InHome project.conanHome) (Conan.locate plan) _ :=
      Conan.locate_inHome plan
    exact ((hlocate m).2.2 conan hconan).1

/-- A build on a machine that names a home of its own. -/
theorem conan_in_home_built :
    let project : Project := { root := ⟨"/p"⟩, settings := {}, home := ⟨"/"⟩ }
    let m : Machine := {
      files := { entries := [(["bin"], .directory), (["bin", "conan"], .file .empty 0o755)] }
      env := { vars := [("PATH", "/bin"), ("CONAN_HOME", "/elsewhere")] }
      cwd := []
      programs := fun fs _ => .ok { files := fs, stdout := "Conan version 2.3.0".toUTF8 } }
    let built := ((build ⟨.normal, false⟩ (Plan.ofProject project { build := true })).run.run m).2
    (∃ es, built.events = m.events ++ es ∧
      ∀ c streamed inv, .ran c streamed (.ok inv) ∈ es → c.program.isNamed "conan" = true →
        inv.env.var? conanHomeVar =
          if c.args = ["--version"] then some "/elsewhere" else some "/p/.conan2") ∧
      (built.events.filterMap Event.attempt?).map (fun a =>
          (a.1.args, a.2.2.toOption.map fun inv => inv.env.var? conanHomeVar)) =
        [(["--version"], some (some "/elsewhere")),
          (["install", "/p", "--build=missing", "-s", "build_type=Release"],
            some (some "/p/.conan2")),
          (["build", "/p", "-s", "build_type=Release"], some (some "/p/.conan2"))] := by
  intro project m built
  have h := (conan_in_home project { build := true } {} ⟨.normal, false⟩ m).1 built
    (List.mem_cons_self ..)
  have hvars : m.env.var? conanHomeVar = some "/elsewhere" := by decide
  have hhome : project.conanHome.text = "/p/.conan2" := by decide
  rw [hvars, hhome] at h
  exact ⟨h, by decide +kernel⟩

/-- A package manager on `PATH` is asked for its version without any home, whatever is run. -/
theorem conan_probed_without_home :
    let project : Project := { root := ⟨"/p"⟩, settings := {}, home := ⟨"/"⟩ }
    let m : Machine := {
      files := { entries := [(["bin"], .directory), (["bin", "conan"], .file .empty 0o755)] }
      env := { vars := [("PATH", "/bin")] }
      cwd := []
      programs := fun fs _ => .ok { files := fs, exit := .code 1 } }
    let console : Console := ⟨.normal, false⟩
    let plan := Plan.ofProject project { build := true }
    ∀ m' ∈ [((build console plan).run.run m).2, ((configure project console {}).run.run m).2,
        ((inspect plan).run m).2],
      ∃ a ∈ m'.events.filterMap Event.attempt?, a.1.program.isNamed "conan" = true ∧
        a.2.2.toOption.map (fun inv => inv.env.var? conanHomeVar) = some none := by
  decide +kernel

end ConanPipeline
