import ConanPipeline.Proofs.Cmake
import ConanPipeline.Proofs.Machine.Entries

/-! The home that the package manager is started in. A program that goes by its name is started
either by a command of `Conan`, which sets the home (`inHome_command`), or to be asked for its
version, which sets nothing (`inHome_probe`). All other tools go by names of their own
(`resolveCmake_inHome`, `Cmake.ctest_inHome`). -/

namespace ConanPipeline

/-- Whether the package manager, if it is what was started, has its home: the given one, or the
one that the machine's variables name if it was only asked for its version. -/
def Event.InHome (home : Path) (env : Environment) : Event → Prop
  | .ran c _ (.ok inv) => c.program.isNamed "conan" = true →
      inv.env.var? conanHomeVar =
        if c.args = ["--version"] then env.var? conanHomeVar else some home.text
  | _ => True

namespace Environment

theorem var?_set_self (env : Environment) (name value : String) :
    (env.set name value).var? name = some value := by
  have hgone : (env.unset name).vars.lookup name = none := by
    rw [List.lookup_eq_none_iff]
    intro v hv
    have hne := (List.mem_filter.1 hv).2
    simpa [bne_comm] using hne
  rw [var?, set, List.lookup_append, hgone]
  simp

end Environment

namespace Command

/-- Whether a command starts the package manager in its home, if that is what it starts. -/
def InHome (home : Path) (c : Command) : Prop :=
  ∀ env : Environment, c.program.isNamed "conan" = true →
    (env.override c.vars).var? conanHomeVar =
      if c.args = ["--version"] then env.var? conanHomeVar else some home.text

variable {home : Path} {c : Command}

theorem inHome_of_other (h : c.program.isNamed "conan" = false) : c.InHome home := by
  intro env hc
  rw [h] at hc
  cases hc

theorem inHome_probe (program : Path) :
    InHome home { program, args := ["--version"] } := fun _ _ => (if_pos rfl).symm

theorem inHome_command (conan : Conan) {a : String} (args : List String)
    (hname : Path.isNamed ⟨a⟩ "conan" = false) (hprobe : a ≠ "--version") :
    (conan.command (a :: args)).InHome conan.home := by
  intro env _
  have hargs : (conan.command (a :: args)).args = a :: args := if_neg (by simp [hname])
  rw [hargs, if_neg (by simp [hprobe])]
  exact env.var?_set_self conanHomeVar conan.home.text

end Command

section Tools

variable {home : Path} {console : Console}

theorem log_inHome {level : Level} {source : Source} {message : String} :
    Effect.Adds (Event.InHome home) (log level source message) fun _ => True :=
  .record fun _ => trivial

theorem say_inHome {s : Status} {message : String} :
    Effect.Adds (Event.InHome home) (console.say s message) fun _ => True := by
  unfold Console.say
  split
  · exact .record fun _ => trivial
  · exact .pure trivial

theorem sayVerbose_inHome {s : Status} {message : String} :
    Effect.Adds (Event.InHome home) (console.sayVerbose s message) fun _ => True := by
  unfold Console.sayVerbose
  split
  · exact say_inHome
  · exact .pure trivial

theorem start_inHome {s : Status} {message : String} :
    Effect.Adds (Event.InHome home) (console.start s message) fun _ => True :=
  .bind say_inHome fun _ _ => .reads fun _ => .pure trivial

theorem finish_inHome {work : Span} :
    Effect.Adds (Event.InHome home) (console.finish work) fun _ => True := by
  unfold Console.finish
  refine .reads fun m => ?_
  dsimp only
  split
  · exact .record fun _ => trivial
  · exact .pure trivial

theorem launch_inHome {c : Command} (hc : c.InHome home) (streamed : Bool) :
    Effect.Adds (Event.InHome home) (launch c streamed) fun _ => True :=
  launch_adds (fun _ _ => trivial) (fun env inv henv => by simpa only [Event.InHome, henv] using hc env)
    fun _ _ => trivial

theorem Command.run_inHome {c : Command} (hc : c.InHome home) (check : Bool) :
    Action.Adds (Event.InHome home) (c.run check) fun _ => True := by
  unfold Command.run
  refine .bind (.lift log_inHome) fun _ _ => .bind (.lift (launch_inHome hc false)) fun r _ => ?_
  split
  · exact .throw _
  · dsimp only
    split
    · exact .failWith_bind _
    · exact .pure trivial

theorem Command.stream_inHome {c : Command} (hc : c.InHome home) (check : Bool) :
    Action.Adds (Event.InHome home) (c.stream check) fun _ => True := by
  unfold Command.stream
  refine .bind (.lift log_inHome) fun _ _ => .bind (.lift (launch_inHome hc true)) fun r _ => ?_
  split
  · exact .throw _
  · refine .bind (.lift (.record fun _ => trivial)) fun _ _ =>
      .bind (.lift (.record fun _ => trivial)) fun _ _ => ?_
    dsimp only
    split
    · exact .failWith_bind _
    · exact .pure trivial

theorem Command.streamShown_inHome {c : Command} (hc : c.InHome home) :
    Action.Adds (Event.InHome home) (c.streamShown console) fun _ => True :=
  .bind (.lift sayVerbose_inHome) fun _ _ => .bind (Command.stream_inHome hc true) fun _ _ =>
    .pure trivial

theorem Tool.probe_inHome (path : Path) (read : String → Except Cause String) :
    Action.Adds (Event.InHome home) (Tool.probe path read) fun tool => tool.path = path := by
  unfold Tool.probe
  refine .bind (Command.run_inHome (Command.inHome_probe path) true) fun output _ => ?_
  split
  · exact .pure rfl
  · exact .failWith _

theorem askPipenv_inHome (root : Path) :
    Effect.Adds (Event.InHome home) (askPipenv root) fun _ => True := by
  unfold askPipenv
  refine .reads fun m => ?_
  split
  · exact .pure trivial
  · rename_i program hwhich
    have hcommand : Command.InHome home { program, args := ["--venv"], cwd := some root } := by
      refine Command.inHome_of_other ?_
      rw [Machine.isNamed_which (by decide) hwhich]
      decide
    refine .bind (Command.run_inHome hcommand false) fun r _ => ?_
    split
    · exact .bind log_inHome fun _ _ => .pure trivial
    · split
      · exact .pure trivial
      · exact .bind log_inHome fun _ _ => .pure trivial

theorem findVenv_inHome (configured : Option Path) (root : Path) :
    Effect.Adds (Event.InHome home) (findVenv configured root) fun _ => True := by
  unfold findVenv
  refine .reads fun m => ?_
  dsimp only
  split
  · exact .bind log_inHome fun _ _ => .pure trivial
  · exact askPipenv_inHome root

/-- What is found in a virtual environment is named as the package manager is. -/
theorem findConan_inHome (venv : Path) :
    Action.Adds (Event.InHome home) (findConan venv)
      fun found => ∀ tool, found = some tool → tool.path.isNamed "conan" = true := by
  unfold findConan
  refine .reads fun m => ?_
  split
  · exact .bind (.lift log_inHome) fun _ _ => .pure fun _ h => nomatch h
  · dsimp only
    split
    · exact .bind (.lift log_inHome) fun _ _ => .pure fun _ h => nomatch h
    · rename_i path hfind
      have hpath : path.isNamed "conan" = true := by
        have hplace := List.mem_of_find?_eq_some hfind
        simp only [List.mem_cons, List.not_mem_nil, or_false] at hplace
        rcases hplace with rfl | rfl
        · exact Path.isNamed_join (by decide) _
        · exact Path.isNamed_join (by decide) _
      refine .bind (Tool.probe_inHome path _) fun tool htool =>
        .bind (.lift log_inHome) fun _ _ => .pure fun _ h => ?_
      cases h
      rwa [htool]

theorem resolveConan_inHome (plan : Plan) :
    Action.Adds (Event.InHome home) (resolveConan plan)
      fun tool => tool.path.isNamed "conan" = true := by
  unfold resolveConan
  refine .bind (.lift (findVenv_inHome _ _)) fun venv _ => ?_
  -- with a virtual environment or without one, the search goes on in the same way
  extract_lets onPath
  have hpath (inVenv : Option Tool)
      (h : ∀ tool, inVenv = some tool → tool.path.isNamed "conan" = true) :
      Action.Adds (Event.InHome home) (onPath inVenv)
        fun tool => tool.path.isNamed "conan" = true := by
    unfold onPath
    split
    · exact .pure (h _ rfl)
    · refine .reads fun m => ?_
      split
      · rename_i path hwhich
        have hnamed : path.isNamed "conan" = true := by
          rw [Machine.isNamed_which (by decide) hwhich]
          decide
        refine .bind (Tool.probe_inHome path _) fun tool htool =>
          .bind (.lift log_inHome) fun _ _ => .pure ?_
        rwa [htool]
      · exact .failWith _
  split
  · exact .bind (findConan_inHome _) hpath
  · exact .bind (.pure fun _ h => nomatch h) hpath

theorem Conan.locate_inHome (plan : Plan) :
    Action.Adds (Event.InHome home) (Conan.locate plan)
      fun conan => conan.executable.isNamed "conan" = true ∧ conan.home = plan.conanHome :=
  .bind (resolveConan_inHome plan) fun _ h => .pure ⟨h, rfl⟩

theorem fileText_inHome (p : Path) :
    Action.Adds (Event.InHome home) (fileText p) fun _ => True := by
  unfold fileText
  refine .reads fun m => ?_
  split
  · exact .pure trivial
  · exact .throw _

/-- What is found in the cache is named as the build tool is. -/
theorem findCmakeInCache_inHome (conanHome : Path) :
    Action.Adds (Event.InHome home) (findCmakeInCache conanHome)
      fun tool => tool.path.isNamed "cmake" = true := by
  unfold findCmakeInCache
  refine .reads fun m => .bind (.forM fun u _ => .lift log_inHome) fun _ _ => ?_
  split
  · exact .failWith _
  · rename_i path hfound
    refine .bind (Tool.probe_inHome path _) fun tool htool =>
      .bind (.lift log_inHome) fun _ _ => .pure ?_
    rw [htool]
    exact (FileSystem.named_and_executable_of_found hfound).1

theorem cmakeFromToolchain_inHome (file : Path) :
    Action.Adds (Event.InHome home) (cmakeFromToolchain file Platform.host)
      fun cmake => cmake.isNamed "cmake" = true := by
  unfold cmakeFromToolchain
  refine .reads fun m => ?_
  extract_lets read
  have hread (u : Unit) :
      Action.Adds (Event.InHome home) (read u) fun cmake => cmake.isNamed "cmake" = true := by
    refine .bind (fileText_inHome file) fun text _ => ?_
    split
    · exact .failWith _
    · rename_i cmake hcmake
      refine .bind (.lift log_inHome) fun _ _ => .pure ?_
      rw [Path.isNamed_iff (Toolchain.fileName_cmake hcmake)]
      decide
  split
  · exact .failWith_bind _
  · exact hread ()

theorem cmakeFromToolchains_inHome (files : List Path) :
    Effect.Adds (Event.InHome home) (cmakeFromToolchains files)
      fun found => ∀ cmake, found = some cmake → cmake.isNamed "cmake" = true := by
  induction files with
  | nil => exact .pure fun _ h => nomatch h
  | cons file files ih =>
    rw [cmakeFromToolchains]
    refine .reads fun m => ?_
    split
    · exact ih
    · refine .bind (cmakeFromToolchain_inHome file) fun r hr => ?_
      split
      · exact .bind log_inHome fun _ _ => ih
      · rename_i cmake
        refine .reads fun m' => ?_
        split
        · exact .pure fun _ h => Option.some.inj h ▸ hr cmake rfl
        · exact .bind log_inHome fun _ _ => ih

theorem resolveCmake_inHome (plan : Plan) :
    Action.Adds (Event.InHome home) (resolveCmake plan)
      fun cmake => cmake.isNamed "cmake" = true := by
  unfold resolveCmake
  refine .bind (.lift (cmakeFromToolchains_inHome _)) fun found hfound => ?_
  split
  · exact .pure (hfound _ rfl)
  · refine .bind (.attempt (findCmakeInCache_inHome _)) fun r hr => ?_
    split
    · exact .pure (hr _ rfl)
    · refine .bind (.lift log_inHome) fun _ _ => .reads fun m => ?_
      split
      · rename_i cmake hwhich
        refine .pure ?_
        rw [Machine.isNamed_which (by decide) hwhich]
        decide
      · exact .failWith _

theorem detectGenerator_inHome {cmake : Path} (h : cmake.isNamed "cmake" = true) :
    Action.Adds (Event.InHome home) (detectGenerator cmake) fun _ => True := by
  unfold detectGenerator
  have hcommand : Command.InHome home { program := cmake, args := ["--help"] } :=
    Command.inHome_of_other (Path.isNamed_of_isNamed h (by decide))
  dsimp only
  refine .bind (.attempt (Command.run_inHome hcommand false)) fun r _ => .reads fun m => ?_
  split
  · exact .pure trivial
  · exact .failWith _

theorem Cmake.stream_inHome {c : Cmake} (h : c.executable.isNamed "cmake" = true)
    (args : List String) :
    Action.Adds (Event.InHome home) (c.stream console args) fun _ => True :=
  Command.streamShown_inHome (Command.inHome_of_other (Path.isNamed_of_isNamed h (by decide)))

theorem Cmake.locate_inHome (plan : Plan) :
    Action.Adds (Event.InHome home) (Cmake.locate plan)
      fun c => c.executable.isNamed "cmake" = true :=
  .bind (resolveCmake_inHome plan) fun _ h => .pure h

theorem Cmake.ctest_inHome (c : Cmake) :
    Action.Adds (Event.InHome home) c.ctest fun p => p.isNamed "conan" = false := by
  unfold Cmake.ctest
  refine .reads fun m => ?_
  dsimp only
  split
  · rename_i p hp
    obtain ⟨dir, -, rfl⟩ := Option.map_eq_some_iff.1 (Option.filter_eq_some_iff.1 hp).1
    have hctest : (dir.join ⟨Platform.host.executable "ctest"⟩).isNamed "ctest" = true :=
      Path.isNamed_join (by decide) dir
    exact .pure (Path.isNamed_of_isNamed hctest (by decide))
  · split
    · rename_i p hwhich
      refine .pure ?_
      rw [Machine.isNamed_which (by decide) hwhich]
      decide
    · exact .failWith _

end Tools

end ConanPipeline
