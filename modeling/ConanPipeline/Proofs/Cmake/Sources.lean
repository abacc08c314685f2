import ConanPipeline.Cmake
import ConanPipeline.Proofs.Tool
import ConanPipeline.Proofs.Toolchain

/-! Where the build tool comes from. The toolchain files, the package manager's cache and `PATH` are
sources, each of which gives one path or none, and a run takes what the first gives that gives
anything (`resolveCmake_first`). -/

namespace ConanPipeline

/-- What the first of some sources gives that gives anything. -/
inductive FirstOf {α : Type} : List (α → Prop) → α → Prop
  | here {s : α → Prop} {ss : List (α → Prop)} {a : α} (h : s a) : FirstOf (s :: ss) a
  | later {s : α → Prop} {ss : List (α → Prop)} {a : α} (hs : ∀ b, ¬ s b) (h : FirstOf ss a) :
      FirstOf (s :: ss) a

namespace FirstOf

variable {α : Type} {ss ts : List (α → Prop)} {a b : α}

theorem exists_mem (h : FirstOf ss a) : ∃ s ∈ ss, s a := by
  induction h with
  | here h => exact ⟨_, List.mem_cons_self .., h⟩
  | later _ _ ih =>
    obtain ⟨s, hs, ha⟩ := ih
    exact ⟨s, List.mem_cons_of_mem _ hs, ha⟩

theorem append_left (h : FirstOf ss a) : FirstOf (ss ++ ts) a := by
  induction h with
  | here h => exact .here h
  | later hs _ ih => exact .later hs ih

theorem append_right (hs : ∀ s ∈ ss, ∀ b, ¬ s b) (h : FirstOf ts a) : FirstOf (ss ++ ts) a := by
  induction ss with
  | nil => exact h
  | cons s ss ih =>
    rw [List.forall_mem_cons] at hs
    exact .later hs.1 (ih hs.2)

theorem unique (hs : ∀ s ∈ ss, ∀ a b, s a → s b → a = b) (ha : FirstOf ss a)
    (hb : FirstOf ss b) : a = b := by
  induction ha with
  | here ha =>
    cases hb with
    | here hb => exact hs _ (List.mem_cons_self ..) _ _ ha hb
    | later hnone _ => exact absurd ha (hnone _)
  | later hnone _ ih =>
    rw [List.forall_mem_cons] at hs
    cases hb with
    | here hb => exact absurd hb (hnone _)
    | later _ hb => exact ih hs.2 hb

end FirstOf

/-- The build tool that a toolchain file gives: the file is there and can be read, and what it names
is a file. -/
structure Toolchain.Gives (m : Machine) (file p : Path) : Prop where
  isFile : m.isFile file = true
  named : ∃ text, m.files.readText m.cwd file = .ok text ∧
    cmake file Platform.host text.toList = .ok p
  present : m.isFile p = true

namespace Cmake

/-- What the search in the package manager's cache comes to. -/
def cacheSearch (m : Machine) (home : Path) : TreeSearch :=
  m.files.findInTree m.cwd (home.join ⟨"p"⟩) "cmake"

/-- The build tool that the cache gives: what is found in it, if that tells its version. -/
structure Cached (m : Machine) (home p : Path) : Prop where
  found : (cacheSearch m home).found = some p
  tells : ∃ tool, Tool.Asked m p Tool.cmakeVersion (.ok tool)

/-- The machine after the cache has been gone through. What was found in it has been asked for its
version. -/
def afterCache (m : Machine) (home : Path) : Machine :=
  (cacheSearch m home).found.elim m fun p => ((launch (Tool.query p) false).run m).2

/-- The sources of the build tool, the first to be tried first: the toolchain file of the active
build type, the one that all build types share, the cache, and `PATH`. -/
def sources (plan : Plan) (m : Machine) : List (Path → Prop) :=
  let active := plan.buildDir.join ⟨if plan.workflow.debug then "Debug" else "Release"⟩
  [Toolchain.Gives m ((active.join ⟨"generators"⟩).join ⟨"conan_toolchain.cmake"⟩),
    Toolchain.Gives m ((plan.buildDir.join ⟨"generators"⟩).join ⟨"conan_toolchain.cmake"⟩),
    Cached m plan.conanHome,
    fun p => (afterCache m plan.conanHome).which "cmake" = some p]

/-- The toolchain files of a plan are the first two sources. -/
theorem sources_eq (plan : Plan) (m : Machine) :
    sources plan m = plan.toolchains.map (Toolchain.Gives m) ++
      [Cached m plan.conanHome,
        fun p => (afterCache m plan.conanHome).which "cmake" = some p] := by
  rw [sources, Plan.toolchains, Plan.buildRoot, Plan.buildType]
  cases plan.workflow.debug <;> rfl

theorem sources_unique {plan : Plan} {m : Machine} :
    ∀ s ∈ sources plan m, ∀ p q, s p → s q → p = q := by
  intro s hs p q hp hq
  rw [sources_eq] at hs
  rcases List.mem_append.1 hs with hs | hs
  · obtain ⟨file, -, rfl⟩ := List.mem_map.1 hs
    obtain ⟨text, htext, hcmake⟩ := hp.named
    obtain ⟨text', htext', hcmake'⟩ := hq.named
    obtain rfl := Except.ok.inj (htext.symm.trans htext')
    exact Except.ok.inj (hcmake.symm.trans hcmake')
  · rcases List.mem_cons.1 hs with rfl | hs
    · exact Option.some.inj (hp.found.symm.trans hq.found)
    · obtain rfl := List.mem_singleton.1 hs
      exact Option.some.inj (hp.symm.trans hq)

end Cmake

section Sources

variable {m : Machine} {file p : Path}

theorem fileText_comes_ok {text : String} (h : m.files.readText m.cwd file = .ok text) :
    (fileText file).Comes m (.ok text) m := by
  unfold fileText
  refine .reads (fun _ _ => rfl) ?_
  rw [h]
  exact .pure _ _

theorem fileText_comes_error {c : Cause} (h : m.files.readText m.cwd file = .error c) :
    (fileText file).Comes m (.error ((Failure.of c).inside (.readingFile file))) m := by
  unfold fileText
  refine .reads (fun _ _ => rfl) ?_
  rw [h]
  exact .throw _ _

theorem cmakeFromToolchain_comes (hfile : m.isFile file = true) (platform : Platform) :
    ∃ r, (cmakeFromToolchain file platform).Comes m r m ∧ ∀ p, r = .ok p ↔
      ∃ text, m.files.readText m.cwd file = .ok text ∧
        Toolchain.cmake file platform text.toList = .ok p := by
  unfold cmakeFromToolchain
  cases htext : m.files.readText m.cwd file with
  | error c =>
    refine ⟨.error ((Failure.of c).inside (.readingFile file)),
      .reads (fun _ _ => by rw [Machine.isFile_recorded]) ?_, fun p => ?_⟩
    · rw [hfile]
      exact .bind_error (fileText_comes_error htext)
    · simp
  | ok text =>
    refine ⟨(Toolchain.cmake file platform text.toList).mapError Failure.of,
      .reads (fun _ _ => by rw [Machine.isFile_recorded]) ?_, fun p => ?_⟩
    · rw [hfile]
      refine .bind (fileText_comes_ok htext) ?_
      cases Toolchain.cmake file platform text.toList with
      | error c => exact .failWith _ _
      | ok cmake => exact .log_bind (.pure _ _)
    · have hread : (Toolchain.cmake file platform text.toList).mapError Failure.of = .ok p ↔
          Toolchain.cmake file platform text.toList = .ok p := by
        cases Toolchain.cmake file platform text.toList with
        | error c => constructor <;> intro h <;> cases h
        | ok cmake => constructor <;> intro h <;> cases h <;> rfl
      simp [hread]

/-- A toolchain file either gives the build tool or is passed over. -/
theorem cmakeFromToolchains_cons (m : Machine) (file : Path) (files : List Path) :
    (∃ p, Toolchain.Gives m file p ∧ (cmakeFromToolchains (file :: files)).Comes m (some p) m) ∨
      (∀ p, ¬ Toolchain.Gives m file p) ∧ ∀ r, (cmakeFromToolchains files).Comes m r m →
        (cmakeFromToolchains (file :: files)).Comes m r m := by
  rw [cmakeFromToolchains]
  cases hfile : m.isFile file with
  | false =>
    refine .inr ⟨fun p h => ?_, fun r h => .reads (fun _ _ => by rw [Machine.isFile_recorded]) ?_⟩
    · rw [h.isFile] at hfile
      cases hfile
    · rw [hfile]
      exact h
  | true =>
    obtain ⟨found, hcomes, hfound⟩ := cmakeFromToolchain_comes hfile Platform.host
    cases found with
    | error f =>
      refine .inr ⟨fun p h => ?_, fun r h => .reads (fun _ _ => by rw [Machine.isFile_recorded]) ?_⟩
      · cases (hfound p).2 h.named
      · rw [hfile]
        exact .bind hcomes (.log_bind h)
    | ok cmake =>
      cases hthere : m.isFile cmake with
      | true =>
        refine .inl ⟨cmake, ⟨hfile, (hfound cmake).1 rfl, hthere⟩,
          .reads (fun _ _ => by rw [Machine.isFile_recorded]) ?_⟩
        rw [hfile]
        refine .bind hcomes (.reads (fun _ _ => by rw [Machine.isFile_recorded]) ?_)
        rw [hthere]
        exact .pure _ _
      | false =>
        refine .inr ⟨fun p h => ?_, fun r h =>
          .reads (fun _ _ => by rw [Machine.isFile_recorded]) ?_⟩
        · obtain rfl := Except.ok.inj ((hfound p).2 h.named)
          rw [h.present] at hthere
          cases hthere
        · rw [hfile]
          refine .bind hcomes (.reads (fun _ _ => by rw [Machine.isFile_recorded]) ?_)
          rw [hthere]
          exact .log_bind h

theorem cmakeFromToolchains_comes (m : Machine) (files : List Path) :
    (∃ p, FirstOf (files.map (Toolchain.Gives m)) p ∧
        (cmakeFromToolchains files).Comes m (some p) m) ∨
      (∀ s ∈ files.map (Toolchain.Gives m), ∀ p, ¬ s p) ∧
        (cmakeFromToolchains files).Comes m none m := by
  induction files with
  | nil => exact .inr ⟨fun _ h => absurd h List.not_mem_nil, .pure _ _⟩
  | cons file files ih =>
    rw [List.map_cons, List.forall_mem_cons]
    rcases cmakeFromToolchains_cons m file files with ⟨p, hgives, h⟩ | ⟨hnone, hrest⟩
    · exact .inl ⟨p, .here hgives, h⟩
    · rcases ih with ⟨p, hfirst, h⟩ | ⟨hall, h⟩
      · exact .inl ⟨p, .later hnone hfirst, hrest _ h⟩
      · exact .inr ⟨⟨hnone, hall⟩, hrest _ h⟩

/-- The search in the cache leaves one machine, whatever it comes to, and it succeeds exactly if the
cache gives the build tool. -/
theorem findCmakeInCache_comes (m : Machine) (home : Path) :
    ∃ r, (findCmakeInCache home).Comes m r (Cmake.afterCache m home) ∧
      ∀ p, Cmake.Cached m home p ↔ ∃ tool, r = .ok tool ∧ tool.path = p := by
  unfold findCmakeInCache
  rw [Cmake.afterCache]
  cases hfound : (Cmake.cacheSearch m home).found with
  | none =>
    refine ⟨.error (.of (.toolMissing "cmake" (home.join ⟨"p"⟩).text)),
      .reads (fun _ _ => by dsimp only) (.bind (.forM_log fun _ => .log _ _ _ _) ?_), fun p => ?_⟩
    · rw [Cmake.cacheSearch] at hfound
      rw [hfound]
      exact .failWith _ _
    · refine iff_of_false (fun h => ?_) nofun
      rw [h.found] at hfound
      cases hfound
  | some path =>
    obtain ⟨r, hasked, hcomes⟩ := Tool.probe_comes m path Tool.cmakeVersion
    refine ⟨r, .reads (fun _ _ => by dsimp only) (.bind (.forM_log fun _ => .log _ _ _ _) ?_),
      fun p => ?_⟩
    · rw [Cmake.cacheSearch] at hfound
      rw [hfound]
      cases r with
      | error f => exact .bind_error hcomes
      | ok tool => exact .bind hcomes (.log_bind (.pure _ _))
    · constructor
      · rintro ⟨hp, tool, htool⟩
        obtain rfl := Option.some.inj (hfound.symm.trans hp)
        exact ⟨tool, hasked.unique htool, htool.path_eq⟩
      · rintro ⟨tool, rfl, rfl⟩
        rw [hasked.path_eq]
        exact ⟨hfound, tool, hasked⟩

theorem resolveCmake_comes (plan : Plan) (m : Machine) :
    (∃ p, FirstOf (Cmake.sources plan m) p ∧ ∃ m', (resolveCmake plan).Comes m (.ok p) m') ∨
      (∀ s ∈ Cmake.sources plan m, ∀ p, ¬ s p) ∧ ∃ m', (resolveCmake plan).Comes m
        (.error (.of (.toolMissing "cmake" ("toolchain files under " ++ plan.buildDir.text ++
          ", conan cache " ++ plan.conanHome.text ++ ", PATH")))) m' := by
  rw [Cmake.sources_eq]
  unfold resolveCmake
  rcases cmakeFromToolchains_comes m plan.toolchains with ⟨p, hfirst, h⟩ | ⟨hnone, h⟩
  · exact .inl ⟨p, hfirst.append_left, m, .bind (.lift h) (.pure _ _)⟩
  · obtain ⟨r, hcache, hcached⟩ := findCmakeInCache_comes m plan.conanHome
    cases r with
    | ok tool =>
      exact .inl ⟨tool.path, .append_right hnone (.here ((hcached _).2 ⟨tool, rfl, rfl⟩)), _,
        .bind (.lift h) (.bind (.attempt hcache) (.pure _ _))⟩
    | error f =>
      have huncached (p : Path) : ¬ Cmake.Cached m plan.conanHome p := fun h => by
        obtain ⟨tool, htool, -⟩ := (hcached p).1 h
        cases htool
      let after := Cmake.afterCache m plan.conanHome
      cases hwhich : after.which "cmake" with
      | some p =>
        refine .inl ⟨p, .append_right hnone (.later huncached (.here rfl)), after,
          .bind (.lift h) (.bind (.attempt hcache) (.log_bind (.reads (fun _ _ => rfl) ?_)))⟩
        rw [hwhich]
        exact .pure _ _
      | none =>
        refine .inr ⟨fun s hs => ?_, after,
          .bind (.lift h) (.bind (.attempt hcache) (.log_bind (.reads (fun _ _ => rfl) ?_)))⟩
        · rcases List.mem_append.1 hs with hs | hs
          · exact hnone s hs
          · rcases List.mem_cons.1 hs with rfl | hs
            · exact huncached
            · obtain rfl := List.mem_singleton.1 hs
              exact nofun
        · rw [hwhich]
          exact .failWith _ _

end Sources

/-- The build tool of a run is what the first source gives that gives anything: the toolchain files
in their order, the shallowest tool of the cache if it tells its version, and `PATH`. A run fails
exactly if none of them gives anything, and then the tool is missing, whatever went wrong on the
way. -/
theorem resolveCmake_first (plan : Plan) (m : Machine) :
    let r := ((resolveCmake plan).run.run m).1
    (∀ p, r = .ok p ↔ FirstOf (Cmake.sources plan m) p) ∧
      ∀ f, r = .error f ↔ f = .of (.toolMissing "cmake" ("toolchain files under " ++
          plan.buildDir.text ++ ", conan cache " ++ plan.conanHome.text ++ ", PATH")) ∧
        ∀ s ∈ Cmake.sources plan m, ∀ p, ¬ s p := by
  intro r
  rcases resolveCmake_comes plan m with ⟨p, hfirst, m', h⟩ | ⟨hnone, m', h⟩
  · have hr : r = .ok p := h.run.1
    rw [hr]
    refine ⟨fun q => ⟨?_, fun hq => ?_⟩, fun f => iff_of_false nofun fun h => ?_⟩
    · rintro ⟨⟩
      exact hfirst
    · rw [hfirst.unique Cmake.sources_unique hq]
    · obtain ⟨s, hs, hp⟩ := hfirst.exists_mem
      exact h.2 s hs p hp
  · have hr : r = .error _ := h.run.1
    rw [hr]
    refine ⟨fun q => iff_of_false nofun fun h => ?_, fun f => ⟨?_, fun h => h.1 ▸ rfl⟩⟩
    · obtain ⟨s, hs, hp⟩ := h.exists_mem
      exact hnone s hs q hp
    · rintro ⟨⟩
      exact ⟨rfl, hnone⟩

/-- The toolchain file of the active build type names a build tool that is gone, and the one that
all build types share gives the tool. That there is one on `PATH` makes no difference. -/
theorem resolveCmake_first_shared :
    let project : Project := { root := ⟨"/p"⟩, settings := {}, home := ⟨"/"⟩ }
    let plan := Plan.ofProject project {}
    let build : List (Location × Node) := [(["p"], .directory), (["p", "build"], .directory),
      (["p", "build", "Release"], .directory),
      (["p", "build", "Release", "generators"], .directory),
      (["p", "build", "Release", "generators", "conan_toolchain.cmake"],
        .file "set(CMAKE_PROGRAM \"/gone\")\n".toUTF8 0o644),
      (["p", "build", "generators"], .directory),
      (["p", "build", "generators", "conan_toolchain.cmake"],
        .file "set(CMAKE_PROGRAM \"/t\")\n".toUTF8 0o644)]
    let m : Machine := {
      files := { entries := build ++ [(["t"], .directory), (["t", "cmake"], .file .empty 0o755),
        (["bin"], .directory), (["bin", "cmake"], .file .empty 0o755)] }
      env := { vars := [("PATH", "/bin")] }
      cwd := []
      programs := fun _ _ => .error .noEntry }
    ((resolveCmake plan).run.run m).1 = .ok ⟨"/t/cmake"⟩ ∧
      FirstOf (Cmake.sources plan m) ⟨"/t/cmake"⟩ ∧
      (∀ p, ¬ Toolchain.Gives m ⟨"/p/build/Release/generators/conan_toolchain.cmake"⟩ p) ∧
      Toolchain.Gives m ⟨"/p/build/generators/conan_toolchain.cmake"⟩ ⟨"/t/cmake"⟩ := by
  intro project plan build m
  have hgone (p : Path) :
      ¬ Toolchain.Gives m ⟨"/p/build/Release/generators/conan_toolchain.cmake"⟩ p := by
    rintro ⟨-, ⟨text, htext, hp⟩, hthere⟩
    have hread : m.files.readText m.cwd ⟨"/p/build/Release/generators/conan_toolchain.cmake"⟩ =
        .ok "set(CMAKE_PROGRAM \"/gone\")\n" := by decide +kernel
    obtain rfl := Except.ok.inj (hread.symm.trans htext)
    obtain rfl : (⟨"/gone/cmake"⟩ : Path) = p := Except.ok.inj (.trans (by decide +kernel) hp)
    exact absurd hthere (by decide +kernel)
  have hgives : Toolchain.Gives m ⟨"/p/build/generators/conan_toolchain.cmake"⟩ ⟨"/t/cmake"⟩ :=
    ⟨by decide +kernel, ⟨"set(CMAKE_PROGRAM \"/t\")\n", by decide +kernel, by decide +kernel⟩,
      by decide +kernel⟩
  have hactive : ((plan.buildDir.join ⟨if plan.workflow.debug then "Debug" else "Release"⟩).join
      ⟨"generators"⟩).join ⟨"conan_toolchain.cmake"⟩ =
        ⟨"/p/build/Release/generators/conan_toolchain.cmake"⟩ := by decide +kernel
  have hshared : (plan.buildDir.join ⟨"generators"⟩).join ⟨"conan_toolchain.cmake"⟩ =
      ⟨"/p/build/generators/conan_toolchain.cmake"⟩ := by decide +kernel
  have hfirst : FirstOf (Cmake.sources plan m) ⟨"/t/cmake"⟩ := by
    rw [Cmake.sources, hactive, hshared]
    exact .later hgone (.here hgives)
  exact ⟨((resolveCmake_first plan m).1 ⟨"/t/cmake"⟩).2 hfirst, hfirst, hgone, hgives⟩

end ConanPipeline
