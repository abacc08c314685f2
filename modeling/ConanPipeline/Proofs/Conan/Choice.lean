import ConanPipeline.Conan
import ConanPipeline.Proofs.Tool

/-! Which package manager is taken. A run settles on an environment (`Venv.Chosen`), then on one
place (`Conan.Place`), and what that place comes to when it is asked for its version is what the
run comes to (`resolveConan_commits`). -/

namespace ConanPipeline

namespace Venv

/-- No environment is configured, and none is active. -/
def Unknown (configured : Option Path) (m : Machine) : Prop :=
  configured = none ∧
    (m.env.var? "VIRTUAL_ENV" = none ∨ m.env.var? "VIRTUAL_ENV" = some "")

/-- The command that asks `pipenv` for the environment of a project. -/
def query (program root : Path) : Command := { program, args := ["--venv"], cwd := some root }

/-- The environment that `pipenv` tells, by what became of the attempt to start it. Only one that
succeeds tells anything. -/
def told : Except Errno Outcome → Option Path
  | .error _ => none
  | .ok out => if out.exit = .code 0 then ofAnswer (Text.ofBytes out.stdout) else none

/-- The environment that a run settles on, what it runs to get to know it, and the machine that is
left. -/
inductive Chosen (configured : Option Path) (root : Path) (m : Machine) :
    Option Path → List Command → Machine → Prop
  | configured {v : Path} (h : configured = some v) : Chosen configured root m (some v) [] m
  | active {v : String} (h : configured = none) (hv : m.env.var? "VIRTUAL_ENV" = some v)
      (hne : v ≠ "") : Chosen configured root m (some ⟨v⟩) [] m
  | unasked (h : Unknown configured m) (hp : m.which "pipenv" = none) :
      Chosen configured root m none [] m
  | asked {program : Path} (h : Unknown configured m) (hp : m.which "pipenv" = some program) :
      Chosen configured root m (told ((launch (query program root) false).run m).1)
        [query program root] ((launch (query program root) false).run m).2

end Venv

namespace Conan

/-- The file that is the package manager of a virtual environment. -/
inductive InVenv (m : Machine) (venv : Path) : Path → Prop
  | bin (hdir : m.isDirectory venv = true)
      (h : m.isFile ((venv.join ⟨"bin"⟩).join ⟨"conan"⟩) = true) :
      InVenv m venv ((venv.join ⟨"bin"⟩).join ⟨"conan"⟩)
  | scripts (hdir : m.isDirectory venv = true)
      (hbin : m.isFile ((venv.join ⟨"bin"⟩).join ⟨"conan"⟩) = false)
      (h : m.isFile ((venv.join ⟨"Scripts"⟩).join ⟨"conan.exe"⟩) = true) :
      InVenv m venv ((venv.join ⟨"Scripts"⟩).join ⟨"conan.exe"⟩)

/-- The one place that the package manager is taken from: the environment, or else what stands on
`PATH`, if anything does. -/
inductive Place (m : Machine) (venv : Option Path) : Option Path → Prop
  | venv {v p : Path} (hv : venv = some v) (h : InVenv m v p) : Place m venv (some p)
  | path (h : ∀ v, venv = some v → ∀ p, ¬ InVenv m v p) : Place m venv (m.which "conan")

end Conan

section Environment

variable {m : Machine}

theorem Venv.known?_cases (configured : Option Path) (root : Path) (m : Machine) :
    (∃ how v, known? configured ((m.env.var? "VIRTUAL_ENV").map Path.mk) = some (how, v) ∧
        Chosen configured root m (some v) [] m) ∨
      known? configured ((m.env.var? "VIRTUAL_ENV").map Path.mk) = none ∧ Unknown configured m := by
  cases configured with
  | some v => exact .inl ⟨_, v, rfl, .configured rfl⟩
  | none =>
    cases hv : m.env.var? "VIRTUAL_ENV" with
    | none => exact .inr ⟨rfl, rfl, .inl hv⟩
    | some v =>
      by_cases hempty : v = ""
      · exact .inr ⟨by rw [hempty]; rfl, rfl, .inr (hempty ▸ hv)⟩
      · have hname : (Path.mk v).isEmpty = false := by simpa [Path.isEmpty, Path.chars] using hempty
        refine .inl ⟨"active", ⟨v⟩, ?_, .active rfl hv hempty⟩
        rw [Option.map_some, known?, hname]
        rfl

theorem askPipenv_comes {program : Path} (hp : m.which "pipenv" = some program) (root : Path) :
    (askPipenv root).Comes m (Venv.told ((launch (Venv.query program root) false).run m).1)
      ((launch (Venv.query program root) false).run m).2 := by
  unfold askPipenv
  refine .reads (fun _ _ => rfl) ?_
  rw [hp]
  cases hrun : ((launch (Venv.query program root) false).run m).1 with
  | error e => exact .bind (Command.run_refused hrun) (.log_bind (.pure _ _))
  | ok out =>
    refine .bind (Command.run_done hrun nofun) ?_
    dsimp only
    split
    · rename_i hexit
      rw [Venv.told, if_pos (Outcome.success_output.1 hexit)]
      exact .pure _ _
    · rename_i hexit
      rw [Venv.told, if_neg fun h => hexit (Outcome.success_output.2 h)]
      exact .log_bind (.pure _ _)

theorem findVenv_comes (configured : Option Path) (root : Path) (m : Machine) :
    ∃ venv asked m₁, Venv.Chosen configured root m venv asked m₁ ∧
      (findVenv configured root).Comes m venv m₁ := by
  unfold findVenv
  rcases Venv.known?_cases configured root m with ⟨how, v, hknown, hchosen⟩ | ⟨hknown, hunknown⟩
  · refine ⟨_, _, _, hchosen, .reads (fun _ _ => rfl) ?_⟩
    dsimp only
    rw [hknown]
    exact .log_bind (.pure _ _)
  · cases hp : m.which "pipenv" with
    | none =>
      refine ⟨_, _, _, .unasked hunknown hp, .reads (fun _ _ => rfl) ?_⟩
      dsimp only
      rw [hknown]
      unfold askPipenv
      refine .reads (fun _ _ => rfl) ?_
      rw [hp]
      exact .pure _ _
    | some program =>
      refine ⟨_, _, _, .asked hunknown hp, .reads (fun _ _ => rfl) ?_⟩
      dsimp only
      rw [hknown]
      exact askPipenv_comes hp root

namespace Venv.Chosen

variable {configured venv : Option Path} {root : Path} {asked : List Command} {m₁ : Machine}

theorem tried_eq (h : Chosen configured root m venv asked m₁) : m₁.tried = m.tried ++ asked := by
  cases h with
  | asked => exact tried_launch _ _ _
  | _ => exact (List.append_nil _).symm

/-- Nobody is asked for what is known. -/
theorem unknown_of_asked (h : Chosen configured root m venv asked m₁) (ha : asked ≠ []) :
    Unknown configured m := by
  cases h with
  | asked h => exact h
  | _ => exact absurd rfl ha

end Venv.Chosen

end Environment

section Place

variable {m : Machine} {v p : Path}

theorem Conan.inVenv_iff : InVenv m v p ↔ m.isDirectory v = true ∧
    [(v.join ⟨"bin"⟩).join ⟨"conan"⟩, (v.join ⟨"Scripts"⟩).join ⟨"conan.exe"⟩].find? m.isFile =
      some p := by
  rw [List.find?_cons, List.find?_cons, List.find?_nil]
  constructor
  · intro h
    cases h with
    | bin hdir h => exact ⟨hdir, by rw [h]⟩
    | scripts hdir hbin h => exact ⟨hdir, by rw [hbin, h]⟩
  · rintro ⟨hdir, h⟩
    split at h
    · rename_i hbin
      exact Option.some.inj h ▸ .bin hdir hbin
    · rename_i hbin
      split at h
      · rename_i hscripts
        exact Option.some.inj h ▸ .scripts hdir hbin hscripts
      · cases h

/-- What is in an environment is asked for its version, and that is all there is to it. -/
theorem findConan_comes (m : Machine) (v : Path) :
    (∃ p r, Conan.InVenv m v p ∧ Tool.Asked m p Tool.conanVersion r ∧
        (findConan v).Comes m (r.map some) ((launch (Tool.query p) false).run m).2) ∨
      (∀ p, ¬ Conan.InVenv m v p) ∧ (findConan v).Comes m (.ok none) m := by
  simp only [Conan.inVenv_iff]
  unfold findConan
  cases hdir : m.isDirectory v with
  | false =>
    refine .inr ⟨fun p h => Bool.false_ne_true h.1, .reads
      (fun _ _ => by rw [Machine.isDirectory_recorded, Machine.isFile_recorded]) ?_⟩
    rw [hdir]
    exact .log_bind (.pure _ _)
  | true =>
    cases hfind : [(v.join ⟨"bin"⟩).join ⟨"conan"⟩,
        (v.join ⟨"Scripts"⟩).join ⟨"conan.exe"⟩].find? m.isFile with
    | none =>
      refine .inr ⟨nofun, .reads
        (fun _ _ => by rw [Machine.isDirectory_recorded, Machine.isFile_recorded]) ?_⟩
      dsimp only
      rw [hdir, hfind]
      exact .log_bind (.pure _ _)
    | some p =>
      obtain ⟨r, hasked, hcomes⟩ := Tool.probe_comes m p Tool.conanVersion
      refine .inl ⟨p, r, ⟨rfl, rfl⟩, hasked, .reads
        (fun _ _ => by rw [Machine.isDirectory_recorded, Machine.isFile_recorded]) ?_⟩
      dsimp only
      rw [hdir, hfind]
      cases r with
      | error f => exact .bind_error hcomes
      | ok tool => exact .bind hcomes (.log_bind (.pure _ _))

/-- The end of the search, on `PATH`. -/
def conanOnPath (venv : Option Path) : Action Tool := do
  match (← get).which "conan" with
  | some path =>
    let tool ← Tool.probe path Tool.conanVersion
    log .info .conan ("using conan " ++ tool.version ++ " from PATH")
    return tool
  | none => Action.failWith (.toolMissing "conan" (searchedForConan venv))

/-- The rest of the search, once the environment is known. -/
def conanFor (venv : Option Path) : Action Tool := do
  let inVenv ← match venv with
    | some v => findConan v
    | none => pure none
  match inVenv with
  | some tool => return tool
  | none => conanOnPath venv

theorem resolveConan_eq (plan : Plan) :
    resolveConan plan = (liftM (findVenv plan.venv plan.root) : Action _) >>= conanFor := rfl

/-- What the search for the package manager comes to: there is one place that it is taken from, and
asking there decides, or there is none. -/
def Conan.Settled (m : Machine) (venv : Option Path) (x : Action Tool) (m₀ : Machine) : Prop :=
  (∃ p r, Place m venv (some p) ∧ Tool.Asked m p Tool.conanVersion r ∧
      x.Comes m₀ r ((launch (Tool.query p) false).run m).2) ∨
    Place m venv none ∧
      x.Comes m₀ (.error (.of (.toolMissing "conan" (searchedForConan venv)))) m

theorem Conan.Settled.bind {α : Type} {x : Action α} {f : α → Action Tool} {a : α}
    {venv : Option Path} {m₀ m₁ : Machine} (hx : x.Comes m₀ (.ok a) m₁)
    (h : Settled m venv (f a) m₁) : Settled m venv (x >>= f) m₀ := by
  rcases h with ⟨p, r, hplace, hasked, hcomes⟩ | ⟨hplace, hcomes⟩
  · exact .inl ⟨p, r, hplace, hasked, .bind hx hcomes⟩
  · exact .inr ⟨hplace, .bind hx hcomes⟩

theorem conanOnPath_settled {venv : Option Path}
    (h : ∀ v, venv = some v → ∀ p, ¬ Conan.InVenv m v p) :
    Conan.Settled m venv (conanOnPath venv) m := by
  have hplace : Conan.Place m venv (m.which "conan") := .path h
  unfold conanOnPath
  cases hwhich : m.which "conan" with
  | none =>
    refine .inr ⟨hwhich ▸ hplace, .reads (fun _ _ => rfl) ?_⟩
    rw [hwhich]
    exact .failWith _ _
  | some p =>
    obtain ⟨r, hasked, hcomes⟩ := Tool.probe_comes m p Tool.conanVersion
    refine .inl ⟨p, r, hwhich ▸ hplace, hasked, .reads (fun _ _ => rfl) ?_⟩
    rw [hwhich]
    cases r with
    | error f => exact .bind_error hcomes
    | ok tool => exact .bind hcomes (.log_bind (.pure _ _))

theorem conanFor_settled (venv : Option Path) (m : Machine) :
    Conan.Settled m venv (conanFor venv) m := by
  unfold conanFor
  cases venv with
  | none => exact .bind (.pure none m) (conanOnPath_settled nofun)
  | some v =>
    rcases findConan_comes m v with ⟨p, r, hin, hasked, hcomes⟩ | ⟨hnone, hcomes⟩
    · refine .inl ⟨p, r, .venv rfl hin, hasked, ?_⟩
      cases r with
      | error f => exact .bind_error hcomes
      | ok tool => exact .bind hcomes (.pure _ _)
    · exact .bind hcomes (conanOnPath_settled fun _ h => Option.some.inj h ▸ hnone)

end Place

/-- A tool that was found and asked is never told to be missing. -/
theorem Tool.Asked.cause_ne {m : Machine} {p : Path} {f : Failure}
    (h : Asked m p conanVersion (.error f)) (tool searched : String) :
    f.cause ≠ .toolMissing tool searched := by
  cases h with
  | refused => exact nofun
  | failed => exact nofun
  | unread _ _ hread =>
    rw [conanVersion, version?] at hread
    split at hread <;> cases hread
    exact nofun

/-- A run commits to the first package manager that it finds. Nobody is asked for an environment if
one is configured or active; with the environment that the run settles on there is one place at
most that the package manager is taken from, and beyond `pipenv` that place alone is asked. What it
answers is what the run comes to, be it a failure, and a tool is missing exactly if there is no such
place. -/
theorem resolveConan_commits (plan : Plan) (m : Machine) :
    let r := (resolveConan plan).run.run m
    ∃ venv asked m₁ place, Venv.Chosen plan.venv plan.root m venv asked m₁ ∧
      Conan.Place m₁ venv place ∧ (asked ≠ [] → Venv.Unknown plan.venv m) ∧
      r.2.tried = m.tried ++ asked ++ (place.map Tool.query).toList ∧
      (∀ p, place = some p → Tool.Asked m₁ p Tool.conanVersion r.1) ∧
      (place = none → r.1 = .error (.of (.toolMissing "conan" (searchedForConan venv)))) ∧
      ((∃ f tool searched, r.1 = .error f ∧ f.cause = .toolMissing tool searched) ↔
        place = none) := by
  intro r
  obtain ⟨venv, asked, m₁, hchosen, hfind⟩ := findVenv_comes plan.venv plan.root m
  have hsettled : Conan.Settled m₁ venv (resolveConan plan) m := by
    rw [resolveConan_eq]
    exact .bind (.lift hfind) (conanFor_settled venv m₁)
  rcases hsettled with ⟨p, r', hplace, hasked, hcomes⟩ | ⟨hplace, hcomes⟩
  · obtain ⟨hr, hlike⟩ : r.1 = r' ∧ r.2.Like _ := hcomes.run
    refine ⟨venv, asked, m₁, some p, hchosen, hplace, hchosen.unknown_of_asked, ?_, ?_, nofun, ?_⟩
    · rw [hlike.tried_eq, tried_launch, hchosen.tried_eq]
      rfl
    · rintro _ ⟨⟩
      exact hr ▸ hasked
    · refine iff_of_false ?_ nofun
      rintro ⟨f, tool, searched, hf, hcause⟩
      rw [← hr, hf] at hasked
      exact hasked.cause_ne tool searched hcause
  · obtain ⟨hr, hlike⟩ : r.1 = _ ∧ r.2.Like m₁ := hcomes.run
    refine ⟨venv, asked, m₁, none, hchosen, hplace, hchosen.unknown_of_asked, ?_, nofun,
      fun _ => hr, iff_of_true ⟨_, _, _, hr, rfl⟩ rfl⟩
    rw [hlike.tried_eq, hchosen.tried_eq]
    exact (List.append_nil _).symm

/-- The package manager of an environment that is configured is the only one that is asked, and it
is taken, though there is another one on `PATH`. -/
theorem resolveConan_commits_in_venv :
    let project : Project :=
      { root := ⟨"/p"⟩, settings := { venv := some ⟨"/v"⟩ }, home := ⟨"/"⟩ }
    let plan := Plan.ofProject project {}
    let m : Machine := {
      files := { entries := [(["v"], .directory), (["v", "bin"], .directory),
        (["v", "bin", "conan"], .file .empty 0o755), (["bin"], .directory),
        (["bin", "conan"], .file .empty 0o755)] }
      env := { vars := [("PATH", "/bin")] }
      cwd := []
      programs := fun fs _ => .ok { files := fs, stdout := "Conan version 2.3.0".toUTF8 } }
    let r := (resolveConan plan).run.run m
    r.1.toOption = some ⟨⟨"/v/bin/conan"⟩, "2.3.0"⟩ ∧
      r.2.tried = [Tool.query ⟨"/v/bin/conan"⟩] := by
  intro project plan m r
  have hbin : m.isFile ⟨"/v/bin/conan"⟩ = true := by decide +kernel
  have hpath : ((Path.mk "/v").join ⟨"bin"⟩).join ⟨"conan"⟩ = ⟨"/v/bin/conan"⟩ := by
    decide +kernel
  obtain ⟨venv, asked, m₁, place, hchosen, hplace, -, htried, hasked, -⟩ :=
    resolveConan_commits plan m
  obtain ⟨rfl, rfl, rfl⟩ : venv = some ⟨"/v"⟩ ∧ asked = [] ∧ m₁ = m := by
    have hconfigured : plan.venv = some ⟨"/v"⟩ := by decide +kernel
    rw [hconfigured] at hchosen
    cases hchosen with
    | configured h => exact ⟨h.symm, rfl, rfl⟩
    | active h => cases h
    | unasked h => cases h.1
    | asked h => cases h.1
  obtain rfl : place = some ⟨"/v/bin/conan"⟩ := by
    have hin : Conan.InVenv m ⟨"/v"⟩ (((Path.mk "/v").join ⟨"bin"⟩).join ⟨"conan"⟩) :=
      .bin (by decide +kernel) (hpath ▸ hbin)
    cases hplace with
    | venv hv h =>
      cases hv
      cases h with
      | bin => rw [hpath]
      | scripts _ hmissing =>
        rw [hpath, hbin] at hmissing
        cases hmissing
    | path h => exact absurd hin (h _ rfl _)
  exact ⟨by decide +kernel, htried⟩

end ConanPipeline
