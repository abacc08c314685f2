import ConanPipeline.Proofs.Machine.Launch
import ConanPipeline.Proofs.Pipeline.Agreement
import ConanPipeline.Proofs.Pipeline.Requests

/-! One run of the standard steps does what runs of their own for each of them do
(`build_in_turn`). A step looks at no flag but its own, so that run alone it does what it does
among the others (`standard_run_only`). The runs differ in the log lines of the pipeline itself
and in nothing else. -/

namespace ConanPipeline

/-- The kinds of the standard steps, in their order. -/
def StepKind.all : List StepKind := [clean, build, pack, test]

namespace Workflow

/-- Whether a step has been asked for. -/
def selects (w : Workflow) : StepKind → Bool
  | .clean => w.clean
  | .build => w.build
  | .pack => w.pack
  | .test => w.test

/-- The workflow with one step alone, the other flags as they are. -/
def only (w : Workflow) (k : StepKind) : Workflow where
  clean := k = .clean
  build := k = .build
  pack := k = .pack
  test := k = .test
  debug := w.debug
  verbose := w.verbose

theorem selects_only (w : Workflow) (k k' : StepKind) :
    (w.only k).selects k' = decide (k = k') := by
  cases k <;> cases k' <;> rfl

end Workflow

/-- The plan with one step alone. -/
def Plan.only (plan : Plan) (k : StepKind) : Plan := { plan with workflow := plan.workflow.only k }

/-- Runs the pipeline once for each step that a plan asks for, with that step alone. The first run
that fails ends it. -/
def buildInTurn (console : Console) (plan : Plan) : Action Unit :=
  (StepKind.all.filter plan.workflow.selects).forM fun k => build console (plan.only k)

/-- Whether an entry of the record is not the pipeline's own log. -/
def Event.ofSteps : Event → Bool
  | .logged _ .pipeline _ => false
  | _ => true

theorem Event.eq_logged_of_ofSteps {e : Event} (h : e.ofSteps = false) :
    ∃ level message, e = .logged level .pipeline message := by
  cases e with
  | logged level source message =>
    cases source with
    | pipeline => exact ⟨level, message, rfl⟩
    | _ => cases h
  | _ => cases h

namespace Step

variable {console : Console} {plan : Plan} {k : StepKind}

/-- The standard step of a kind. -/
def standard : StepKind → Step
  | .clean => clean
  | .build => build
  | .pack => pack
  | .test => test

theorem standard_agree (keep : Event → Bool) (console : Console) (plan : Plan) (k : StepKind) :
    Action.Agree keep ((standard k).run console plan) ((standard k).run console plan) := by
  have h : console.Alike keep console := .refl console
  cases k with
  | clean => exact clean_agree h plan
  | build => exact build_agree h plan
  | pack => exact pack_agree h plan
  | test => exact test_agree h plan

theorem standard_run_of_unselected (h : plan.workflow.selects k = false) :
    (standard k).run console plan = pure () := by
  cases k <;> exact if_neg (by simpa [Workflow.selects] using h)

/-- A step that is asked for reads no flag of another step. -/
theorem standard_run_only (h : plan.workflow.selects k = true) :
    (standard k).run console (plan.only k) = (standard k).run console plan := by
  -- behind its flag a step reads the paths and the build type, which are those of the whole plan
  cases k with
  | clean =>
    have hflag : plan.workflow.clean = true := h
    simp only [standard, clean, if_pos hflag]
    rfl
  | build =>
    have hflag : plan.workflow.build = true := h
    simp only [standard, build, if_pos hflag]
    rfl
  | pack =>
    have hflag : plan.workflow.pack = true := h
    simp only [standard, pack, if_pos hflag]
    rfl
  | test =>
    have hflag : plan.workflow.test = true := h
    simp only [standard, test, if_pos hflag]
    rfl

end Step

section Turns

variable {keep : Event → Bool} {console : Console} {plan : Plan}

theorem Pipeline.runSteps_agree (hkeep : ∀ message, keep (.logged .debug .pipeline message) = false)
    (ks : List StepKind) :
    Action.Agree keep (runSteps console plan (ks.map Step.standard))
      (ks.forM fun k => (Step.standard k).run console plan) := by
  induction ks with
  | nil => exact .pure _
  | cons k ks ih =>
    rw [List.map_cons, runSteps, Action.forM_cons]
    exact .record_left (hkeep _) (.bind (Step.standard_agree keep console plan k) fun _ => ih)

theorem build_agree (hkeep : ∀ message, keep (.logged .debug .pipeline message) = false)
    (plan : Plan) :
    Action.Agree keep (build console plan)
      (StepKind.all.forM fun k => (Step.standard k).run console plan) :=
  .record_left (hkeep _) (Pipeline.runSteps_agree hkeep StepKind.all)

/-- Passing over members that do nothing makes no difference. -/
theorem forM_filter_agree {α : Type} {p : α → Bool} {l : List α} {f g : α → Action Unit}
    (hf : ∀ a ∈ l, p a = true → Action.Agree keep (f a) (g a))
    (hg : ∀ a ∈ l, p a = false → g a = pure ()) :
    Action.Agree keep ((l.filter p).forM f) (l.forM g) := by
  induction l with
  | nil => exact .pure ()
  | cons a l ih =>
    rw [List.forall_mem_cons] at hf hg
    have htail := ih hf.2 hg.2
    cases ha : p a with
    | true =>
      rw [List.filter_cons_of_pos ha, Action.forM_cons, Action.forM_cons]
      exact .bind (hf.1 ha) fun _ => htail
    | false =>
      rw [List.filter_cons_of_neg (by simp [ha]), Action.forM_cons, hg.1 ha, pure_bind]
      exact htail

/-- A run with one step alone is a run of that step. -/
theorem build_only_agree (hkeep : ∀ message, keep (.logged .debug .pipeline message) = false)
    {k : StepKind} (h : plan.workflow.selects k = true) :
    Action.Agree keep (build console (plan.only k)) ((Step.standard k).run console plan) := by
  have hrun (k' : StepKind) : (Step.standard k').run console (plan.only k) =
      if k = k' then (Step.standard k).run console plan else pure () := by
    split
    · rename_i hk
      exact hk ▸ Step.standard_run_only h
    · rename_i hk
      exact Step.standard_run_of_unselected (by simp [Plan.only, Workflow.selects_only, hk])
  have hall : (StepKind.all.forM fun k' => (Step.standard k').run console (plan.only k)) =
      (Step.standard k).run console plan := by
    cases k <;> simp [StepKind.all, hrun]
  exact hall ▸ build_agree hkeep (plan.only k)

theorem buildInTurn_agree (hkeep : ∀ message, keep (.logged .debug .pipeline message) = false) :
    Action.Agree keep (buildInTurn console plan) (build console plan) := by
  have hsteps : Action.Agree keep (buildInTurn console plan)
      (StepKind.all.forM fun k => (Step.standard k).run console plan) :=
    forM_filter_agree (fun k _ h => build_only_agree hkeep h)
      fun k _ h => Step.standard_run_of_unselected h
  exact hsteps.trans (build_agree hkeep plan).symm

theorem Pipeline.runSteps_of_idle {ss : List Step} (h : ∀ s ∈ ss, s.run console plan = pure ())
    (m : Machine) : (runSteps console plan ss).run.run m =
      (.ok (), { m with events := m.events ++ ss.map stepEvent }) := by
  induction ss generalizing m with
  | nil => rw [List.map_nil, List.append_nil]; rfl
  | cons s ss ih =>
    rw [List.forall_mem_cons] at h
    have hstep : (runSteps console plan (s :: ss)).run.run m =
        (runSteps console plan ss).run.run (heard m (stepEvent s)) := by
      rw [runSteps, h.1]
      rfl
    rw [hstep, ih h.2, List.map_cons, heard, List.append_assoc, List.singleton_append]

/-- Without a step that is asked for, the pipeline's log is all that a run leaves. -/
theorem build_run_of_idle (h : plan.workflow.anyStep = false) (m : Machine) :
    (build console plan).run.run m = (.ok (), { m with
      events := m.events ++
        (Pipeline.runEvent plan :: Pipeline.standard.steps.map Pipeline.stepEvent) }) := by
  have hidle : ∀ s ∈ StepKind.all.map Step.standard, s.run console plan = pure () := by
    rw [List.forall_mem_map]
    intro k _
    refine Step.standard_run_of_unselected ?_
    simp only [Workflow.anyStep, Bool.or_eq_false_iff] at h
    cases k <;> simp [Workflow.selects, h]
  refine (Pipeline.runSteps_of_idle hidle (Pipeline.heard m (Pipeline.runEvent plan))).trans ?_
  rw [Pipeline.heard, List.append_assoc, List.singleton_append]
  rfl

/-- What is read off the entries that are kept is the same for records that look the same. -/
theorem filterMap_eq_of_view {γ : Type} {m m' : Machine} (h : m.view keep = m'.view keep)
    {f : Event → Option γ} (hf : ∀ e, keep e = false → f e = none) :
    m.events.filterMap f = m'.events.filterMap f := by
  have hevents : m.events.filter keep = m'.events.filter keep := congrArg Machine.events h
  rw [← filterMap_filter_keep hf, hevents, filterMap_filter_keep hf]

end Turns

/-- One run of the steps that a plan asks for ends as the runs of each by itself do: with the same
result, files and clock, and with the same record but for the log lines of the pipeline itself. So
the same commands were tried, the same calls put on record and the same lines shown. A run that
no step is asked of only writes such log lines. -/
theorem build_in_turn (console : Console) (plan : Plan) (m : Machine) :
    let once := (build console plan).run.run m
    let turns := (buildInTurn console plan).run.run m
    turns.1 = once.1 ∧
      turns.2.files = once.2.files ∧
      turns.2.view Event.ofSteps = once.2.view Event.ofSteps ∧
      turns.2.events.filterMap Event.attempt? = once.2.events.filterMap Event.attempt? ∧
      Transcript.calls turns.2.events = Transcript.calls once.2.events ∧
      (∀ style, Transcript.collect (Transcript.shown? style) turns.2.events =
        Transcript.collect (Transcript.shown? style) once.2.events) ∧
      ∀ debug verbose, ∃ es,
        (build console { plan with workflow := { debug, verbose } }).run.run m =
            (.ok (), { m with events := m.events ++ es }) ∧
          es.all (fun e => !e.ofSteps) = true := by
  intro once turns
  have hkeep (message : String) : Event.ofSteps (.logged .debug .pipeline message) = false := rfl
  obtain ⟨hresult, hview⟩ := buildInTurn_agree hkeep m m rfl
  have hleft {γ : Type} {f : Event → Option γ}
      (hf : ∀ level message, f (.logged level .pipeline message) = none) (e : Event)
      (he : e.ofSteps = false) : f e = none := by
    obtain ⟨level, message, rfl⟩ := Event.eq_logged_of_ofSteps he
    exact hf level message
  have hfiles : (turns.2.view Event.ofSteps).files = (once.2.view Event.ofSteps).files :=
    congrArg Machine.files hview
  refine ⟨hresult, hfiles, hview, ?_, ?_, fun style => ?_,
    fun debug verbose => ⟨_, build_run_of_idle rfl m, rfl⟩⟩
  · exact filterMap_eq_of_view hview (hleft fun _ _ => rfl)
  · exact filterMap_eq_of_view hview (hleft fun _ _ => rfl)
  · exact congrArg String.join (filterMap_eq_of_view hview (hleft fun _ _ => rfl))

end ConanPipeline
