import ConanPipeline.Pipeline.Steps
import ConanPipeline.Proofs.Machine.Action
import ConanPipeline.Transcript

/-! A pipeline that is asked for one thing after the other. Whatever it was asked for, its steps are
the stable sort of those registered (`isStableSort_foldl`), its plan is the last one set up
(`plan_foldl`), and a run goes through the steps as far as the first that fails
(`isRun_runSteps`). -/

namespace ConanPipeline.Pipeline

/-- What a pipeline can be asked for. -/
inductive Request where
  | register (s : Step)
  | setup (plan : Plan)
  | run
  | setupAndRun (plan : Plan)

namespace Request

/-- The step that a request registers. -/
def step? : Request → Option Step
  | register s => some s
  | _ => none

/-- The plan that a request sets up. -/
def plan? : Request → Option Plan
  | setup plan | setupAndRun plan => some plan
  | _ => none

end Request

/-- The pipeline after a request, and the result of the run if one was asked for. -/
def serve (console : Console) (p : Pipeline) :
    Request → Effect (Pipeline × Option (Except Failure Unit))
  | .register s => return (p.register s, none)
  | .setup plan => return (p.setup plan, none)
  | .run => do return (p, some (← (p.run console).run))
  | .setupAndRun plan => do return (p.setup plan, some (← ((p.setup plan).run console).run))

/-- The pipeline after some requests, served one after the other. -/
def serveAll (console : Console) : Pipeline → List Request → Effect Pipeline
  | p, [] => return p
  | p, r :: rs => do
    let (p, _) ← serve console p r
    serveAll console p rs

/-- What a request makes of a pipeline. -/
def after (p : Pipeline) : Request → Pipeline
  | .register s => p.register s
  | .setup plan | .setupAndRun plan => p.setup plan
  | .run => p

/-- The steps that some requests register, in their order. -/
def registered (rs : List Request) : List Step := rs.filterMap Request.step?

/-- The plan that some requests leave set up. -/
def lastPlan (rs : List Request) : Option Plan := (rs.filterMap Request.plan?).getLast?

/-- `us` has the steps of `ts` by their kinds, those of one kind in the order of `ts`. -/
structure IsStableSort (ts us : List Step) : Prop where
  perm : us.Perm ts
  sorted : Sorted us
  stable : ∀ k, us.filter (·.kind = k) = ts.filter (·.kind = k)

section Order

variable {s : Step} {ts us vs : List Step}

theorem rank_inj {k k' : StepKind} (h : k.rank = k'.rank) : k = k' := by
  cases k <;> cases k' <;> first | rfl | exact absurd h (by decide)

theorem filter_insert (h : Sorted ts) (k : StepKind) :
    (insert s ts).filter (·.kind = k) = (ts ++ [s]).filter (·.kind = k) := by
  induction ts with
  | nil => rfl
  | cons t ts ih =>
    obtain ⟨ht, hts⟩ := List.pairwise_cons.1 h
    rw [insert]
    split
    · rename_i hlt
      by_cases hk : s.kind = k
      · -- the steps behind the new one are of later kinds
        have hlater : ∀ u ∈ t :: ts, ¬ decide (u.kind = k) = true := by
          intro u hu hku
          have hle : t.kind.rank ≤ u.kind.rank := by
            rcases List.mem_cons.1 hu with rfl | hu
            · exact Nat.le_refl _
            · exact ht u hu
          rw [of_decide_eq_true hku, ← hk] at hle
          omega
        rw [List.filter_append, List.filter_cons_of_pos (by simp [hk]),
          List.filter_eq_nil_iff.2 hlater]
        simp [hk]
      · rw [List.filter_append, List.filter_cons_of_neg (by simp [hk])]
        simp [hk]
    · rw [List.filter_cons, List.cons_append, List.filter_cons, ih hts]

theorem IsStableSort.register (h : IsStableSort ts us) (s : Step) :
    IsStableSort (ts ++ [s]) (insert s us) := by
  refine ⟨?_, insert_sorted h.sorted, fun k => ?_⟩
  · exact ((insert_perm s us).trans (h.perm.cons s)).trans (List.perm_append_singleton s ts).symm
  · rw [filter_insert h.sorted, List.filter_append, List.filter_append, h.stable]

theorem mem_of_stable (h : ∀ k, us.filter (·.kind = k) = vs.filter (·.kind = k)) (hs : s ∈ us) :
    s ∈ vs := by
  have hf : s ∈ us.filter (·.kind = s.kind) := by simp [hs]
  rw [h] at hf
  exact (List.mem_filter.1 hf).1

/-- A sorted list is known by its steps of each kind. -/
theorem eq_of_stable (hu : Sorted us) (hv : Sorted vs)
    (h : ∀ k, us.filter (·.kind = k) = vs.filter (·.kind = k)) : us = vs := by
  induction us generalizing vs with
  | nil =>
    refine (List.eq_nil_iff_forall_not_mem.2 fun s hs => ?_).symm
    exact absurd (mem_of_stable (fun k => (h k).symm) hs) (by simp)
  | cons s us ih =>
    cases vs with
    | nil => exact absurd (mem_of_stable h (List.mem_cons_self ..)) (by simp)
    | cons t vs =>
      obtain ⟨hs, hus⟩ := List.pairwise_cons.1 hu
      obtain ⟨ht, hvs⟩ := List.pairwise_cons.1 hv
      -- each head stands in the other list, so neither kind comes before the other
      have hst : s.kind.rank ≤ t.kind.rank := by
        rcases List.mem_cons.1 (mem_of_stable (fun k => (h k).symm) (List.mem_cons_self ..))
          with rfl | hm
        · exact Nat.le_refl _
        · exact hs t hm
      have hts : t.kind.rank ≤ s.kind.rank := by
        rcases List.mem_cons.1 (mem_of_stable h (List.mem_cons_self ..)) with rfl | hm
        · exact Nat.le_refl _
        · exact ht s hm
      have hkind : s.kind = t.kind := rank_inj (Nat.le_antisymm hst hts)
      have hhead := h t.kind
      rw [List.filter_cons_of_pos (by simp [hkind]), List.filter_cons_of_pos (by simp),
        List.cons.injEq] at hhead
      rw [hhead.1, ih hus hvs fun k => ?_]
      have hk := h k
      rw [List.filter_cons, List.filter_cons, hhead.1] at hk
      by_cases htk : t.kind = k <;> simpa [htk] using hk

theorem IsStableSort.eq (hu : IsStableSort ts us) (hv : IsStableSort ts vs) : us = vs :=
  eq_of_stable hu.sorted hv.sorted fun k => (hu.stable k).trans (hv.stable k).symm

end Order

/-- The machine with one more entry in its record. -/
def heard (m : Machine) (e : Event) : Machine := { m with events := m.events ++ [e] }

/-- What is logged when a run begins. -/
def runEvent (plan : Plan) : Event :=
  .logged .debug .pipeline
    ("running pipeline for " ++ plan.projectName ++ " (" ++ plan.buildType.name ++ ")")

/-- What is logged when a step's turn has come. -/
def stepEvent (s : Step) : Event := .logged .debug .pipeline ("step " ++ s.kind.name)

/-- The failure of a run that no plan was set up for. -/
def notSetUp : Failure := .of (.badArgument "builder has not been set up")

/-- Steps run one after the other by a plan, none of which fails. -/
inductive Passes (console : Console) (plan : Plan) : List Step → Machine → Machine → Prop
  | nil (m : Machine) : Passes console plan [] m m
  | cons {s : Step} {ss : List Step} {m m₁ m₂ : Machine}
      (hs : (s.run console plan).run.run (heard m (stepEvent s)) = (.ok (), m₁))
      (hss : Passes console plan ss m₁ m₂) : Passes console plan (s :: ss) m m₂

/-- A run of steps by a plan: all of them pass, or those before one that fails do, and the run ends
with the failure of that one. -/
inductive IsRun (console : Console) (plan : Plan) :
    List Step → Machine → Except Failure Unit → Machine → Prop
  | passed {ss : List Step} {m m' : Machine} (h : Passes console plan ss m m') :
      IsRun console plan ss m (.ok ()) m'
  | failed {before after : List Step} {s : Step} {m m₁ m' : Machine} {f : Failure}
      (hb : Passes console plan before m m₁)
      (hs : (s.run console plan).run.run (heard m₁ (stepEvent s)) = (.error f, m')) :
      IsRun console plan (before ++ s :: after) m (.error f) m'

section Run

variable {console : Console} {plan : Plan} {s : Step} {ss : List Step} {m m₁ m' : Machine}
  {r : Except Failure Unit}

theorem IsRun.cons (hs : (s.run console plan).run.run (heard m (stepEvent s)) = (.ok (), m₁))
    (hss : IsRun console plan ss m₁ r m') : IsRun console plan (s :: ss) m r m' := by
  cases hss with
  | passed h => exact .passed (.cons hs h)
  | failed hb hf => exact .failed (.cons hs hb) hf

theorem isRun_runSteps (console : Console) (plan : Plan) (ss : List Step) (m : Machine) :
    ∃ r m', (runSteps console plan ss).run.run m = (r, m') ∧ IsRun console plan ss m r m' := by
  induction ss generalizing m with
  | nil => exact ⟨.ok (), m, rfl, .passed (.nil m)⟩
  | cons s ss ih =>
    cases hs : (s.run console plan).run.run (heard m (stepEvent s)) with
    | mk result m₁ =>
      cases result with
      | error f =>
        have hrun : (runSteps console plan (s :: ss)).run.run m = (.error f, m₁) :=
          Action.run_bind_of_error (f := fun _ => runSteps console plan ss) hs
        exact ⟨.error f, m₁, hrun, .failed (.nil m) hs⟩
      | ok u =>
        have hrun : (runSteps console plan (s :: ss)).run.run m =
            (runSteps console plan ss).run.run m₁ :=
          Action.run_bind_of_ok (f := fun _ => runSteps console plan ss) hs
        obtain ⟨r, m', he, hr⟩ := ih m₁
        exact ⟨r, m', hrun.trans he, .cons hs hr⟩

theorem run_of_plan_none {p : Pipeline} (h : p.plan = none) (m : Machine) :
    (p.run console).run.run m = (.error notSetUp, m) := by
  rw [Pipeline.run, h]
  rfl

theorem isRun_run {p : Pipeline} (h : p.plan = some plan) (m : Machine) :
    ∃ r m', (p.run console).run.run m = (r, m') ∧
      IsRun console plan p.steps (heard m (runEvent plan)) r m' := by
  obtain ⟨r, m', he, hr⟩ := isRun_runSteps console plan p.steps (heard m (runEvent plan))
  refine ⟨r, m', Eq.trans ?_ he, hr⟩
  rw [Pipeline.run, h]
  rfl

end Run

section History

variable {console : Console} {start : Pipeline}

/-- Whatever a run does, the pipeline is what the request makes of it. -/
theorem serve_fst (console : Console) (p : Pipeline) (r : Request) (m : Machine) :
    ((serve console p r).run m).1.1 = p.after r := by
  cases r <;> rfl

theorem serveAll_fst (console : Console) (p : Pipeline) (rs : List Request) (m : Machine) :
    ((serveAll console p rs).run m).1 = rs.foldl after p := by
  induction rs generalizing p m with
  | nil => rfl
  | cons r rs ih =>
    rw [List.foldl_cons, ← serve_fst console p r m]
    exact ih _ _

theorem serve_run {p : Pipeline} {m m' : Machine} {r : Except Failure Unit}
    (h : (p.run console).run.run m = (r, m')) :
    (serve console p .run).run m = ((p, some r), m') :=
  congrArg (fun q : Except Failure Unit × Machine => ((p, some q.1), q.2)) h

theorem serve_setupAndRun {p : Pipeline} {plan : Plan} {m m' : Machine} {r : Except Failure Unit}
    (h : ((p.setup plan).run console).run.run m = (r, m')) :
    (serve console p (.setupAndRun plan)).run m = ((p.setup plan, some r), m') :=
  congrArg (fun q : Except Failure Unit × Machine => ((p.setup plan, some q.1), q.2)) h

theorem isStableSort_after {ts : List Step} {p : Pipeline} (h : IsStableSort ts p.steps)
    (r : Request) : IsStableSort (ts ++ registered [r]) (p.after r).steps := by
  cases r with
  | register s => exact h.register s
  | setup | run | setupAndRun =>
    change IsStableSort (ts ++ []) p.steps
    rwa [List.append_nil]

theorem isStableSort_foldl {ts : List Step} {p : Pipeline} (h : IsStableSort ts p.steps)
    (rs : List Request) : IsStableSort (ts ++ registered rs) (rs.foldl after p).steps := by
  induction rs generalizing ts p with
  | nil => simpa [registered] using h
  | cons r rs ih =>
    have hr := ih (isStableSort_after h r)
    rwa [List.append_assoc, registered, registered, ← List.filterMap_append] at hr

theorem plan_after (p : Pipeline) (r : Request) : (p.after r).plan = r.plan?.or p.plan := by
  cases r <;> rfl

theorem lastPlan_cons (r : Request) (rs : List Request) :
    lastPlan (r :: rs) = (lastPlan rs).or r.plan? := by
  rw [lastPlan, lastPlan, List.filterMap_cons]
  cases r.plan? with
  | none => rw [Option.or_none]
  | some plan => cases h : (rs.filterMap Request.plan?).getLast? <;> simp [List.getLast?_cons, h]

theorem plan_foldl (p : Pipeline) (rs : List Request) :
    (rs.foldl after p).plan = (lastPlan rs).or p.plan := by
  induction rs generalizing p with
  | nil => rfl
  | cons r rs ih => rw [List.foldl_cons, ih, plan_after, lastPlan_cons, Option.or_assoc]

theorem isStableSort_start (h : start = {} ∨ start = standard) :
    IsStableSort start.steps start.steps := by
  refine ⟨.refl _, ?_, fun _ => rfl⟩
  rcases h with rfl | rfl
  · exact .nil
  · exact register_sorted (register_sorted (register_sorted (register_sorted .nil)))

theorem plan_start (h : start = {} ∨ start = standard) : start.plan = none := by
  rcases h with rfl | rfl <;> rfl

end History

/-- Whatever a pipeline was asked for, its steps are the stable sort of all that it was given, and
its plan is the last one. The next run fails without one, and else runs those steps by that plan up
to the first that fails. No run changes the pipeline. -/
theorem serve_after_requests (console : Console) (start : Pipeline)
    (hstart : start = {} ∨ start = standard) (rs : List Request) (m : Machine) :
    ∃ p m', (serveAll console start rs).run m = (p, m') ∧
      (∀ ts, IsStableSort (start.steps ++ registered rs) ts ↔ ts = p.steps) ∧
      p.plan = lastPlan rs ∧
      (lastPlan rs = none →
        (serve console p .run).run m' = ((p, some (.error notSetUp)), m')) ∧
      (∀ plan, lastPlan rs = some plan →
        ∃ r m'', (serve console p .run).run m' = ((p, some r), m'') ∧
          IsRun console plan p.steps (heard m' (runEvent plan)) r m'') ∧
      ∀ plan, ∃ r m'', (serve console p (.setupAndRun plan)).run m' =
          ((p.setup plan, some r), m'') ∧
        IsRun console plan p.steps (heard m' (runEvent plan)) r m'' := by
  have hsort := isStableSort_foldl (isStableSort_start hstart) rs
  have hplan := plan_foldl start rs
  rw [plan_start hstart, Option.or_none] at hplan
  rw [← serveAll_fst console start rs m] at hsort hplan
  rcases hserve : (serveAll console start rs).run m with ⟨p, m'⟩
  rw [hserve] at hsort hplan
  refine ⟨p, m', rfl, fun ts => ⟨fun h => h.eq hsort, fun h => h ▸ hsort⟩, hplan, fun h => ?_,
    fun plan h => ?_, fun plan => ?_⟩
  · exact serve_run (run_of_plan_none (hplan.trans h) m')
  · obtain ⟨r, m'', he, hr⟩ := isRun_run (hplan.trans h) m'
    exact ⟨r, m'', serve_run he, hr⟩
  · obtain ⟨r, m'', he, hr⟩ := isRun_run (p := p.setup plan) rfl m'
    exact ⟨r, m'', serve_setupAndRun he, hr⟩

/-- Two steps of one kind among others, registered around the plan, one of the others failing. -/
theorem serve_after_out_of_order :
    let console : Console := ⟨.normal, false⟩
    let plan : Plan := ⟨{}, "p", ⟨"/p"⟩, ⟨"/p/build"⟩, ⟨"/p/dist"⟩, ⟨"/p/.conan2"⟩, none⟩
    let m : Machine := ⟨.empty, ⟨[], "/"⟩, [], fun _ _ => .error .noEntry, 0, []⟩
    let test : Step := ⟨.test, fun _ _ => pure ()⟩
    let pack : Step := ⟨.pack, fun _ _ => Action.failWith .notUtf8⟩
    let build (s : String) : Step := ⟨.build, fun _ _ => (record (.printed s) : Effect Unit)⟩
    let rs : List Request := [.register test, .register pack, .register (build "a"),
      .setup plan, .register (build "b")]
    let p : Pipeline := ⟨[build "a", build "b", pack, test], some plan⟩
    (serveAll console {} rs).run m = (p, m) ∧
      IsStableSort (registered rs) p.steps ∧
      ∃ m'', (serve console p .run).run m = ((p, some (.error (.of .notUtf8))), m'') ∧
        IsRun console plan p.steps (heard m (runEvent plan)) (.error (.of .notUtf8)) m'' ∧
        Transcript.collect Transcript.stdout? m''.events = "ab" := by
  intro console plan m test pack build rs p
  obtain ⟨q, m', hserve, hsteps, -, -, hrun, -⟩ :=
    serve_after_requests console {} (.inl rfl) rs m
  have hp : (serveAll console {} rs).run m = (p, m) := rfl
  obtain ⟨rfl, rfl⟩ := Prod.mk.inj (hp.symm.trans hserve)
  obtain ⟨r, m'', he, hr⟩ := hrun plan rfl
  obtain ⟨hresult, rfl⟩ := Prod.mk.inj he
  obtain rfl : .error (.of .notUtf8) = r := Option.some.inj (Prod.mk.inj hresult).2
  exact ⟨hp, (hsteps p.steps).2 rfl, _, rfl, hr, rfl⟩

end ConanPipeline.Pipeline
