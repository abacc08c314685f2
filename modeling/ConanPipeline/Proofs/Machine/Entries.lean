import ConanPipeline.Proofs.Machine.Launch

/-! What effects put on record. An effect leaves the machine's variables and what is on record as
they are, and what it adds is of some kind (`Effect.Adds`), if all its parts do so. -/

namespace ConanPipeline

/-- The effect leaves the variables and the record of a machine as they are but for entries `P` that
it adds, and its value has `Q`. -/
def Effect.Adds {α : Type} (P : Environment → Event → Prop) (x : Effect α) (Q : α → Prop) : Prop :=
  ∀ m : Machine, (x.run m).2.env = m.env ∧
    (∃ es, (x.run m).2.events = m.events ++ es ∧ ∀ e ∈ es, P m.env e) ∧ Q (x.run m).1

/-- The same of an action. What it gives has `Q` if it succeeds. -/
def Action.Adds {α : Type} (P : Environment → Event → Prop) (x : Action α) (Q : α → Prop) : Prop :=
  Effect.Adds P x.run fun r => ∀ a, r = .ok a → Q a

variable {α β : Type} {P : Environment → Event → Prop}

namespace Effect.Adds

variable {x : Effect α} {f : α → Effect β} {Q : α → Prop} {R : β → Prop}

theorem pure {a : α} (h : Q a) : Effect.Adds P (pure a) Q := fun _ =>
  ⟨rfl, ⟨[], (List.append_nil _).symm, fun _ he => absurd he List.not_mem_nil⟩, h⟩

theorem bind (hx : Effect.Adds P x Q) (hf : ∀ a, Q a → Effect.Adds P (f a) R) :
    Effect.Adds P (x >>= f) R := by
  intro m
  obtain ⟨henv, ⟨es, hes, hP⟩, hQ⟩ := hx m
  obtain ⟨henv', ⟨es', hes', hP'⟩, hR⟩ := hf _ hQ (x.run m).2
  rw [Effect.run_bind]
  refine ⟨henv'.trans henv, ⟨es ++ es', ?_, fun e he => ?_⟩, hR⟩
  · rw [hes', hes, List.append_assoc]
  · rcases List.mem_append.1 he with he | he
    · exact hP e he
    · exact henv ▸ hP' e he

theorem reads {f : Machine → Effect β} (h : ∀ m, Effect.Adds P (f m) R) :
    Effect.Adds P (get >>= f) R := fun m => h m m

theorem record {e : Event} (h : ∀ env, P env e) : Effect.Adds P (record e) fun _ => True :=
  fun m => ⟨rfl, ⟨[e], rfl, fun _ he => List.mem_singleton.1 he ▸ h m.env⟩, trivial⟩

end Effect.Adds

namespace Action.Adds

variable {x : Action α} {f : α → Action β} {Q : α → Prop} {R : β → Prop}

theorem pure {a : α} (h : Q a) : Action.Adds P (pure a) Q :=
  Effect.Adds.pure fun _ ha => Except.ok.inj ha ▸ h

theorem throw (e : Failure) : Action.Adds P (throw e) Q := Effect.Adds.pure fun _ ha => nomatch ha

theorem failWith (c : Cause) : Action.Adds P (Action.failWith c) Q := .throw _

theorem bind (hx : Action.Adds P x Q) (hf : ∀ a, Q a → Action.Adds P (f a) R) :
    Action.Adds P (x >>= f) R := by
  change Effect.Adds P (x.run >>= ExceptT.bindCont f) _
  refine Effect.Adds.bind hx fun r hr => ?_
  cases r with
  | ok a => exact hf a (hr a rfl)
  | error e => exact .pure fun _ ha => nomatch ha

theorem failWith_bind (c : Cause) : Action.Adds P (Action.failWith c >>= f) R :=
  .bind (Q := fun _ => False) (.failWith c) fun _ h => h.elim

theorem lift {x : Effect α} (h : Effect.Adds P x Q) : Action.Adds P (liftM x) Q := by
  have hrun (a : α) (ha : Q a) : Effect.Adds P (Pure.pure (.ok a) : Effect (Except Failure α))
      fun r => ∀ b, r = .ok b → Q b := .pure fun _ hb => Except.ok.inj hb ▸ ha
  exact Effect.Adds.bind h hrun

theorem reads {f : Machine → Action β} (h : ∀ m, Action.Adds P (f m) R) :
    Action.Adds P (get >>= f) R := Effect.Adds.reads (f := f) h

theorem attempt (h : Action.Adds P x Q) :
    Action.Adds P (Action.attempt x) fun r => ∀ a, r = .ok a → Q a := lift h

theorem during (h : Action.Adds P x Q) (a : Activity) : Action.Adds P (Action.during a x) Q := by
  rw [Action.Adds, Action.during, ExceptT.run_tryCatch]
  refine Effect.Adds.bind h fun r hr => ?_
  cases r with
  | ok b => exact .pure hr
  | error e => exact .pure fun _ hb => nomatch hb

theorem forM {l : List α} {f : α → Action Unit}
    (h : ∀ a ∈ l, Action.Adds P (f a) fun _ => True) : Action.Adds P (l.forM f) fun _ => True := by
  induction l with
  | nil => exact .pure trivial
  | cons a l ih =>
    rw [List.forall_mem_cons] at h
    rw [Action.forM_cons]
    exact .bind h.1 fun _ _ => ih h.2

theorem onFiles (f : FileSystem → Location → FileSystem.Attempt α) :
    Action.Adds P (onFiles f) fun _ => True := by
  intro m
  rw [Action.run_onFiles]
  exact ⟨rfl, ⟨[], (List.append_nil _).symm, fun _ he => absurd he List.not_mem_nil⟩,
    fun _ _ => trivial⟩

end Action.Adds

/-- A command that is tried adds the attempt and the calls that were put on record meanwhile. -/
theorem launch_adds {c : Command} {streamed : Bool}
    (hrefused : ∀ env e, P env (.ran c streamed (.error e)))
    (hran : ∀ env inv, inv.env = env.override c.vars → P env (.ran c streamed (.ok inv)))
    (hcalled : ∀ env call, P env (.called call)) :
    Effect.Adds P (launch c streamed) fun _ => True := by
  intro m
  cases h : m.launchOf c >>= Launch.start m.programs m.files with
  | error e =>
    rw [run_launch_of_error h]
    exact ⟨rfl, ⟨_, rfl, fun _ he => List.mem_singleton.1 he ▸ hrefused _ e⟩, trivial⟩
  | ok result =>
    obtain ⟨inv, out⟩ := result
    obtain ⟨r, hr, hstart⟩ := exists_of_bind_eq_ok h
    have henv : inv.env = m.env.override c.vars :=
      (Launch.started_of_start hstart).1.trans (Machine.env_of_launchOf hr)
    rw [run_launch_of_ok h]
    refine ⟨rfl, ⟨_, rfl, fun e he => ?_⟩, trivial⟩
    rcases List.mem_cons.1 he with rfl | he
    · exact hran _ inv henv
    · obtain ⟨call, -, rfl⟩ := List.mem_map.1 he
      exact hcalled _ call

end ConanPipeline
