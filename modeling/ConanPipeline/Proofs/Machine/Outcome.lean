import ConanPipeline.Proofs.Machine.Agreement

/-! What an effect comes to, lines of the log apart. From every machine that looks like `m` it gives
the same value and leaves a machine that looks the same (`Effect.Comes`), so a run is put together
from the runs of its parts, and a line of the log between them makes no difference. -/

namespace ConanPipeline

/-- A line of the log. -/
def Event.isLogged : Event → Bool
  | .logged .. => true
  | _ => false

/-- Two machines that differ in lines of the log at most. -/
def Machine.Like (m m' : Machine) : Prop :=
  m.view (fun e => !e.isLogged) = m'.view (fun e => !e.isLogged)

/-- The commands that have been tried, those included that could not be started. -/
def Machine.tried (m : Machine) : List Command := (m.events.filterMap Event.attempt?).map Prod.fst

/-- From whatever looks like `m` the effect comes to `a`, and to what looks like `m'`. -/
def Effect.Comes {α : Type} (x : Effect α) (m : Machine) (a : α) (m' : Machine) : Prop :=
  ∀ m₀ : Machine, m₀.Like m → (x.run m₀).1 = a ∧ (x.run m₀).2.Like m'

/-- The same of an action, which may come to a failure. -/
def Action.Comes {α : Type} (x : Action α) (m : Machine) (r : Except Failure α) (m' : Machine) :
    Prop := Effect.Comes x.run m r m'

variable {α β : Type} {m m' m'' : Machine}

section Likeness

theorem Machine.isFile_recorded (m : Machine) (es : List Event) :
    Machine.isFile { m with events := es } = m.isFile := rfl

theorem Machine.isDirectory_recorded (m : Machine) (es : List Event) :
    Machine.isDirectory { m with events := es } = m.isDirectory := rfl

theorem Machine.Like.tried_eq (h : m.Like m') : m.tried = m'.tried := by
  have hlog : ∀ e : Event, (!e.isLogged) = false → e.attempt? = none := by
    intro e he
    cases e <;> first | rfl | cases he
  have hevents : m.events.filter (fun e => !e.isLogged) = m'.events.filter fun e => !e.isLogged :=
    congrArg Machine.events h
  rw [tried, tried, ← filterMap_filter_keep hlog, hevents, filterMap_filter_keep hlog]

theorem tried_launch (c : Command) (streamed : Bool) (m : Machine) :
    ((launch c streamed).run m).2.tried = m.tried ++ [c] := by
  obtain ⟨started, calls, hevents⟩ := events_launch c streamed m
  have hcalls : (calls.map Event.called).filterMap Event.attempt? = [] := by
    rw [List.filterMap_map]
    exact List.filterMap_eq_nil_iff.2 fun _ _ => rfl
  rw [Machine.tried, Machine.tried, hevents, List.filterMap_append, List.map_append,
    List.filterMap_cons, Event.attempt?]
  dsimp only
  rw [hcalls]
  rfl

end Likeness

namespace Effect.Comes

variable {x : Effect α} {f : α → Effect β} {a : α} {b : β}

theorem run (h : x.Comes m a m') : (x.run m).1 = a ∧ (x.run m).2.Like m' := h m rfl

theorem pure (a : α) (m : Machine) : Effect.Comes (pure a) m a m := fun _ h => ⟨rfl, h⟩

theorem bind (hx : x.Comes m a m') (hf : (f a).Comes m' b m'') : (x >>= f).Comes m b m'' := by
  intro m₀ hm₀
  obtain ⟨rfl, hm'⟩ := hx m₀ hm₀
  exact hf _ hm'

theorem log (level : Level) (source : Source) (message : String) (m : Machine) :
    (log level source message).Comes m () m := by
  intro m₀ hm₀
  refine ⟨rfl, Eq.trans ?_ hm₀⟩
  exact (view_append m₀ [.logged level source message]).trans
    (congrArg (fun es => { m₀.view _ with events := es }) (List.append_nil _))

theorem log_bind {level : Level} {source : Source} {message : String} {f : Unit → Effect β}
    (h : (f ()).Comes m b m') : (ConanPipeline.log level source message >>= f).Comes m b m' :=
  .bind (log level source message m) h

/-- What is read of a machine is not what is on record. -/
theorem reads {f : Machine → Effect β} (hf : ∀ m es, f { m with events := es } = f m)
    (h : (f m).Comes m b m') : (get >>= f).Comes m b m' := by
  intro m₀ hm₀
  have hsame : f m₀ = f m := by rw [Machine.eq_of_view hm₀, hf]
  rw [Effect.run_bind, Effect.run_get, hsame]
  exact h m₀ hm₀

theorem of_agree (h : Effect.Agree (fun e => !e.isLogged) x x) :
    x.Comes m (x.run m).1 (x.run m).2 := fun m₀ hm₀ => h m₀ m hm₀

theorem launch (c : Command) (streamed : Bool) (m : Machine) :
    (launch c streamed).Comes m ((launch c streamed).run m).1 ((launch c streamed).run m).2 :=
  of_agree (launch_agree c streamed)

end Effect.Comes

namespace Action.Comes

variable {x : Action α} {f : α → Action β} {r : Except Failure β}

theorem run {r : Except Failure α} (h : x.Comes m r m') :
    (x.run.run m).1 = r ∧ (x.run.run m).2.Like m' := h m rfl

theorem pure (a : α) (m : Machine) : Action.Comes (pure a) m (.ok a) m := Effect.Comes.pure _ m

theorem throw (e : Failure) (m : Machine) : Action.Comes (α := α) (throw e) m (.error e) m :=
  Effect.Comes.pure _ m

theorem failWith (c : Cause) (m : Machine) :
    Action.Comes (α := α) (Action.failWith c) m (.error (.of c)) m := throw _ m

theorem bind {a : α} (hx : x.Comes m (.ok a) m') (hf : (f a).Comes m' r m'') :
    (x >>= f).Comes m r m'' := Effect.Comes.bind (f := ExceptT.bindCont f) hx hf

theorem bind_error {e : Failure} (hx : x.Comes m (.error e) m') :
    (x >>= f).Comes m (.error e) m' :=
  Effect.Comes.bind (f := ExceptT.bindCont f) hx (Effect.Comes.pure _ m')

theorem lift {x : Effect α} {a : α} (h : x.Comes m a m') : Action.Comes (liftM x) m (.ok a) m' := by
  intro m₀ hm₀
  obtain ⟨rfl, hm'⟩ := h m₀ hm₀
  exact ⟨rfl, hm'⟩

theorem attempt {r : Except Failure α} (h : x.Comes m r m') :
    (Action.attempt x).Comes m (.ok r) m' := lift h

theorem log_bind {level : Level} {source : Source} {message : String} {f : Unit → Action β}
    (h : (f ()).Comes m r m') : Action.Comes (liftM (log level source message) >>= f) m r m' :=
  .bind (lift (.log level source message m)) h

theorem reads {f : Machine → Action β} (hf : ∀ m es, f { m with events := es } = f m)
    (h : (f m).Comes m r m') : (get >>= f).Comes m r m' := Effect.Comes.reads (f := f) hf h

/-- Any number of lines of the log. -/
theorem forM_log {l : List α} {line : α → Effect Unit} (h : ∀ a, (line a).Comes m () m) :
    Action.Comes (l.forM fun a => liftM (line a)) m (.ok ()) m := by
  induction l with
  | nil => exact pure () m
  | cons a l ih => exact .bind (lift (h a)) ih

end Action.Comes

end ConanPipeline
