import ConanPipeline.Machine

/-! What effects and actions do, one after the other. An action that succeeds hands its value and
its machine to what follows, and one that fails ends the whole (`run_bind_of_ok`,
`run_bind_of_error`). -/

namespace ConanPipeline

section Effects

variable {α β : Type}

theorem Effect.run_bind (x : Effect α) (f : α → Effect β) (m : Machine) :
    (x >>= f).run m = (f (x.run m).1).run (x.run m).2 := rfl

theorem Effect.run_get (m : Machine) : (get : Effect Machine).run m = (m, m) := rfl

end Effects

namespace Action

variable {α β : Type} {x : Action α} {f : α → Action β} {m m' : Machine}

theorem run_bind_of_ok {a : α} (h : x.run.run m = (.ok a, m')) :
    (x >>= f).run.run m = (f a).run.run m' := by
  rw [ExceptT.run_bind, StateT.run_bind, h]
  rfl

theorem run_bind_of_error {e : Failure} (h : x.run.run m = (.error e, m')) :
    (x >>= f).run.run m = (.error e, m') := by
  rw [ExceptT.run_bind, StateT.run_bind, h]
  rfl

theorem run_lift (x : Effect α) (m : Machine) :
    (liftM x : Action α).run.run m = (.ok (x.run m).1, (x.run m).2) := rfl

/-- What an effect gives is handed on, with the machine that it leaves. -/
theorem run_lift_bind (x : Effect β) (f : β → Action α) (m : Machine) :
    ((liftM x : Action β) >>= f).run.run m = (f (x.run m).1).run.run (x.run m).2 := rfl

theorem forM_cons (f : α → Action Unit) (a : α) (l : List α) :
    (a :: l).forM f = f a >>= fun _ => l.forM f := rfl

theorem run_onFiles (f : FileSystem → Location → FileSystem.Attempt α) (m : Machine) :
    (onFiles f).run.run m = ((f m.files m.cwd).1, m.withFiles (f m.files m.cwd).2) := by
  have hget : (get : Action Machine).run.run m = (.ok m, m) := rfl
  rw [onFiles, run_bind_of_ok hget]
  rcases f m.files m.cwd with ⟨_ | _, files⟩ <;> rfl

end Action

end ConanPipeline
