import ConanPipeline.Machine.Processes
import ConanPipeline.Proofs.Machine.Action

/-! What starting a command does to the machine (`run_launch_of_ok`, `run_launch_of_error`), and the
variables that a program is started with (`Launch.started_of_start`, `Machine.env_of_launchOf`). -/

namespace ConanPipeline

/-- An attempt to start a command: the command, whether it was left to the terminal, and what became
of it. -/
def Event.attempt? : Event → Option (Command × Bool × Except Errno Invocation)
  | .ran command streamed started => some (command, streamed, started)
  | _ => none

theorem exists_of_bind_eq_ok {ε α β : Type} {x : Except ε α} {f : α → Except ε β} {b : β}
    (h : x >>= f = .ok b) : ∃ a, x = .ok a ∧ f a = .ok b := by
  cases x with
  | error e => cases h
  | ok a => exact ⟨a, rfl, h⟩

theorem cases_of_bind_eq_error {ε α β : Type} {x : Except ε α} {f : α → Except ε β} {e : ε}
    (h : x >>= f = .error e) : x = .error e ∨ ∃ a, x = .ok a ∧ f a = .error e := by
  cases x with
  | error e' => exact Or.inl (congrArg Except.error (Except.error.inj h))
  | ok a => exact Or.inr ⟨a, rfl, h⟩

namespace Launch

variable {programs : Programs} {fs : FileSystem} {r : Launch} {inv : Invocation} {out : Outcome}

theorem started_of_startFile {name : String} {p : Path} {args : List String}
    (h : startFile programs fs r name p args = .ok (inv, out)) :
    inv.env = r.env ∧ programs fs inv = .ok out := by
  rw [startFile] at h
  obtain ⟨program, -, h⟩ := exists_of_bind_eq_ok h
  dsimp only at h
  split at h
  · obtain ⟨_, hthrow, -⟩ := exists_of_bind_eq_ok h
    cases hthrow
  · obtain ⟨out', hran, h⟩ := exists_of_bind_eq_ok h
    cases h
    exact ⟨rfl, hran⟩

theorem started_of_startPath {p : Path} (h : startPath programs fs r p = .ok (inv, out)) :
    inv.env = r.env ∧ programs fs inv = .ok out := by
  rw [startPath] at h
  split at h
  · split at h
    · exact started_of_startFile h
    · cases h
  · exact started_of_startFile h

theorem started_of_startFirst {ps : List Path} {denied : Bool} {last : Errno}
    (h : startFirst programs fs r ps denied last = .ok (inv, out)) :
    inv.env = r.env ∧ programs fs inv = .ok out := by
  induction ps generalizing denied last with
  | nil => cases h
  | cons p ps ih =>
    rw [startFirst] at h
    split at h
    · exact ih h
    · exact ih h
    · exact ih h
    · exact started_of_startPath h

/-- What has been started is what the machine's programs made of it, with the given variables. -/
theorem started_of_start (h : start programs fs r = .ok (inv, out)) :
    inv.env = r.env ∧ programs fs inv = .ok out := by
  rw [start] at h
  split at h
  · cases h
  · split at h
    · exact started_of_startPath h
    · exact started_of_startFirst h

end Launch

theorem Machine.env_of_launchOf {m : Machine} {c : Command} {r : Launch}
    (h : m.launchOf c = .ok r) : r.env = m.env.override c.vars := by
  rw [launchOf] at h
  dsimp only at h
  split at h
  · obtain ⟨_, hthrow, -⟩ := exists_of_bind_eq_ok h
    cases hthrow
  · obtain ⟨dir, -, h⟩ := exists_of_bind_eq_ok h
    cases h
    rfl

section Run

variable {c : Command} {streamed : Bool} {m : Machine}

theorem run_launch_of_error {e : Errno}
    (h : m.launchOf c >>= Launch.start m.programs m.files = .error e) :
    (launch c streamed).run m =
      (.error e, { m with events := m.events ++ [.ran c streamed (.error e)] }) := by
  rw [launch, Effect.run_bind, Effect.run_get]
  dsimp only
  rw [h]
  rfl

theorem run_forM_called (calls : List Invocation) (m : Machine) :
    (calls.forM fun call => record (.called call)).run m =
      ((), { m with events := m.events ++ calls.map .called }) := by
  induction calls generalizing m with
  | nil => rw [List.map_nil, List.append_nil]; rfl
  | cons call calls ih =>
    refine (ih { m with events := m.events ++ [.called call] }).trans ?_
    rw [List.map_cons, List.append_assoc, List.singleton_append]

theorem run_launch_of_ok {inv : Invocation} {out : Outcome}
    (h : m.launchOf c >>= Launch.start m.programs m.files = .ok (inv, out)) :
    (launch c streamed).run m = (.ok out, { m.withFiles out.files with
      clock := m.clock + out.nanos
      events := m.events ++ .ran c streamed (.ok inv) :: out.calls.map .called }) := by
  rw [launch, Effect.run_bind, Effect.run_get]
  dsimp only
  rw [h]
  rw [Effect.run_bind, Effect.run_bind, run_forM_called]
  refine congrArg (fun es => (_, { m.withFiles out.files with
    clock := m.clock + out.nanos, events := es })) ?_
  exact List.append_assoc ..

/-- An attempt is put on record first, and the calls that are made meanwhile behind it. -/
theorem events_launch (c : Command) (streamed : Bool) (m : Machine) :
    ∃ started, ∃ calls : List Invocation, ((launch c streamed).run m).2.events =
      m.events ++ .ran c streamed started :: calls.map .called := by
  cases h : m.launchOf c >>= Launch.start m.programs m.files with
  | error e =>
    rw [run_launch_of_error h]
    exact ⟨.error e, [], rfl⟩
  | ok result =>
    rw [run_launch_of_ok h]
    exact ⟨.ok result.1, result.2.calls, rfl⟩

end Run

end ConanPipeline
