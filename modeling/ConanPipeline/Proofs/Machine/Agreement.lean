import ConanPipeline.Proofs.Machine.Launch

/-! Machines that look the same when some entries of the record are left out, and effects that
make the same of such machines. Nothing looks at what is already on record, so starting a command
agrees with itself (`launch_agree`, `Command.run_agree`, `Command.stream_agree`), and what one
console shows agrees with what another shows that is like it (`Console.Alike`). -/

namespace ConanPipeline

/-- The machine with those entries of its record that are kept. -/
def Machine.view (keep : Event → Bool) (m : Machine) : Machine :=
  { m with events := m.events.filter keep }

/-- Two effects that make the same of machines that look the same. -/
def Effect.Agree {α : Type} (keep : Event → Bool) (x y : Effect α) : Prop :=
  ∀ m m' : Machine, m.view keep = m'.view keep →
    (x.run m).1 = (y.run m').1 ∧ (x.run m).2.view keep = (y.run m').2.view keep

/-- An effect that neither reads the record nor adds to it. -/
def Effect.Silent {α : Type} (x : Effect α) : Prop :=
  ∀ (m : Machine) (es : List Event), x.run { m with events := es } =
    ((x.run m).1, { (x.run m).2 with events := es })

/-- Two actions that make the same of machines that look the same. -/
def Action.Agree {α : Type} (keep : Event → Bool) (x y : Action α) : Prop :=
  Effect.Agree keep x.run y.run

section Effects

variable {α β : Type} {keep : Event → Bool}

/-- Machines that look the same differ in the record alone. -/
theorem Machine.eq_of_view {m m' : Machine} (h : m.view keep = m'.view keep) :
    m = { m' with events := m.events } := by
  cases m
  cases m'
  simp only [Machine.view, Machine.mk.injEq] at h ⊢
  simp [h]

theorem view_append (m : Machine) (es : List Event) :
    Machine.view keep { m with events := m.events ++ es } =
      { m.view keep with events := (m.view keep).events ++ es.filter keep } :=
  congrArg (fun es => { m with events := es }) (List.filter_append ..)

/-- What is read off the entries that are kept is read off the whole record. -/
theorem filterMap_filter_keep {γ : Type} {f : Event → Option γ}
    (hf : ∀ e, keep e = false → f e = none) (es : List Event) :
    (es.filter keep).filterMap f = es.filterMap f := by
  rw [List.filterMap_filter]
  congr 1
  funext e
  cases he : keep e with
  | true => rfl
  | false => exact (hf e he).symm

namespace Effect.Agree

variable {x y z : Effect α} {f g : α → Effect β}

theorem trans (hxy : Effect.Agree keep x y) (hyz : Effect.Agree keep y z) :
    Effect.Agree keep x z := by
  intro m m' h
  obtain ⟨hr, hm⟩ := hxy m m' h
  obtain ⟨hr', hm'⟩ := hyz m' m' rfl
  exact ⟨hr.trans hr', hm.trans hm'⟩

theorem symm (h : Effect.Agree keep x y) : Effect.Agree keep y x := by
  intro m m' hm
  obtain ⟨hr, hview⟩ := h m' m hm.symm
  exact ⟨hr.symm, hview.symm⟩

theorem pure (a : α) : Effect.Agree keep (pure a) (pure a) := fun _ _ h => ⟨rfl, h⟩

theorem bind (h : Effect.Agree keep x y) (hf : ∀ a, Effect.Agree keep (f a) (g a)) :
    Effect.Agree keep (x >>= f) (y >>= g) := by
  intro m m' hm
  obtain ⟨hr, hm₁⟩ := h m m' hm
  rw [Effect.run_bind, Effect.run_bind, hr]
  exact hf _ _ _ hm₁

theorem of_silent (h : x.Silent) : Effect.Agree keep x x := by
  intro m m' hm
  have hx := h m' m.events
  have hx' := h m' m'.events
  rw [← Machine.eq_of_view hm] at hx
  have hevents : (x.run m').2.events = m'.events := congrArg (fun q => q.2.events) hx'
  rw [hx]
  refine ⟨rfl, ?_⟩
  rw [Machine.view, Machine.view, hevents]
  exact congrArg (fun es => { (x.run m').2 with events := es }) (congrArg Machine.events hm)

/-- What is read off a machine, the record apart, is the same for both. -/
theorem reads {f g : Machine → Effect β} (hf : ∀ m es, f { m with events := es } = f m)
    (h : ∀ m, Effect.Agree keep (f m) (g m)) : Effect.Agree keep (get >>= f) (get >>= g) := by
  intro m m' hm
  have hfm : f m = f m' := by
    rw [Machine.eq_of_view hm]
    exact hf m' m.events
  rw [Effect.run_bind, Effect.run_bind, Effect.run_get, Effect.run_get, hfm]
  exact h m' m m' hm

/-- What an effect adds to the record it adds to both. -/
theorem of_appends {a : α} {es : List Event}
    (h : ∀ m, x.run m = (a, { m with events := m.events ++ es })) : Effect.Agree keep x x := by
  intro m m' hm
  rw [h, h]
  refine ⟨rfl, ?_⟩
  rw [view_append, view_append, hm]

theorem record (e : Event) : Effect.Agree keep (record e) (record e) := of_appends fun _ => rfl

/-- An entry that is left out makes no difference. -/
theorem record_left {e : Event} (he : keep e = false) :
    Effect.Agree keep (ConanPipeline.record e) (Pure.pure ()) := by
  intro m m' hm
  refine ⟨rfl, (view_append m [e]).trans ?_⟩
  rw [List.filter_cons_of_neg (by simp [he]), List.filter_nil, List.append_nil]
  exact hm

end Effect.Agree

end Effects

section Actions

variable {α β : Type} {keep : Event → Bool}

namespace Action.Agree

variable {x y z : Action α} {f g : α → Action β}

theorem trans (hxy : Action.Agree keep x y) (hyz : Action.Agree keep y z) :
    Action.Agree keep x z := Effect.Agree.trans hxy hyz

theorem pure (a : α) : Action.Agree keep (pure a) (pure a) := Effect.Agree.pure _

theorem throw (e : Failure) : Action.Agree (α := α) keep (throw e) (throw e) := Effect.Agree.pure _

theorem bind (h : Action.Agree keep x y) (hf : ∀ a, Action.Agree keep (f a) (g a)) :
    Action.Agree keep (x >>= f) (y >>= g) := by
  change Effect.Agree keep (x.run >>= ExceptT.bindCont f) (y.run >>= ExceptT.bindCont g)
  refine Effect.Agree.bind h fun r => ?_
  cases r with
  | ok a => exact hf a
  | error e => exact .pure _

theorem forM {l : List α} {f g : α → Action Unit} (h : ∀ a ∈ l, Action.Agree keep (f a) (g a)) :
    Action.Agree keep (l.forM f) (l.forM g) := by
  induction l with
  | nil => exact .pure ()
  | cons a l ih =>
    rw [List.forall_mem_cons] at h
    rw [Action.forM_cons, Action.forM_cons]
    exact .bind h.1 fun _ => ih h.2

theorem lift {x y : Effect α} (h : Effect.Agree keep x y) :
    Action.Agree keep (liftM x) (liftM y) := by
  have hrun (a : α) : Effect.Agree keep (Pure.pure (.ok a) : Effect (Except Failure α))
      (Pure.pure (.ok a)) := .pure _
  exact Effect.Agree.bind h hrun

/-- What follows an entry that is left out agrees with what there is without it. -/
theorem record_left {e : Event} (he : keep e = false) (h : Action.Agree keep x y) :
    Action.Agree keep (liftM (ConanPipeline.record e) >>= fun _ => x) y :=
  .bind (f := fun _ => x) (g := fun _ => y) (lift (.record_left he)) fun _ => h

theorem attempt (h : Action.Agree keep x y) :
    Action.Agree keep (Action.attempt x) (Action.attempt y) := lift h

theorem reads {f g : Machine → Action β} (hf : ∀ m es, f { m with events := es } = f m)
    (h : ∀ m, Action.Agree keep (f m) (g m)) : Action.Agree keep (get >>= f) (get >>= g) :=
  Effect.Agree.reads (f := f) (g := g) hf h

end Action.Agree

end Actions

section Parts

variable {keep : Event → Bool}

theorem onFiles_agree {α : Type} (f : FileSystem → Location → FileSystem.Attempt α) :
    Action.Agree keep (onFiles f) (onFiles f) := by
  refine Effect.Agree.of_silent fun m es => ?_
  rw [Action.run_onFiles, Action.run_onFiles]
  rfl

theorem fileText_agree (p : Path) : Action.Agree keep (fileText p) (fileText p) := by
  unfold fileText
  refine .reads (fun _ _ => rfl) fun m => ?_
  split
  · exact .pure _
  · exact .throw _

theorem launch_agree (c : Command) (streamed : Bool) :
    Effect.Agree keep (launch c streamed) (launch c streamed) := by
  unfold launch
  refine .reads (fun _ _ => rfl) fun m => ?_
  split
  · exact .bind (.record _) fun _ => .pure _
  · exact .bind (.record _) fun _ => .bind (.of_appends (run_forM_called _)) fun _ =>
      .bind (.of_silent fun _ _ => rfl) fun _ => .pure _

theorem failWith_agree {α : Type} (c : Cause) :
    Action.Agree (α := α) keep (Action.failWith c) (Action.failWith c) := .throw _

namespace Command

theorem run_agree (c : Command) (check : Bool) : Action.Agree keep (c.run check) (c.run check) := by
  unfold Command.run
  refine .bind (.lift (.record _)) fun _ => .bind (.lift (launch_agree c false)) fun r => ?_
  split
  · exact .throw _
  · dsimp only
    split
    · exact .bind (failWith_agree _) fun _ => .pure _
    · exact .pure _

theorem stream_agree (c : Command) (check : Bool) :
    Action.Agree keep (c.stream check) (c.stream check) := by
  unfold Command.stream
  refine .bind (.lift (.record _)) fun _ => .bind (.lift (launch_agree c true)) fun r => ?_
  split
  · exact .throw _
  · refine .bind (.lift (.record _)) fun _ => .bind (.lift (.record _)) fun _ => ?_
    dsimp only
    split
    · exact .bind (failWith_agree _) fun _ => .pure _
    · exact .pure _

end Command

end Parts

/-- Consoles that show the same of what is kept. -/
structure Console.Alike (keep : Event → Bool) (c c' : Console) : Prop where
  allows : ∀ s message, keep (.shown s message) = true → c.allows s = c'.allows s
  finished : ∀ message took, keep (.finished message took) = true →
    c.allows .finished = c'.allows .finished
  /-- Only commands are shown on verbose consoles alone. -/
  verbose : ∀ message, keep (.shown .running message) = true →
    (c.verbosity = .verbose ↔ c'.verbosity = .verbose)

namespace Console

variable {keep : Event → Bool} {c c' : Console}

theorem Alike.refl (c : Console) : Alike keep c c :=
  ⟨fun _ _ _ => rfl, fun _ _ _ => rfl, fun _ _ => Iff.rfl⟩

/-- What either of two conditions lets on record is left out, or they are the same. -/
theorem record_if_agree {e : Event} {p q : Prop} [Decidable p] [Decidable q]
    (h : keep e = true → (p ↔ q)) :
    Effect.Agree keep (if p then record e else pure ()) (if q then record e else pure ()) := by
  cases he : keep e with
  | true =>
    simp only [h he]
    split
    · exact .record e
    · exact .pure ()
  | false =>
    have hleft := Effect.Agree.record_left he
    split <;> split
    · exact .record e
    · exact hleft
    · exact hleft.symm
    · exact .pure ()

theorem say_agree (h : c.Alike keep c') (s : Status) (message : String) :
    Effect.Agree keep (c.say s message) (c'.say s message) :=
  record_if_agree fun he => by rw [h.allows s message he]

theorem start_agree (h : c.Alike keep c') (s : Status) (message : String) :
    Effect.Agree keep (c.start s message) (c'.start s message) :=
  .bind (say_agree h s message) fun _ => .reads (fun _ _ => rfl) fun _ => .pure _

theorem finish_agree (h : c.Alike keep c') (work : Span) :
    Effect.Agree keep (c.finish work) (c'.finish work) := by
  unfold finish
  refine .reads (fun _ _ => rfl) fun m => record_if_agree fun he => ?_
  rw [h.finished _ _ he]

theorem sayVerbose_agree (h : c.Alike keep c') (message : String) :
    Effect.Agree keep (c.sayVerbose .running message) (c'.sayVerbose .running message) := by
  have hsay (d : Console) : d.sayVerbose .running message =
      if d.verbosity = .verbose ∧ d.allows .running = true then record (.shown .running message)
      else pure () := by
    rw [sayVerbose, say]
    split <;> split <;> simp_all
  rw [hsay, hsay]
  refine record_if_agree fun he => ?_
  rw [h.verbose message he, h.allows .running message he]

end Console

end ConanPipeline
