import ConanPipeline.Proofs.Machine.Launch

/-! Assertions about machines. An effect keeps an invariant, and what it finds on a machine decides
what holds of its value and of the machine that it leaves (`Effect.Keeps`). An action keeps the
invariant even if it fails (`Action.Keeps`). -/

namespace ConanPipeline

/-- On a machine with `I` and `P` the effect keeps `I`, and it ends with `Q`. -/
def Effect.Keeps {α : Type} (I P : Machine → Prop) (x : Effect α) (Q : α → Machine → Prop) : Prop :=
  ∀ m, I m → P m → I (x.run m).2 ∧ Q (x.run m).1 (x.run m).2

/-- The same of an action, which ends with `Q` if it succeeds. -/
def Action.Keeps {α : Type} (I P : Machine → Prop) (x : Action α) (Q : α → Machine → Prop) : Prop :=
  Effect.Keeps I P x.run fun r m => ∀ a, r = .ok a → Q a m

/-- What neither a line of the log nor a command with its output captured puts an end to. -/
structure Lasts (I P : Machine → Prop) : Prop where
  log : ∀ {m} level source message, I m → P m → P ((log level source message).run m).2
  launch : ∀ {m} c, I m → P m → P ((launch c false).run m).2

/-- Nothing is asked of a machine. -/
def Any : Machine → Prop := fun _ => True

variable {α β : Type} {I P P' : Machine → Prop}

namespace Effect.Keeps

variable {x : Effect α} {f : α → Effect β} {Q : α → Machine → Prop} {R : β → Machine → Prop}

theorem of_pre (h : Effect.Keeps I P' x Q) (hP : ∀ m, I m → P m → P' m) : Effect.Keeps I P x Q :=
  fun m hI hm => h m hI (hP m hI hm)

theorem of_any (h : Effect.Keeps I Any x Q) : Effect.Keeps I P x Q := h.of_pre fun _ _ _ => trivial

/-- What is kept along with the invariant is there in the end. -/
theorem frame (h : Effect.Keeps (fun m => I m ∧ P m) Any x Q) :
    Effect.Keeps I P x fun a m => P m ∧ Q a m := by
  intro m hI hP
  obtain ⟨hkept, hQ⟩ := h m ⟨hI, hP⟩ trivial
  exact ⟨hkept.1, hkept.2, hQ⟩

theorem pure {a : α} (h : ∀ m, I m → P m → Q a m) : Effect.Keeps I P (pure a) Q :=
  fun m hI hP => ⟨hI, h m hI hP⟩

theorem bind (hx : Effect.Keeps I P x Q) (hf : ∀ a, Effect.Keeps I (Q a) (f a) R) :
    Effect.Keeps I P (x >>= f) R := by
  intro m hI hP
  obtain ⟨hI', hQ⟩ := hx m hI hP
  rw [Effect.run_bind]
  exact hf _ _ hI' hQ

theorem reads {f : Machine → Effect β}
    (h : ∀ m, Effect.Keeps I (fun m' => m' = m ∧ P m') (f m) R) :
    Effect.Keeps I P (get >>= f) R := fun m hI hP => h m m hI ⟨rfl, hP⟩

theorem log (hP : Lasts I P) (hI : Lasts I I) (level : Level) (source : Source)
    (message : String) : Effect.Keeps I P (log level source message) fun _ => P :=
  fun _ hm hPm => ⟨hI.log level source message hm hm, hP.log level source message hm hPm⟩

/-- A line of the log makes no difference to what follows. -/
theorem log_bind {level : Level} {source : Source} {message : String} {f : Unit → Effect β}
    (hI : Lasts I I) (hP : Lasts I P) (h : Effect.Keeps I P (f ()) R) :
    Effect.Keeps I P (ConanPipeline.log level source message >>= f) R :=
  .bind (.log hP hI level source message) fun _ => h

end Effect.Keeps

namespace Action.Keeps

variable {x : Action α} {f : α → Action β} {Q : α → Machine → Prop} {R : β → Machine → Prop}

theorem of_pre (h : Action.Keeps I P' x Q) (hP : ∀ m, I m → P m → P' m) : Action.Keeps I P x Q :=
  Effect.Keeps.of_pre h hP

theorem of_any (h : Action.Keeps I Any x Q) : Action.Keeps I P x Q := Effect.Keeps.of_any h

theorem frame (h : Action.Keeps (fun m => I m ∧ P m) Any x Q) :
    Action.Keeps I P x fun a m => P m ∧ Q a m := by
  intro m hI hP
  obtain ⟨hkept, hQ⟩ := h m ⟨hI, hP⟩ trivial
  exact ⟨hkept.1, fun a ha => ⟨hkept.2, hQ a ha⟩⟩

theorem pure {a : α} (h : ∀ m, I m → P m → Q a m) : Action.Keeps I P (pure a) Q :=
  Effect.Keeps.pure fun m hI hP _ ha => Except.ok.inj ha ▸ h m hI hP

theorem throw (e : Failure) : Action.Keeps I P (throw e) Q :=
  Effect.Keeps.pure fun _ _ _ _ ha => nomatch ha

theorem failWith (c : Cause) : Action.Keeps I P (Action.failWith c) Q := .throw _

theorem bind (hx : Action.Keeps I P x Q) (hf : ∀ a, Action.Keeps I (Q a) (f a) R) :
    Action.Keeps I P (x >>= f) R := by
  change Effect.Keeps I P (x.run >>= ExceptT.bindCont f) _
  refine Effect.Keeps.bind hx fun r => ?_
  cases r with
  | ok a => exact Effect.Keeps.of_pre (hf a) fun m _ h => h a rfl
  | error e => exact .pure fun _ _ _ _ ha => nomatch ha

theorem failWith_bind (c : Cause) : Action.Keeps I P (Action.failWith c >>= f) R :=
  .bind (Q := fun _ _ => False) (.failWith c) fun _ _ _ h => h.elim

theorem lift {x : Effect α} (h : Effect.Keeps I P x Q) : Action.Keeps I P (liftM x) Q := by
  have hrun (a : α) : Effect.Keeps I (Q a) (Pure.pure (.ok a) : Effect (Except Failure α))
      fun r m => ∀ b, r = .ok b → Q b m := .pure fun _ _ ha _ hb => Except.ok.inj hb ▸ ha
  exact Effect.Keeps.bind h hrun

theorem log_bind {level : Level} {source : Source} {message : String} {f : Unit → Action β}
    (hI : Lasts I I) (hP : Lasts I P) (h : Action.Keeps I P (f ()) R) :
    Action.Keeps I P (liftM (log level source message) >>= f) R :=
  .bind (.lift (.log hP hI level source message)) fun _ => h

theorem reads {f : Machine → Action β}
    (h : ∀ m, Action.Keeps I (fun m' => m' = m ∧ P m') (f m) R) :
    Action.Keeps I P (get >>= f) R := Effect.Keeps.reads (f := f) h

theorem attempt (h : Action.Keeps I P x Q) :
    Action.Keeps I P (Action.attempt x) fun r m => ∀ a, r = .ok a → Q a m := lift h

theorem forM {l : List α} {f : α → Action Unit}
    (h : ∀ a ∈ l, Action.Keeps I P (f a) fun _ => P) : Action.Keeps I P (l.forM f) fun _ => P := by
  induction l with
  | nil => exact .pure fun _ _ hP => hP
  | cons a l ih =>
    rw [List.forall_mem_cons] at h
    rw [Action.forM_cons]
    exact .bind h.1 fun _ => ih h.2

end Action.Keeps

namespace Lasts

theorem any : Lasts I Any := ⟨fun _ _ _ _ _ => trivial, fun _ _ _ => trivial⟩

theorem and (h : Lasts I P) (h' : Lasts I P') : Lasts I fun m => P m ∧ P' m :=
  ⟨fun _ _ _ hI hP => ⟨h.log _ _ _ hI hP.1, h'.log _ _ _ hI hP.2⟩,
    fun _ hI hP => ⟨h.launch _ hI hP.1, h'.launch _ hI hP.2⟩⟩

theorem of_pure {a : Prop} : Lasts I fun _ => a := ⟨fun _ _ _ _ ha => ha, fun _ _ ha => ha⟩

theorem imp {a : Prop} (h : Lasts I P) : Lasts I fun m => a → P m :=
  ⟨fun _ _ _ hI hP ha => h.log _ _ _ hI (hP ha), fun _ hI hP ha => h.launch _ hI (hP ha)⟩

theorem all {P : α → Machine → Prop} (h : ∀ a, Lasts I (P a)) : Lasts I fun m => ∀ a, P a m :=
  ⟨fun _ _ _ hI hP a => (h a).log _ _ _ hI (hP a), fun _ hI hP a => (h a).launch _ hI (hP a)⟩

theorem of_kept (h : Lasts I P) : Lasts (fun m => I m ∧ P' m) P :=
  ⟨fun _ _ _ hI hP => h.log _ _ _ hI.1 hP, fun _ hI hP => h.launch _ hI.1 hP⟩

end Lasts

end ConanPipeline
