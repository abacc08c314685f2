import ConanPipeline.Proofs.Pipeline.Agreement
import ConanPipeline.Proofs.Search
import ConanPipeline.Transcript

/-! What the verbosity of a console changes. The steps put the same on record for every console but
for what it says (`build_alike`). What they say on it is ruled by `Console.Script`, which they write
on whatever branch they end (`build_keeps`), so that runs on two consoles differ in nothing else
(`build_verbosity`). -/

namespace ConanPipeline

namespace Event

/-- A line on the console. -/
def isSaid : Event → Bool
  | .shown .. => true
  | .finished .. => true
  | _ => false

/-- A line on the console that shows a command. -/
def isRunning : Event → Bool
  | .shown .running _ => true
  | _ => false

/-- An attempt to start a command on the terminal. -/
def isStreamed : Event → Bool
  | .ran _ true _ => true
  | _ => false

theorem shown?_of_unsaid {e : Event} (h : e.isSaid = false) (style : Transcript.Style) :
    Transcript.shown? style e = none := by
  cases e <;> first | rfl | cases h

theorem attempt?_of_said {e : Event} (h : e.isSaid = true) : e.attempt? = none := by
  cases e <;> first | rfl | cases h

theorem call?_of_said {e : Event} (h : e.isSaid = true) : Transcript.call? e = none := by
  cases e <;> first | rfl | cases h

end Event

/-- What is logged about a command before it is started. -/
def Command.announcement (c : Command) : Event :=
  .logged .debug .process ("running `" ++ c.display ++ "`")

namespace Console

/-- What a console shows of a command that is to run on the terminal. -/
def showing (console : Console) (c : Command) : List Event :=
  if console.verbosity = .verbose then [.shown .running c.display] else []

/-- What steps put on record. A quiet console says nothing. Each command that is started on the
terminal, or is to be, is shown as the console shows commands, and no other is. -/
inductive Script (console : Console) : List Event → Prop
  | nil : console.Script []
  | entry {e es} (said : e.isSaid = true → console.verbosity ≠ .quiet)
      (running : e.isRunning = false) (streamed : e.isStreamed = false) (h : console.Script es) :
      console.Script (e :: es)
  | command (c : Command) (started : Except Errno Invocation) {es} (h : console.Script es) :
      console.Script (console.showing c ++ c.announcement :: .ran c true started :: es)

variable {console : Console} {es es' : List Event}

namespace Script

theorem append (h : console.Script es) (h' : console.Script es') : console.Script (es ++ es') := by
  induction h with
  | nil => exact h'
  | entry said running streamed _ ih => exact .entry said running streamed ih
  | command c started _ ih =>
    rw [List.append_assoc]
    exact .command c started ih

/-- Entries that say nothing and start nothing on the terminal. -/
theorem of_silent (h : ∀ e ∈ es, e.isSaid = false ∧ e.isStreamed = false) : console.Script es := by
  induction es with
  | nil => exact .nil
  | cons e es ih =>
    rw [List.forall_mem_cons] at h
    obtain ⟨⟨hsaid, hstreamed⟩, hes⟩ := h
    have hrunning : e.isRunning = false := by
      cases e <;> first | rfl | cases hsaid
    exact .entry (fun he => absurd he (by simp [hsaid])) hrunning hstreamed (ih hes)

theorem not_said (h : console.Script es) (hquiet : console.verbosity = .quiet) :
    ∀ e ∈ es, e.isSaid = false := by
  induction h with
  | nil => exact fun _ he => absurd he List.not_mem_nil
  | entry said _ _ _ ih =>
    exact List.forall_mem_cons.2 ⟨by simpa using mt said (not_not.2 hquiet), ih⟩
  | command c started _ ih =>
    rw [showing, hquiet]
    simpa [Command.announcement, Event.isSaid] using ih

theorem not_running (h : console.Script es) (hother : console.verbosity ≠ .verbose) :
    ∀ e ∈ es, e.isRunning = false := by
  induction h with
  | nil => exact fun _ he => absurd he List.not_mem_nil
  | entry _ running _ _ ih => exact List.forall_mem_cons.2 ⟨running, ih⟩
  | command c started _ ih =>
    rw [showing, if_neg hother]
    simpa [Command.announcement, Event.isRunning] using ih

/-- On a verbose console a line that shows a command and the attempt to start it come together. -/
theorem block (h : console.Script es) (hverbose : console.verbosity = .verbose)
    {before after : List Event} {e : Event} (hes : es = before ++ e :: after)
    (he : e.isRunning = true ∨ e.isStreamed = true) :
    ∃ c started,
      (e = .shown .running c.display ∧
        ∃ rest, after = c.announcement :: .ran c true started :: rest) ∨
      (e = .ran c true started ∧
        ∃ rest, before = rest ++ [.shown .running c.display, c.announcement]) := by
  induction h generalizing before with
  | nil => simp at hes
  | @entry e₀ _ _ running streamed _ ih =>
    rcases List.cons_eq_append_iff.1 hes with ⟨rfl, hcons⟩ | ⟨before, rfl, hrest⟩
    · obtain ⟨rfl, -⟩ := List.cons.inj hcons
      simp [running, streamed] at he
    · obtain ⟨c, started, hleft | ⟨hran, rest, rfl⟩⟩ := ih hrest
      · exact ⟨c, started, .inl hleft⟩
      · exact ⟨c, started, .inr ⟨hran, e₀ :: rest, rfl⟩⟩
  | command c started _ ih =>
    rw [showing, if_pos hverbose, List.singleton_append] at hes
    -- the place is at one of the three entries of this command, or behind them
    rcases List.cons_eq_append_iff.1 hes with ⟨rfl, hcons⟩ | ⟨before, rfl, hlogged⟩
    · obtain ⟨rfl, rfl⟩ := List.cons.inj hcons
      exact ⟨c, started, .inl ⟨rfl, _, rfl⟩⟩
    rcases List.cons_eq_append_iff.1 hlogged with ⟨rfl, hcons⟩ | ⟨before, rfl, htried⟩
    · obtain ⟨rfl, -⟩ := List.cons.inj hcons
      simp [Command.announcement, Event.isRunning, Event.isStreamed] at he
    rcases List.cons_eq_append_iff.1 htried with ⟨rfl, hcons⟩ | ⟨before, rfl, hrest⟩
    · obtain ⟨rfl, -⟩ := List.cons.inj hcons
      exact ⟨c, started, .inr ⟨rfl, [], rfl⟩⟩
    obtain ⟨c', started', hleft | ⟨hran, rest, rfl⟩⟩ := ih hrest
    · exact ⟨c', started', .inl hleft⟩
    · exact ⟨c', started', .inr ⟨hran, _ :: _ :: _ :: rest, rfl⟩⟩

/-- A command that is tried on the terminal is shown just before. -/
theorem shown_before (h : console.Script es) (hverbose : console.verbosity = .verbose)
    {before after : List Event} {c : Command} {started : Except Errno Invocation}
    (hes : es = before ++ .ran c true started :: after) :
    ∃ before', before = before' ++ [.shown .running c.display, c.announcement] := by
  obtain ⟨c', started', ⟨hshown, -⟩ | ⟨hran, rest, hbefore⟩⟩ := h.block hverbose hes (.inr rfl)
  · cases hshown
  · cases hran
    exact ⟨rest, hbefore⟩

/-- A command that is shown is tried on the terminal at once. -/
theorem tried_after (h : console.Script es) (hverbose : console.verbosity = .verbose)
    {before after : List Event} {message : String}
    (hes : es = before ++ .shown .running message :: after) :
    ∃ c started after', message = c.display ∧
      after = c.announcement :: .ran c true started :: after' := by
  obtain ⟨c, started, ⟨hshown, rest, hafter⟩ | ⟨hran, -⟩⟩ := h.block hverbose hes (.inl rfl)
  · cases hshown
    exact ⟨c, started, rest, rfl, hafter⟩
  · cases hran

end Script

/-- The record has gone on from `before` as steps write it. -/
def Wrote (console : Console) (before : List Event) (m : Machine) : Prop :=
  ∃ es, m.events = before ++ es ∧ console.Script es

variable {before : List Event}

theorem keeps_of_script {α : Type} {x : Effect α}
    (h : ∀ m, ∃ es, (x.run m).2.events = m.events ++ es ∧ console.Script es) :
    Effect.Keeps (console.Wrote before) Any x fun _ _ => True := by
  rintro m ⟨es, hes, hscript⟩ -
  obtain ⟨es', hes', hscript'⟩ := h m
  exact ⟨⟨es ++ es', by rw [hes', hes, List.append_assoc], hscript.append hscript'⟩, trivial⟩

theorem of_called (calls : List Invocation) : console.Script (calls.map .called) := by
  refine .of_silent fun e he => ?_
  obtain ⟨call, -, rfl⟩ := List.mem_map.1 he
  exact ⟨rfl, rfl⟩

theorem launch_script (c : Command) (m : Machine) :
    ∃ es, ((launch c false).run m).2.events = m.events ++ es ∧ console.Script es := by
  obtain ⟨started, calls, hevents⟩ := events_launch c false m
  exact ⟨_, hevents, .entry (fun h => nomatch h) rfl rfl (of_called calls)⟩

/-- A search says nothing and starts nothing on the terminal. -/
theorem wrote_isSearch : IsSearch (console.Wrote before) fun _ _ => True where
  kept := {
    log := fun level source message hm _ => (keeps_of_script (x := log level source message)
      (fun _ => ⟨_, rfl, .entry (fun h => nomatch h) rfl rfl .nil⟩) _ hm trivial).1
    launch := fun c hm _ => (keeps_of_script (launch_script c) _ hm trivial).1 }
  lasts _ := .of_pure
  isFile _ _ := trivial

theorem say_keeps {s : Status} (hrunning : s ≠ .running) (herror : s ≠ .error) (message : String) :
    Effect.Keeps (console.Wrote before) Any (console.say s message) fun _ _ => True := by
  unfold say
  split
  · rename_i hallows
    refine keeps_of_script fun _ => ⟨_, rfl, .entry (fun _ hquiet => ?_) ?_ rfl .nil⟩
    · simp [allows, hquiet, herror] at hallows
    · cases s <;> first | rfl | contradiction
  · exact .pure fun _ _ _ => trivial

theorem start_keeps {s : Status} (hrunning : s ≠ .running) (herror : s ≠ .error)
    (message : String) :
    Effect.Keeps (console.Wrote before) Any (console.start s message) fun _ _ => True :=
  .bind (say_keeps hrunning herror message) fun _ => .reads fun _ => .pure fun _ _ _ => trivial

theorem finish_keeps (work : Span) :
    Effect.Keeps (console.Wrote before) Any (console.finish work) fun _ _ => True := by
  unfold finish
  refine .reads fun m => .of_any ?_
  dsimp only
  split
  · rename_i hallows
    refine keeps_of_script fun _ => ⟨_, rfl, .entry (fun _ hquiet => ?_) rfl rfl .nil⟩
    simp [allows, hquiet] at hallows
  · exact .pure fun _ _ _ => trivial

/-- What a command leaves on record that runs on the terminal. -/
theorem stream_events (console : Console) (c : Command) (check : Bool) (m : Machine) :
    ∃ started es,
    ((c.stream check).run.run m).2.events =
      m.events ++ c.announcement :: .ran c true started :: es ∧ console.Script es := by
  let m₁ : Machine := { m with events := m.events ++ [c.announcement] }
  have hannounce : (liftM c.announce : Action Unit).run.run m = (.ok (), m₁) := rfl
  have hlaunch : (liftM (launch c true) : Action _).run.run m₁ =
    (.ok ((launch c true).run m₁).1, ((launch c true).run m₁).2) := rfl
  obtain ⟨started, calls, hevents⟩ := events_launch c true m₁
  rw [Command.stream, Action.run_bind_of_ok hannounce, Action.run_bind_of_ok hlaunch]
  generalize ((launch c true).run m₁).1 = r
  generalize ((launch c true).run m₁).2 = m₂ at hevents ⊢
  have hcalled : m₂.events =
      m.events ++ c.announcement :: .ran c true started :: calls.map .called := by
    rw [hevents, List.append_assoc, List.singleton_append]
  cases r with
  | error e => exact ⟨started, _, hcalled, of_called calls⟩
  | ok out =>
    have hout : console.Script [.childOut out.stdout, .childErr out.stderr] :=
      .of_silent (by simp [Event.isSaid, Event.isStreamed])
    refine ⟨started, calls.map .called ++ [.childOut out.stdout, .childErr out.stderr], ?_,
      (of_called calls).append hout⟩
    have hrecorded : (m₂.events ++ [.childOut out.stdout]) ++ [.childErr out.stderr] =
        m.events ++ c.announcement :: .ran c true started ::
          (calls.map .called ++ [.childOut out.stdout, .childErr out.stderr]) := by
      simp [hcalled]
    dsimp only
    split
    · exact hrecorded
    · exact hrecorded

theorem streamShown_script (c : Command) (m : Machine) : ∃ es,
    ((c.streamShown console).run.run m).2.events = m.events ++ es ∧ console.Script es := by
  have hsay : (liftM (console.sayVerbose .running c.display) : Action Unit).run.run m =
      (.ok (), { m with events := m.events ++ console.showing c }) := by
    rw [sayVerbose, say, showing]
    by_cases hverbose : console.verbosity = .verbose
    · rw [if_pos hverbose, if_pos hverbose, if_pos (by simp [allows, hverbose])]
      rfl
    · rw [if_neg hverbose, if_neg hverbose, List.append_nil]
      rfl
  obtain ⟨started, es, hevents, hscript⟩ :=
    stream_events console c true { m with events := m.events ++ console.showing c }
  refine ⟨console.showing c ++ c.announcement :: .ran c true started :: es, ?_,
    .command c started hscript⟩
  rw [Command.streamShown, Action.run_bind_of_ok hsay, ← List.append_assoc, ← hevents]
  rcases hrun : (c.stream true).run.run { m with events := m.events ++ console.showing c } with
    ⟨r, m'⟩
  cases r with
  | error e => rw [Action.run_bind_of_error hrun]
  | ok code =>
    rw [Action.run_bind_of_ok hrun]
    rfl

theorem streamShown_keeps (c : Command) :
    Action.Keeps (console.Wrote before) Any (c.streamShown console) fun _ _ => True :=
  fun m hm _ => ⟨(keeps_of_script (streamShown_script c) m hm trivial).1, fun _ _ => trivial⟩

theorem onFiles_keeps {α : Type} (f : FileSystem → Location → FileSystem.Attempt α) :
    Action.Keeps (console.Wrote before) Any (onFiles f) fun _ _ => True := by
  intro m hm _
  rw [Action.run_onFiles]
  exact ⟨hm, fun _ _ => trivial⟩

end Console

namespace Step

open Console

variable {console : Console} {before : List Event} {plan : Plan}

theorem requireTree_keeps (tree : Path) :
    Action.Keeps (console.Wrote before) Any (requireTree tree) fun _ _ => True := by
  unfold requireTree
  refine .reads fun m => .of_any ?_
  split
  · exact .failWith _
  · exact .pure fun _ _ _ => trivial

theorem ctest_keeps (c : Cmake) :
    Action.Keeps (console.Wrote before) Any c.ctest fun _ _ => True := by
  unfold Cmake.ctest
  refine .reads fun m => .of_any ?_
  dsimp only
  split
  · exact .pure fun _ _ _ => trivial
  · split
    · exact .pure fun _ _ _ => trivial
    · exact .failWith _

theorem clean_keeps :
    Action.Keeps (console.Wrote before) Any (clean.run console plan) fun _ _ => True := by
  unfold clean
  dsimp only
  split
  · refine .bind (.lift (say_keeps (by decide) (by decide) _)) fun _ =>
      .bind (onFiles_keeps _) fun gone => ?_
    split
    · exact .log_bind wrote_isSearch.kept .any (.lift (say_keeps (by decide) (by decide) _))
    · exact .lift (say_keeps (by decide) (by decide) _)
  · exact .pure fun _ _ _ => trivial

theorem build_keeps :
    Action.Keeps (console.Wrote before) Any (build.run console plan) fun _ _ => True := by
  unfold build
  dsimp only
  split
  · exact .bind (.bind (resolveConan_keeps wrote_isSearch plan) fun _ => .pure fun _ _ _ => trivial)
      fun conan => .bind (.lift (start_keeps (by decide) (by decide) _)) fun work =>
        .bind (.forM fun _ _ => streamShown_keeps _) fun _ => .lift (finish_keeps work)
  · exact .pure fun _ _ _ => trivial

theorem pack_keeps :
    Action.Keeps (console.Wrote before) Any (pack.run console plan) fun _ _ => True := by
  unfold pack
  dsimp only
  split
  · exact .bind (requireTree_keeps _) fun _ =>
      .bind (.bind (resolveCmake_keeps wrote_isSearch plan) fun _ => .pure fun _ _ _ => trivial)
        fun cmake => .bind (.lift (start_keeps (by decide) (by decide) _)) fun work =>
          .bind (streamShown_keeps _) fun _ => .lift (finish_keeps work)
  · exact .pure fun _ _ _ => trivial

theorem test_keeps :
    Action.Keeps (console.Wrote before) Any (test.run console plan) fun _ _ => True := by
  unfold test
  dsimp only
  split
  · exact .bind (requireTree_keeps _) fun _ =>
      .bind (.bind (resolveCmake_keeps wrote_isSearch plan) fun _ => .pure fun _ _ _ => trivial)
        fun cmake => .bind (ctest_keeps cmake) fun ctest =>
          .bind (.lift (start_keeps (by decide) (by decide) _)) fun work =>
            .bind (streamShown_keeps _) fun _ => .lift (finish_keeps work)
  · exact .pure fun _ _ _ => trivial

end Step

section Runs

variable {console console' : Console} {plan : Plan}

theorem Pipeline.runSteps_keeps {before : List Event} {ss : List Step}
    (h : ∀ s ∈ ss, Action.Keeps (console.Wrote before) Any (s.run console plan) fun _ _ => True) :
    Action.Keeps (console.Wrote before) Any (runSteps console plan ss) fun _ _ => True := by
  induction ss with
  | nil => exact .pure fun _ _ _ => trivial
  | cons s ss ih =>
    rw [List.forall_mem_cons] at h
    rw [runSteps]
    exact .log_bind Console.wrote_isSearch.kept .any (.bind h.1 fun _ => ih h.2)

/-- The steps write what the console lets them write, and nothing else. -/
theorem build_keeps (before : List Event) (plan : Plan) :
    Action.Keeps (console.Wrote before) Any (build console plan) fun _ _ => True := by
  have hsteps : ∀ s ∈ [Step.clean, Step.build, Step.pack, Step.test],
      Action.Keeps (console.Wrote before) Any (s.run console plan) fun _ _ => True := by
    simp only [List.forall_mem_cons]
    exact ⟨Step.clean_keeps, Step.build_keeps, Step.pack_keeps, Step.test_keeps,
      fun _ hs => absurd hs List.not_mem_nil⟩
  exact .log_bind (f := fun _ => Pipeline.runSteps console plan _) Console.wrote_isSearch.kept .any
    (Pipeline.runSteps_keeps hsteps)

theorem Pipeline.runSteps_alike {keep : Event → Bool} {ss : List Step}
    (h : ∀ s ∈ ss, Action.Agree keep (s.run console plan) (s.run console' plan)) :
    Action.Agree keep (runSteps console plan ss) (runSteps console' plan ss) := by
  induction ss with
  | nil => exact .pure _
  | cons s ss ih =>
    rw [List.forall_mem_cons] at h
    rw [runSteps, runSteps]
    exact .bind (.lift (.record _)) fun _ => .bind h.1 fun _ => ih h.2

theorem build_alike {keep : Event → Bool} (h : console.Alike keep console') (plan : Plan) :
    Action.Agree keep (build console plan) (build console' plan) := by
  have hsteps : ∀ s ∈ [Step.clean, Step.build, Step.pack, Step.test],
      Action.Agree keep (s.run console plan) (s.run console' plan) := by
    simp only [List.forall_mem_cons]
    exact ⟨Step.clean_agree h plan, Step.build_agree h plan, Step.pack_agree h plan,
      Step.test_agree h plan, fun _ hs => absurd hs List.not_mem_nil⟩
  exact .bind (f := fun _ => Pipeline.runSteps console plan _)
    (g := fun _ => Pipeline.runSteps console' plan _) (.lift (.record _))
    fun _ => Pipeline.runSteps_alike hsteps

end Runs

/-- Consoles show the same but for what they say. -/
theorem Console.alike_unsaid (console console' : Console) :
    Alike (fun e => !e.isSaid) console console' :=
  ⟨fun _ _ h => (nomatch h), fun _ _ h => (nomatch h), fun _ h => (nomatch h)⟩

/-- A verbose console shows the commands and is otherwise like a normal one. -/
theorem Console.alike_verbose (color : Bool) :
    Alike (fun e => !e.isRunning) ⟨.normal, color⟩ ⟨.verbose, color⟩ :=
  ⟨fun _ _ _ => rfl, fun _ _ _ => rfl, fun _ h => nomatch h⟩

/-- Two runs that look the same when entries are left out have added the same but for these. -/
theorem build_same {keep : Event → Bool} {console console' : Console} {plan : Plan} {m : Machine}
    (h : console.Alike keep console') {es es' : List Event}
    (hes : ((build console plan).run.run m).2.events = m.events ++ es)
    (hes' : ((build console' plan).run.run m).2.events = m.events ++ es') :
    (build console plan).run.run m = (((build console' plan).run.run m).1,
        { ((build console' plan).run.run m).2 with events := m.events ++ es }) ∧
      es.filter keep = es'.filter keep := by
  obtain ⟨hresult, hview⟩ := build_alike h plan m m rfl
  constructor
  · rw [← hes]
    exact Prod.ext hresult (Machine.eq_of_view hview)
  · have hevents : (m.events ++ es).filter keep = (m.events ++ es').filter keep := by
      rw [← hes, ← hes']
      exact congrArg Machine.events hview
    rw [List.filter_append, List.filter_append] at hevents
    exact List.append_cancel_left hevents

/-- Runs of the steps that differ in the verbosity of the console end with the same result and the
same machine, and have tried the same commands and made the same calls: their records differ in what
was said. On a quiet console that is nothing. On a normal one it is what a verbose one says without
the lines that show commands, the times included. A verbose one shows a command just before it is
tried on the terminal, there being only a line of the log between, and it shows no other. -/
theorem build_verbosity (color : Bool) (plan : Plan) (m : Machine) :
    let run (v : Verbosity) := (build ⟨v, color⟩ plan).run.run m
    ∃ es : Verbosity → List Event,
      (∀ v, run v = ((run .quiet).1, { (run .quiet).2 with events := m.events ++ es v }) ∧
        (es v).filter (fun e => !e.isSaid) = es .quiet ∧
        (es v).filterMap Event.attempt? = (es .quiet).filterMap Event.attempt? ∧
        Transcript.calls (es v) = Transcript.calls (es .quiet)) ∧
      (∀ style, Transcript.collect (Transcript.shown? style) (es .quiet) = "") ∧
      es .normal = (es .verbose).filter (fun e => !e.isRunning) ∧
      (∀ before c started after, es .verbose = before ++ .ran c true started :: after →
        ∃ before', before = before' ++ [.shown .running c.display, c.announcement]) ∧
      (∀ before message after, es .verbose = before ++ .shown .running message :: after →
        ∃ c started after', message = c.display ∧
          after = c.announcement :: .ran c true started :: after') := by
  intro run
  have hwrote (v : Verbosity) : ∃ es, (run v).2.events = m.events ++ es ∧
      Console.Script ⟨v, color⟩ es :=
    (build_keeps m.events plan m ⟨[], (List.append_nil _).symm, .nil⟩ trivial).1
  choose es hes hscript using hwrote
  have hquiet : ∀ e ∈ es .quiet, e.isSaid = false := (hscript .quiet).not_said rfl
  have hsame (v : Verbosity) :=
    build_same (Console.alike_unsaid ⟨v, color⟩ ⟨.quiet, color⟩) (hes v) (hes .quiet)
  have hunsaid (v : Verbosity) : (es v).filter (fun e => !e.isSaid) = es .quiet := by
    rw [(hsame v).2, List.filter_eq_self]
    exact fun e he => by simp [hquiet e he]
  have hread {γ : Type} {f : Event → Option γ} (hf : ∀ e, e.isSaid = true → f e = none)
      (v : Verbosity) : (es v).filterMap f = (es .quiet).filterMap f := by
    rw [← hunsaid v, filterMap_filter_keep fun e he => hf e (by simpa using he)]
  refine ⟨es, fun v => ⟨(hsame v).1, hunsaid v, hread (fun _ => Event.attempt?_of_said) v,
    hread (fun _ => Event.call?_of_said) v⟩, fun style => ?_, ?_,
    fun _ _ _ _ => (hscript .verbose).shown_before rfl,
    fun _ _ _ => (hscript .verbose).tried_after rfl⟩
  · have hnothing : (es .quiet).filterMap (Transcript.shown? style) = [] :=
      List.filterMap_eq_nil_iff.2 fun e he => Event.shown?_of_unsaid (hquiet e he) style
    rw [Transcript.collect, hnothing]
    rfl
  · rw [← (build_same (Console.alike_verbose color) (hes .normal) (hes .verbose)).2, eq_comm,
      List.filter_eq_self]
    exact fun e he => by simp [(hscript .normal).not_running (by simp) e he]

end ConanPipeline
