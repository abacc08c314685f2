import ConanPipeline.Proofs.Machine.Outcome
import ConanPipeline.Tool

/-! What asking a program for its version comes to: the attempt to start it decides (`Tool.Asked`),
and nothing else is tried. -/

namespace ConanPipeline

/-- What is seen of a program that has ended. -/
def Outcome.output (out : Outcome) : Output :=
  ⟨out.exit.code?, Text.ofBytes out.stdout, Text.ofBytes out.stderr⟩

/-- The command that asks a program for its version. -/
def Tool.query (path : Path) : Command := { program := path, args := ["--version"] }

/-- What asking the program at `path` for its version comes to on a machine: it is refused, or it
fails, or its answer cannot be read, or it tells. -/
inductive Tool.Asked (m : Machine) (path : Path) (read : String → Except Cause String) :
    Except Failure Tool → Prop
  | refused {e : Errno} (h : ((launch (query path) false).run m).1 = .error e) :
      Asked m path read (.error ((Failure.of (.refused e)).inside (.spawning path)))
  | failed {out : Outcome} (h : ((launch (query path) false).run m).1 = .ok out)
      (hexit : out.exit ≠ .code 0) :
      Asked m path read (.error (.of (.commandFailed (query path).display out.exit.code?
        (Text.trimmedEnd (Text.ofBytes out.stderr)))))
  | unread {out : Outcome} {c : Cause} (h : ((launch (query path) false).run m).1 = .ok out)
      (hexit : out.exit = .code 0) (hread : read (Text.ofBytes out.stdout) = .error c) :
      Asked m path read (.error (.of c))
  | told {out : Outcome} {v : String} (h : ((launch (query path) false).run m).1 = .ok out)
      (hexit : out.exit = .code 0) (hread : read (Text.ofBytes out.stdout) = .ok v) :
      Asked m path read (.ok ⟨path, v⟩)

section Commands

variable {c : Command} {check : Bool} {m : Machine} {out : Outcome}

theorem Exit.code?_eq_zero {e : Exit} : e.code? = some 0 ↔ e = .code 0 := by
  cases e <;> simp [code?]

theorem Outcome.success_output : out.output.success = true ↔ out.exit = .code 0 := by
  rw [Output.success, beq_iff_eq, output, Exit.code?_eq_zero]

theorem Command.run_refused {e : Errno} (h : ((launch c false).run m).1 = .error e) :
    (c.run check).Comes m (.error ((Failure.of (.refused e)).inside (.spawning c.program)))
      ((launch c false).run m).2 := by
  unfold Command.run Command.announce
  refine .log_bind (.bind (.lift (.launch c false m)) ?_)
  rw [h]
  exact .throw _ _

theorem Command.run_failed (h : ((launch c false).run m).1 = .ok out) (hexit : out.exit ≠ .code 0) :
    (c.run true).Comes m (.error (.of (.commandFailed c.display out.exit.code?
      (Text.trimmedEnd (Text.ofBytes out.stderr))))) ((launch c false).run m).2 := by
  have hfailed : (true && !out.output.success) = true := by
    rw [Bool.true_and, Bool.not_eq_true', ← Bool.not_eq_true, Outcome.success_output]
    exact hexit
  unfold Command.run Command.announce
  refine .log_bind (.bind (.lift (.launch c false m)) ?_)
  rw [h]
  dsimp only
  split
  · exact .bind_error (.failWith _ _)
  · rename_i hdone
    exact absurd hfailed hdone

theorem Command.run_done (h : ((launch c false).run m).1 = .ok out)
    (hcheck : check = true → out.exit = .code 0) :
    (c.run check).Comes m (.ok out.output) ((launch c false).run m).2 := by
  have hdone : ¬ (check && !out.output.success) = true := by
    rw [Bool.and_eq_true, Bool.not_eq_true', ← Bool.not_eq_true, Outcome.success_output]
    exact fun h => h.2 (hcheck h.1)
  unfold Command.run Command.announce
  refine .log_bind (.bind (.lift (.launch c false m)) ?_)
  rw [h]
  dsimp only
  split
  · rename_i hfailed
    exact absurd hfailed hdone
  · exact .pure _ _

end Commands

namespace Tool

variable {m : Machine} {path : Path} {read : String → Except Cause String}

theorem probe_comes (m : Machine) (path : Path) (read : String → Except Cause String) :
    ∃ r, Asked m path read r ∧
      (probe path read).Comes m r ((launch (query path) false).run m).2 := by
  unfold probe
  cases hrun : ((launch (query path) false).run m).1 with
  | error e => exact ⟨_, .refused hrun, .bind_error (Command.run_refused hrun)⟩
  | ok out =>
    by_cases hexit : out.exit = .code 0
    · cases hread : read (Text.ofBytes out.stdout) with
      | error c =>
        refine ⟨_, .unread hrun hexit hread, .bind (Command.run_done hrun fun _ => hexit) ?_⟩
        simp only [Outcome.output, hread]
        exact .failWith c _
      | ok v =>
        refine ⟨_, .told hrun hexit hread, .bind (Command.run_done hrun fun _ => hexit) ?_⟩
        simp only [Outcome.output, hread]
        exact .pure _ _
    · exact ⟨_, .failed hrun hexit, .bind_error (Command.run_failed hrun hexit)⟩

namespace Asked

variable {r r' : Except Failure Tool}

/-- A program is asked once, and comes to one thing. -/
theorem unique (h : Asked m path read r) (h' : Asked m path read r') : r = r' := by
  cases h <;> cases h' <;> simp_all

theorem path_eq {tool : Tool} (h : Asked m path read (.ok tool)) : tool.path = path := by
  cases h
  rfl

end Asked

end Tool

end ConanPipeline
