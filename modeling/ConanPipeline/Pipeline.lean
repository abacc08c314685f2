import ConanPipeline.Plan

/-! The pipeline: steps kept in the order of their kinds, those of one kind in the
order in which they were registered (`register_perm`, `register_sorted`). -/

namespace ConanPipeline

/-- The place of a step in the pipeline. -/
inductive StepKind where
  | clean
  | build
  | pack
  | test
  deriving DecidableEq, Repr

namespace StepKind

def rank : StepKind → Nat
  | clean => 0
  | build => 1
  | pack => 2
  | test => 3

def name : StepKind → String
  | clean => "Clean"
  | build => "Build"
  | pack => "Pack"
  | test => "Test"

end StepKind

/-- One phase. It looks at the plan for itself and does nothing if its flag is off. -/
structure Step where
  kind : StepKind
  run : Console → Plan → Action Unit

structure Pipeline where
  steps : List Step := []
  plan : Option Plan := none

namespace Pipeline

/-- Puts a step behind all that do not come after it. -/
def insert (s : Step) : List Step → List Step
  | [] => [s]
  | t :: ts => if s.kind.rank < t.kind.rank then s :: t :: ts else t :: insert s ts

def register (p : Pipeline) (s : Step) : Pipeline := { p with steps := insert s p.steps }

theorem insert_perm (s : Step) (ts : List Step) : (insert s ts).Perm (s :: ts) := by
  induction ts with
  | nil => exact .refl _
  | cons t ts ih =>
    rw [insert]
    split
    · exact .refl _
    · exact (ih.cons t).trans (.swap s t ts)

theorem register_perm (p : Pipeline) (s : Step) : (p.register s).steps.Perm (s :: p.steps) :=
  insert_perm s p.steps

/-- The order that the steps are kept in. -/
def Sorted (ts : List Step) : Prop := ts.Pairwise fun a b => a.kind.rank ≤ b.kind.rank

theorem insert_sorted {s : Step} {ts : List Step} (h : Sorted ts) : Sorted (insert s ts) := by
  induction ts with
  | nil => simp [insert, Sorted]
  | cons t ts ih =>
    obtain ⟨ht, hts⟩ := List.pairwise_cons.1 h
    rw [insert]
    split
    · rename_i hlt
      refine List.pairwise_cons.2 ⟨fun b hb => ?_, h⟩
      rcases List.mem_cons.1 hb with rfl | hb
      · omega
      · have := ht b hb; omega
    · rename_i hge
      refine List.pairwise_cons.2 ⟨fun b hb => ?_, ih hts⟩
      rcases List.mem_cons.1 ((insert_perm s ts).mem_iff.1 hb) with rfl | hb
      · omega
      · exact ht b hb

theorem register_sorted {p : Pipeline} {s : Step} (h : Sorted p.steps) :
    Sorted (p.register s).steps := insert_sorted h

def kinds (p : Pipeline) : List StepKind := p.steps.map Step.kind

/-- Sets the plan for the runs to come. -/
def setup (p : Pipeline) (plan : Plan) : Pipeline := { p with plan := some plan }

/-- Runs steps in order. The first one that fails ends the run. -/
def runSteps (console : Console) (plan : Plan) : List Step → Action Unit
  | [] => pure ()
  | s :: ss => do
    log .debug .pipeline ("step " ++ s.kind.name)
    s.run console plan
    runSteps console plan ss

def run (p : Pipeline) (console : Console) : Action Unit := do
  match p.plan with
  | none => Action.failWith (.badArgument "builder has not been set up")
  | some plan =>
    log .debug .pipeline
      ("running pipeline for " ++ plan.projectName ++ " (" ++ plan.buildType.name ++ ")")
    runSteps console plan p.steps

end Pipeline

end ConanPipeline
