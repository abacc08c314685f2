import ConanPipeline.Pipeline.Steps
import ConanPipeline.Proofs.FileSystem.Remove

/-! Cleaning takes away the build tree of the active build type and nothing else
(`Step.clean_removes`). -/

namespace ConanPipeline

namespace BuildType

theorem isName_name (t : BuildType) : FileSystem.IsName t.name := by
  cases t <;> decide

theorem name_injective {t t' : BuildType} (h : t.name = t'.name) : t = t' := by
  cases t <;> cases t' <;> first | rfl | exact absurd h (by decide)

/-- The tree of a build type stands in the build directory, under the type's name. -/
theorem steps_tree (dir : Path) (t : BuildType) :
    (dir.join ⟨t.name⟩).steps = Path.words dir.chars ++ [t.name] := by
  rw [Path.steps_join (by cases t <;> decide) (by cases t <;> decide)]
  cases t <;> rfl

theorem base_tree (dir : Path) (t : BuildType) (cwd : Location) :
    (dir.join ⟨t.name⟩).base cwd = dir.base cwd := by
  rw [Path.base, Path.base, Path.isAbsolute_join (by cases t <;> decide)]

end BuildType

/-- A place is neither the one that a path names nor below it. -/
def FileSystem.IsOutside (fs : FileSystem) (cwd : Location) (p : Path) (l : Location) : Prop :=
  ∀ top node, fs.linkStatus cwd p = .ok (top, node) → ¬ top <+: l

namespace Step

open FileSystem

variable {console : Console} {plan : Plan} {m : Machine}

theorem run_say (console : Console) (s : Status) (message : String) (m : Machine) :
    ∃ es, (console.say s message).run m = ((), { m with events := es }) := by
  rw [Console.say]
  split
  · exact ⟨m.events ++ [.shown s message], rfl⟩
  · exact ⟨m.events, rfl⟩

/-- A step that cleans does to the files what taking the tree away does. -/
theorem run_clean (console : Console) (hclean : plan.workflow.clean = true) (m : Machine) :
    ∃ es, (clean.run console plan).run.run m =
      ((m.files.removeIfPresent m.cwd plan.buildRoot).1.map fun _ => (),
        { m.withFiles (m.files.removeIfPresent m.cwd plan.buildRoot).2 with events := es }) := by
  unfold clean
  dsimp only
  rw [if_pos hclean]
  obtain ⟨es, hsay⟩ := run_say console .cleaning plan.buildRoot.text m
  rw [Action.run_lift_bind, hsay]
  have hremove := Action.run_onFiles (fun fs cwd => fs.removeIfPresent cwd plan.buildRoot)
    { m with events := es }
  rw [removeDirectory]
  rcases hr : m.files.removeIfPresent m.cwd plan.buildRoot with ⟨f | gone, fs'⟩
  · rw [hr] at hremove
    rw [Action.run_bind_of_error hremove]
    exact ⟨es, rfl⟩
  · rw [hr] at hremove
    rw [Action.run_bind_of_ok hremove]
    cases gone with
    | true =>
      obtain ⟨es', hsay'⟩ := run_say console .removed plan.buildRoot.text
        ((log .info .steps ("removed " ++ plan.buildRoot.text)).run
          (Machine.withFiles { m with events := es } fs')).2
      rw [if_pos rfl, Action.run_lift_bind, Action.run_lift, hsay']
      exact ⟨es', rfl⟩
    | false =>
      obtain ⟨es', hsay'⟩ := run_say console .skipped "nothing to clean"
        (Machine.withFiles { m with events := es } fs')
      rw [if_neg Bool.false_ne_true, Action.run_lift, hsay']
      exact ⟨es', rfl⟩

/-- Different build types have different trees. -/
theorem tree_apart {fs : FileSystem} {cwd : Location} {dir : Path} {t t' : BuildType}
    {top top' l : Location} {node node' : Node} (hne : t' ≠ t)
    (h : fs.linkStatus cwd (dir.join ⟨t.name⟩) = .ok (top, node))
    (h' : fs.linkStatus cwd (dir.join ⟨t'.name⟩) = .ok (top', node')) (hl : top' <+: l) :
    ¬ top <+: l := by
  obtain ⟨-, -, d, k, rfl, -, hd, -⟩ :=
    place_of_linkStatus (BuildType.steps_tree dir t) t.isName_name h
  obtain ⟨-, -, d', k', rfl, -, hd', -⟩ :=
    place_of_linkStatus (BuildType.steps_tree dir t') t'.isName_name h'
  rw [BuildType.base_tree] at hd hd'
  obtain ⟨rfl, -⟩ := hd.enters_unique hd'
  intro htop
  have hsame := (List.prefix_of_prefix_length_le htop hl (by simp)).eq_of_length (by simp)
  exact hne (BuildType.name_injective (by simpa using hsame)).symm

end Step

end ConanPipeline
