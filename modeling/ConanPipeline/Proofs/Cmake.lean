import ConanPipeline.Cmake
import ConanPipeline.Proofs.Path

/-! The names of the build tool: wherever it is found, it is called what was looked for. -/

namespace ConanPipeline

theorem mem_of_shallowest? {ls : List Location} {l : Location} (h : shallowest? ls = some l) :
    l ∈ ls := by
  induction ls generalizing l with
  | nil => cases h
  | cons k ls ih =>
    rw [shallowest?] at h
    split at h
    · cases h
      exact List.mem_cons_self ..
    · rename_i k' hk
      split at h <;> cases h
      · exact List.mem_cons_of_mem _ (ih hk)
      · exact List.mem_cons_self ..

namespace FileSystem

variable {fs : FileSystem} {cwd : Location} {root p : Path} {stem : String}

theorem pathBelow_concat (root : Path) (ds : Location) (n : String) :
    pathBelow root (ds ++ [n]) = (pathBelow root ds).join ⟨n⟩ := by
  rw [pathBelow, List.foldl_append]
  rfl

theorem isEmpty_pathBelow (h : p.isEmpty = false) (l : Location) :
    (pathBelow p l).isEmpty = false := by
  induction l generalizing p with
  | nil => exact h
  | cons n l ih => exact ih (Path.isEmpty_join (.inl h))

/-- What is found in a tree has the name that was looked for and may be executed. -/
theorem named_and_executable_of_found (h : (fs.findInTree cwd root stem).found = some p) :
    p.isNamed stem = true ∧ fs.isExecutable cwd p = true := by
  obtain ⟨below, hbelow, rfl⟩ := Option.map_eq_some_iff.1 h
  obtain ⟨visit, -, hvisit⟩ := List.mem_filterMap.1 (mem_of_shallowest? hbelow)
  rw [tool?.eq_def] at hvisit
  split at hvisit
  · split at hvisit
    · rename_i htool
      cases hvisit
      exact Bool.and_eq_true_iff.1 htool
    · cases hvisit
  · cases hvisit

end FileSystem

/-- The build tool that a toolchain file gives has the name that it has on the platform. -/
theorem Toolchain.fileName_cmake {file p : Path} {platform : Platform} {text : List Char}
    (h : cmake file platform text = .ok p) : p.fileName = some (platform.executable "cmake") := by
  rw [cmake] at h
  split at h
  · cases h
  · split at h
    · cases h
    · cases h
      exact Path.fileName_join (by cases platform <;> decide) _

end ConanPipeline
