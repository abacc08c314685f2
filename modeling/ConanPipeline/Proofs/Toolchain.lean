import ConanPipeline.Cmake
import ConanPipeline.Proofs.Configure.Update
import ConanPipeline.Proofs.Text.Lines
import Mathlib.Data.List.TakeWhile

/-! The build tool that a toolchain file gives. Only the first line that mentions it counts, and in
that line what stands between the first two double quotes. A line with one quote should be refused
and is not: what follows the quote is taken for a directory (`cmakeFromToolchain_eq_iff`). -/

namespace ConanPipeline

namespace Text

theorem contains_eq_true_iff (p cs : List Char) : contains p cs = true ↔ p <:+: cs := by
  have hstarts (cs : List Char) : startsWith p cs = true ↔ p <+: cs := by
    rw [startsWith, Option.isSome_iff_exists]
    exact exists_congr fun rest => after?_eq_some_iff.trans eq_comm
  induction cs with
  | nil => rw [contains, hstarts, List.prefix_nil, List.infix_nil]
  | cons c cs ih =>
    rw [contains, Bool.or_eq_true, List.infix_cons_iff]
    exact or_congr (hstarts _) ih

end Text

namespace Toolchain

/-- The first of the lines that mentions the build tool. -/
def FirstMarked (ls : List (List Char)) (line : List Char) : Prop :=
  marker <:+: line ∧ ∃ before after, ls = before ++ line :: after ∧ ∀ l ∈ before, ¬ marker <:+: l

/-- What the lines of a toolchain file come to. -/
inductive Says (file : Path) (platform : Platform) (ls : List (List Char)) :
    Except Failure Path → Prop
  | missing (h : ∀ l ∈ ls, ¬ marker <:+: l) :
      Says file platform ls (.error (.of (.missing "CMAKE_PROGRAM entry in toolchain file" file)))
  | unquoted {line} (h : FirstMarked ls line) (hline : '"' ∉ line) :
      Says file platform ls
        (.error (.of (.unreadable "toolchain CMAKE_PROGRAM" (.ofList (Text.trim line)))))
  | between {a dir b} (h : FirstMarked ls (a ++ '"' :: (dir ++ '"' :: b))) (ha : '"' ∉ a)
      (hdir : '"' ∉ dir) :
      Says file platform ls (.ok ((Path.ofChars dir).join ⟨platform.executable "cmake"⟩))
  | unclosed {a rest} (h : FirstMarked ls (a ++ '"' :: rest)) (ha : '"' ∉ a)
      (hrest : '"' ∉ rest) :
      Says file platform ls (.ok ((Path.ofChars rest).join ⟨platform.executable "cmake"⟩))

variable {file : Path} {platform : Platform} {text line a dir b rest : List Char}
variable {r : Except Failure Path}

section Lines

theorem entry?_eq_none_iff : entry? text = none ↔ ∀ l ∈ Text.lines text, ¬ marker <:+: l := by
  simp only [List.find?_eq_none, Text.contains_eq_true_iff, entry?]

theorem entry?_eq_some_iff : entry? text = some line ↔ FirstMarked (Text.lines text) line := by
  simp only [List.find?_eq_some_iff_append, Text.contains_eq_true_iff, FirstMarked, entry?,
    Bool.not_eq_true', ← Bool.not_eq_true]

theorem quoted?_of_not_mem (h : '"' ∉ line) : quoted? line = none := by
  rw [quoted?, Text.cutAt_of_not_mem h, Option.map_none]

theorem quoted?_between (ha : '"' ∉ a) (hdir : '"' ∉ dir) :
    quoted? (a ++ '"' :: (dir ++ '"' :: b)) = some dir := by
  rw [quoted?, Text.cutAt_append ha, Option.map_some]
  refine congrArg some (Text.takeWhile_append_stop (fun c hc => ?_) (by simp))
  exact bne_iff_ne.2 (ne_of_mem_of_not_mem hc hdir)

theorem quoted?_unclosed (ha : '"' ∉ a) (hrest : '"' ∉ rest) :
    quoted? (a ++ '"' :: rest) = some rest := by
  rw [quoted?, Text.cutAt_append ha, Option.map_some]
  exact congrArg some (List.takeWhile_eq_self_iff.2 fun c hc =>
    bne_iff_ne.2 (ne_of_mem_of_not_mem hc hrest))

/-- Whatever the lines are, they come to something. -/
theorem exists_says (file : Path) (platform : Platform) (text : List Char) :
    ∃ r, Says file platform (Text.lines text) r := by
  cases hentry : entry? text with
  | none => exact ⟨_, .missing (entry?_eq_none_iff.1 hentry)⟩
  | some line =>
    have hfirst := entry?_eq_some_iff.1 hentry
    by_cases hline : '"' ∈ line
    · obtain ⟨a, rest, rfl, ha⟩ := List.eq_append_cons_of_mem hline
      by_cases hrest : '"' ∈ rest
      · obtain ⟨dir, b, rfl, hdir⟩ := List.eq_append_cons_of_mem hrest
        exact ⟨_, .between hfirst ha hdir⟩
      · exact ⟨_, .unclosed hfirst ha hrest⟩
    · exact ⟨_, .unquoted hfirst hline⟩

theorem Says.cmake_eq (h : Says file platform (Text.lines text) r) :
    (cmake file platform text).mapError Failure.of = r := by
  rw [cmake]
  cases h with
  | missing h => rw [entry?_eq_none_iff.2 h]; rfl
  | unquoted h hline => rw [entry?_eq_some_iff.2 h]; dsimp only; rw [quoted?_of_not_mem hline]; rfl
  | between h ha hdir =>
    rw [entry?_eq_some_iff.2 h]; dsimp only; rw [quoted?_between ha hdir]; rfl
  | unclosed h ha hrest =>
    rw [entry?_eq_some_iff.2 h]; dsimp only; rw [quoted?_unclosed ha hrest]; rfl

end Lines

end Toolchain

section Reading

variable {m : Machine} {file : Path} {text : String}

theorem run_cmakeFromToolchain (h : m.files.readText m.cwd file = .ok text) (platform : Platform) :
    ((cmakeFromToolchain file platform).run.run m).1 =
      (Toolchain.cmake file platform text.toList).mapError Failure.of := by
  have hfile := Machine.isFile_of_readText h
  rw [cmakeFromToolchain, Action.run_get_bind]
  simp only [hfile, Bool.not_true, Bool.false_eq_true, if_false]
  rw [Action.run_bind_of_ok (Action.run_fileText h)]
  cases Toolchain.cmake file platform text.toList <;> rfl

/-- The entry of a toolchain file is missing exactly if no line mentions the build tool. Otherwise
the first line that does decides: without a double quote it is refused, and the directory is what
stands between its first two quotes, or what follows the only one. -/
theorem cmakeFromToolchain_eq_iff (h : m.files.readText m.cwd file = .ok text)
    (platform : Platform) (r : Except Failure Path) :
    ((cmakeFromToolchain file platform).run.run m).1 = r ↔
      Toolchain.Says file platform (Text.lines text.toList) r := by
  rw [run_cmakeFromToolchain h]
  constructor
  · rintro rfl
    obtain ⟨r, hr⟩ := Toolchain.exists_says file platform text.toList
    rwa [hr.cmake_eq]
  · exact Toolchain.Says.cmake_eq

/-- A comment with quotes in it stands before the entry, and one behind the directory. -/
theorem cmakeFromToolchain_eq_quoted :
    let m := Machine.ofEntries [(["t"],
      .file "# \"gcc\"\nset(CMAKE_PROGRAM \"/c/bin\") # \"2\"\nCMAKE_PROGRAM\n".toUTF8 0o644)]
    ((cmakeFromToolchain ⟨"t"⟩ .windows).run.run m).1 = .ok ⟨"/c/bin/cmake.exe"⟩ := by
  intro m
  have hread : m.files.readText m.cwd ⟨"t"⟩ =
      .ok "# \"gcc\"\nset(CMAKE_PROGRAM \"/c/bin\") # \"2\"\nCMAKE_PROGRAM\n" := by decide +kernel
  have hfirst : Toolchain.FirstMarked
      (Text.lines "# \"gcc\"\nset(CMAKE_PROGRAM \"/c/bin\") # \"2\"\nCMAKE_PROGRAM\n".toList)
      ("set(CMAKE_PROGRAM ".toList ++ '"' :: ("/c/bin".toList ++ '"' :: ") # \"2\"".toList)) := by
    refine ⟨?_, ["# \"gcc\"".toList], ["CMAKE_PROGRAM".toList], ?_, ?_⟩
    all_goals decide +kernel
  exact (cmakeFromToolchain_eq_iff hread .windows _).2 (.between hfirst (by decide) (by decide))

/-- An entry whose quote is not closed is not refused. -/
theorem cmakeFromToolchain_eq_unclosed :
    let text := "set(CMAKE_PROGRAM \"/usr/bin)\n"
    let m := Machine.ofEntries [(["t"], .file text.toUTF8 0o644)]
    text.toList.count '"' = 1 ∧
      ((cmakeFromToolchain ⟨"t"⟩ .linux).run.run m).1 = .ok ⟨"/usr/bin)/cmake"⟩ := by
  decide +kernel

end Reading

end ConanPipeline
