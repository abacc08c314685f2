import ConanPipeline.Pipeline.Steps
import ConanPipeline.Proofs.Machine.Agreement

/-! The standard steps agree with themselves on machines that look the same, and on consoles that
show the same: where they find their tools and what they run does not depend on what was said
before. -/

namespace ConanPipeline

variable {keep : Event → Bool} {console console' : Console}

theorem Tool.probe_agree (path : Path) (read : String → Except Cause String) :
    Action.Agree keep (Tool.probe path read) (Tool.probe path read) := by
  unfold Tool.probe
  refine .bind (Command.run_agree _ _) fun output => ?_
  split
  · exact .pure _
  · exact failWith_agree _

theorem Command.streamShown_agree (h : console.Alike keep console') (cmd : Command) :
    Action.Agree keep (cmd.streamShown console) (cmd.streamShown console') :=
  .bind (.lift (Console.sayVerbose_agree h _)) fun _ =>
    .bind (Command.stream_agree cmd true) fun _ => .pure _

theorem askPipenv_agree (root : Path) : Effect.Agree keep (askPipenv root) (askPipenv root) := by
  unfold askPipenv
  refine .reads (fun _ _ => rfl) fun m => ?_
  split
  · exact .pure _
  · refine .bind (Command.run_agree _ _) fun r => ?_
    split
    · exact .bind (.record _) fun _ => .pure _
    · split
      · exact .pure _
      · exact .bind (.record _) fun _ => .pure _

theorem findVenv_agree (configured : Option Path) (root : Path) :
    Effect.Agree keep (findVenv configured root) (findVenv configured root) := by
  unfold findVenv
  refine .reads (fun _ _ => rfl) fun m => ?_
  dsimp only
  split
  · exact .bind (.record _) fun _ => .pure _
  · exact askPipenv_agree root

theorem findConan_agree (venv : Path) :
    Action.Agree keep (findConan venv) (findConan venv) := by
  unfold findConan
  refine .reads (fun _ _ => rfl) fun m => ?_
  split
  · exact .bind (.lift (.record _)) fun _ => .pure _
  · dsimp only
    split
    · exact .bind (.lift (.record _)) fun _ => .pure _
    · exact .bind (Tool.probe_agree _ _) fun _ => .bind (.lift (.record _)) fun _ => .pure _

theorem resolveConan_agree (plan : Plan) :
    Action.Agree keep (resolveConan plan) (resolveConan plan) := by
  unfold resolveConan
  refine .bind (.lift (findVenv_agree _ _)) fun venv => ?_
  -- with a virtual environment or without one, the search goes on in the same way
  extract_lets onPath
  have hpath (inVenv : Option Tool) : Action.Agree keep (onPath inVenv) (onPath inVenv) := by
    unfold onPath
    split
    · exact .pure _
    · refine .reads (fun _ _ => rfl) fun m => ?_
      split
      · exact .bind (Tool.probe_agree _ _) fun _ => .bind (.lift (.record _)) fun _ => .pure _
      · exact failWith_agree _
  split
  · exact .bind (findConan_agree _) hpath
  · exact .bind (.pure none) hpath

theorem Conan.locate_agree (plan : Plan) :
    Action.Agree keep (Conan.locate plan) (Conan.locate plan) :=
  .bind (resolveConan_agree plan) fun _ => .pure _

theorem findCmakeInCache_agree (conanHome : Path) :
    Action.Agree keep (findCmakeInCache conanHome) (findCmakeInCache conanHome) := by
  unfold findCmakeInCache
  refine .reads (fun _ _ => rfl) fun m =>
    .bind (.forM fun u _ => .lift (.record _)) fun _ => ?_
  split
  · exact failWith_agree _
  · exact .bind (Tool.probe_agree _ _) fun _ => .bind (.lift (.record _)) fun _ => .pure _

theorem cmakeFromToolchain_agree (file : Path) (platform : Platform) :
    Action.Agree keep (cmakeFromToolchain file platform) (cmakeFromToolchain file platform) := by
  unfold cmakeFromToolchain
  refine .reads (fun _ _ => rfl) fun m => ?_
  extract_lets read
  have hread (u : Unit) : Action.Agree keep (read u) (read u) := by
    refine .bind (fileText_agree file) fun text => ?_
    split
    · exact failWith_agree _
    · exact .bind (.lift (.record _)) fun _ => .pure _
  split
  · exact .bind (failWith_agree _) hread
  · exact hread ()

theorem cmakeFromToolchains_agree (files : List Path) :
    Effect.Agree keep (cmakeFromToolchains files) (cmakeFromToolchains files) := by
  induction files with
  | nil => exact .pure _
  | cons file files ih =>
    rw [cmakeFromToolchains]
    refine .reads (fun _ _ => rfl) fun m => ?_
    split
    · exact ih
    · refine .bind (cmakeFromToolchain_agree file _) fun r => ?_
      split
      · exact .bind (.record _) fun _ => ih
      · refine .reads (fun _ _ => rfl) fun m' => ?_
        split
        · exact .pure _
        · exact .bind (.record _) fun _ => ih

theorem resolveCmake_agree (plan : Plan) :
    Action.Agree keep (resolveCmake plan) (resolveCmake plan) := by
  unfold resolveCmake
  refine .bind (.lift (cmakeFromToolchains_agree _)) fun found => ?_
  split
  · exact .pure _
  · refine .bind (.attempt (findCmakeInCache_agree _)) fun r => ?_
    split
    · exact .pure _
    · refine .bind (.lift (.record _)) fun _ => .reads (fun _ _ => rfl) fun m => ?_
      split
      · exact .pure _
      · exact failWith_agree _

namespace Cmake

theorem locate_agree (plan : Plan) :
    Action.Agree keep (Cmake.locate plan) (Cmake.locate plan) :=
  .bind (resolveCmake_agree plan) fun _ => .pure _

theorem ctest_agree (c : Cmake) : Action.Agree keep c.ctest c.ctest := by
  unfold Cmake.ctest
  refine .reads (fun _ _ => rfl) fun m => ?_
  dsimp only
  split
  · exact .pure _
  · split
    · exact .pure _
    · exact failWith_agree _

end Cmake

namespace Step

theorem requireTree_agree (tree : Path) :
    Action.Agree keep (requireTree tree) (requireTree tree) := by
  unfold requireTree
  refine .reads (fun _ _ => rfl) fun m => ?_
  split
  · exact failWith_agree _
  · exact .pure _

theorem clean_agree (h : console.Alike keep console') (plan : Plan) :
    Action.Agree keep (clean.run console plan) (clean.run console' plan) := by
  unfold clean
  dsimp only
  split
  · refine .bind (.lift (Console.say_agree h _ _)) fun _ => .bind (onFiles_agree _) fun gone => ?_
    split
    · exact .bind (.lift (.record _)) fun _ => .lift (Console.say_agree h _ _)
    · exact .lift (Console.say_agree h _ _)
  · exact .pure _

theorem build_agree (h : console.Alike keep console') (plan : Plan) :
    Action.Agree keep (build.run console plan) (build.run console' plan) := by
  unfold build
  dsimp only
  split
  · exact .bind (Conan.locate_agree plan) fun conan =>
      .bind (.lift (Console.start_agree h _ _)) fun work =>
        .bind (.forM fun _ _ => Command.streamShown_agree h _) fun _ =>
          .lift (Console.finish_agree h work)
  · exact .pure _

theorem pack_agree (h : console.Alike keep console') (plan : Plan) :
    Action.Agree keep (pack.run console plan) (pack.run console' plan) := by
  unfold pack
  dsimp only
  split
  · exact .bind (requireTree_agree _) fun _ => .bind (Cmake.locate_agree plan) fun cmake =>
      .bind (.lift (Console.start_agree h _ _)) fun work =>
        .bind (Command.streamShown_agree h _) fun _ => .lift (Console.finish_agree h work)
  · exact .pure _

theorem test_agree (h : console.Alike keep console') (plan : Plan) :
    Action.Agree keep (test.run console plan) (test.run console' plan) := by
  unfold test
  dsimp only
  split
  · exact .bind (requireTree_agree _) fun _ => .bind (Cmake.locate_agree plan) fun cmake =>
      .bind (Cmake.ctest_agree cmake) fun _ => .bind (.lift (Console.start_agree h _ _)) fun work =>
        .bind (Command.streamShown_agree h _) fun _ => .lift (Console.finish_agree h work)
  · exact .pure _

end Step

end ConanPipeline
