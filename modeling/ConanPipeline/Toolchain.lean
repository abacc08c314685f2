import ConanPipeline.Failure
import ConanPipeline.Platform
import ConanPipeline.Text.Blank

/-! Toolchain files. The first line that mentions `CMAKE_PROGRAM` gives the directory
of the build tool between its first two double quotes. -/

namespace ConanPipeline.Toolchain

def marker : List Char := "CMAKE_PROGRAM".toList

/-- The text between the first two double quotes of a line, if it has two. A line with only
one quote gives what follows it. -/
def quoted? (line : List Char) : Option (List Char) :=
  (Text.cutAt '"' line).map fun p => p.2.takeWhile (· != '"')

/-- The line that gives the build tool. -/
def entry? (text : List Char) : Option (List Char) :=
  (Text.lines text).find? (Text.contains marker)

/-- The build tool that the text of a toolchain file gives. -/
def cmake (file : Path) (platform : Platform) (text : List Char) : Except Cause Path :=
  match entry? text with
  | none => .error (.missing "CMAKE_PROGRAM entry in toolchain file" file)
  | some line =>
    match quoted? line with
    | none => .error (.unreadable "toolchain CMAKE_PROGRAM" (.ofList (Text.trim line)))
    | some dir => .ok ((Path.ofChars dir).join ⟨platform.executable "cmake"⟩)

end ConanPipeline.Toolchain
