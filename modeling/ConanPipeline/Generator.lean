import ConanPipeline.Failure
import ConanPipeline.Platform
import ConanPipeline.Text.Blank

/-! Build file generators: which one to use, given those that the build tool lists. -/

namespace ConanPipeline.Generator

/-- The generator that a line of the help text lists. A star marks the default one. -/
def ofHelpLine (line : List Char) : List Char :=
  Text.trim (((Text.trimStart line).dropWhile (· == '*')).takeWhile (· != '='))

/-- Whether a help text lists a generator. -/
def isListed (help : String) (generator : String) : Bool :=
  (Text.lines help.toList).any fun l => ofHelpLine l == generator.toList

/-- The generators to be tried on Windows, newest first. -/
def visualStudio : List String := ["Visual Studio 17 2022", "Visual Studio 16 2019"]

/-- The generator for a platform, or why there is none. -/
def choose (platform : Platform) (ninja : Bool) (listed : String → Bool) : Except Cause String :=
  if platform = .windows then
    match visualStudio.find? listed with
    | some g => .ok g
    | none =>
      if ninja then .ok "Ninja"
      else .error (.badConfiguration "no suitable CMake generator found on Windows")
  else if platform.isUnixLike then
    if ninja then .ok "Ninja"
    else if listed "Unix Makefiles" then .ok "Unix Makefiles"
    else .error (.badConfiguration "no suitable CMake generator found on Unix")
  else
    .error (.badConfiguration
      ("unsupported platform for generator detection: " ++ Platform.hostName))

end ConanPipeline.Generator
