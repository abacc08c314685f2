/-! Operating system families. -/

namespace ConanPipeline

inductive Platform where
  | windows
  | linux
  | macOs
  /-- The other Unix-like systems. -/
  | otherUnix
  | unsupported
  deriving DecidableEq, Repr, Inhabited

namespace Platform

/-- The platform that runs take place on. -/
def host : Platform := linux

/-- The name of the host's system in lower case. -/
def hostName : String := "linux"

def name : Platform → String
  | windows => "Windows"
  | linux => "Linux"
  | macOs => "MacOs"
  | otherUnix => "OtherUnix"
  | unsupported => "Unsupported"

def isUnixLike : Platform → Bool
  | linux | macOs | otherUnix => true
  | windows | unsupported => false

/-- The file name of an executable. -/
def executable (p : Platform) (stem : String) : String :=
  if p = windows then stem ++ ".exe" else stem

end Platform

end ConanPipeline
