import ConanPipeline.Errno
import ConanPipeline.Path
import ConanPipeline.Text.Quoted

/-! What can go wrong, and how it is told: the activities that were going on,
outermost first, then the cause. -/

namespace ConanPipeline

inductive Cause where
  /-- A file, a directory or an entry of one is not where it was looked for. -/
  | missing (what : String) (location : Path)
  | toolMissing (tool searched : String)
  | badArgument (reason : String)
  /-- A tool answered, and its version cannot be read from the answer. -/
  | unreadable (tool output : String)
  | badConfiguration (reason : String)
  /-- A command ended with a code other than zero, or with none. -/
  | commandFailed (command : String) (code : Option Int) (stderr : String)
  | refused (errno : Errno)
  | refusedAt (errno : Errno) (path : Path)
  | notUtf8
  | malformed
  | linkChain (path : Path)
  deriving DecidableEq, Repr

/-- What was going on when something failed. -/
inductive Activity where
  | readingFile (path : Path)
  | readingSettings (path : Path)
  | parsingSettings (path : Path)
  | removingDirectory (path : Path)
  | creatingDirectory (path : Path)
  | readingLink (path : Path)
  | creatingTemporary (dir : Path)
  | writingFile (path : Path)
  | copyingMode (path : Path)
  | flushingFile (path : Path)
  | replacingFile (path : Path)
  | spawning (program : Path)
  | executing (program : Path)
  | runningConan (command : String)
  | findingDirectory
  deriving DecidableEq, Repr

structure Failure where
  during : List Activity
  cause : Cause
  deriving DecidableEq, Repr

/-- An exit code as it is shown: `Some(3)`, or `None` for a process that was killed. -/
def exitText : Option Int → String
  | none => "None"
  | some n => "Some(" ++ toString n ++ ")"

def Cause.text : Cause → String
  | missing what location => what ++ " not found: " ++ location.text
  | toolMissing tool searched => "`" ++ tool ++ "` not found (searched " ++ searched ++ ")"
  | badArgument reason => "invalid argument: " ++ reason
  | unreadable tool output =>
    "unable to parse " ++ tool ++ " version from output: " ++ Text.quoted output
  | badConfiguration reason => "invalid configuration: " ++ reason
  | commandFailed command code stderr =>
    "`" ++ command ++ "` failed with exit code " ++ exitText code ++ "\n" ++ stderr
  | refused e => e.text
  | refusedAt e path => e.text ++ " at path " ++ Text.quotedPath path.text
  | notUtf8 => "stream did not contain valid UTF-8"
  | malformed => "malformed document"
  | linkChain path => "too many levels of symbolic links: " ++ path.text

/-- Whether a cause tells that something is not there. -/
def Cause.isMissing : Cause → Bool
  | missing .. | toolMissing .. => true
  | _ => false

def Activity.text : Activity → String
  | readingFile path => "failed to read file: " ++ path.text
  | readingSettings path => "failed to read config: " ++ path.text
  | parsingSettings path => "failed to parse config: " ++ path.text
  | removingDirectory path => "failed to remove directory: " ++ path.text
  | creatingDirectory path => "failed to create directory: " ++ path.text
  | readingLink path => "failed to read link: " ++ path.text
  | creatingTemporary dir => "failed to create temporary file in " ++ dir.text
  | writingFile path => "failed to write file: " ++ path.text
  | copyingMode path => "failed to copy permissions of " ++ path.text
  | flushingFile path => "failed to flush file: " ++ path.text
  | replacingFile path => "failed to replace file: " ++ path.text
  | spawning program => "failed to spawn `" ++ program.text ++ "`"
  | executing program => "failed to execute `" ++ program.text ++ "`"
  | runningConan command => "conan command failed: " ++ command
  | findingDirectory => "failed to get current directory"

namespace Failure

def of (cause : Cause) : Failure := ⟨[], cause⟩

/-- The failure, seen from an activity around it. -/
def inside (f : Failure) (a : Activity) : Failure := { f with during := a :: f.during }

def message (f : Failure) : String :=
  ": ".intercalate (f.during.map Activity.text ++ [f.cause.text])

end Failure

end ConanPipeline
