/-! Reasons why the operating system refuses an operation, and their texts. -/

namespace ConanPipeline

inductive Errno where
  | notPermitted
  | noEntry
  | ioFailed
  | argumentsTooLong
  | notExecutable
  | accessDenied
  | busy
  | alreadyThere
  | notDirectory
  | isDirectory
  | invalid
  | tooManyOpen
  | noSpace
  | readOnly
  | nameTooLong
  | notEmpty
  | linkLoop
  /-- A path with a character in it that ends every name. -/
  | nulInName
  /-- The same in a command, or in a variable set for it. -/
  | nulInCommand
  deriving DecidableEq, Repr, Inhabited

namespace Errno

/-- What happened, and the number it goes by if the operating system itself said so. -/
def entry : Errno → String × Option Nat
  | notPermitted => ("Operation not permitted", some 1)
  | noEntry => ("No such file or directory", some 2)
  | ioFailed => ("Input/output error", some 5)
  | argumentsTooLong => ("Argument list too long", some 7)
  | notExecutable => ("Exec format error", some 8)
  | accessDenied => ("Permission denied", some 13)
  | busy => ("Device or resource busy", some 16)
  | alreadyThere => ("File exists", some 17)
  | notDirectory => ("Not a directory", some 20)
  | isDirectory => ("Is a directory", some 21)
  | invalid => ("Invalid argument", some 22)
  | tooManyOpen => ("Too many open files", some 24)
  | noSpace => ("No space left on device", some 28)
  | readOnly => ("Read-only file system", some 30)
  | nameTooLong => ("File name too long", some 36)
  | notEmpty => ("Directory not empty", some 39)
  | linkLoop => ("Too many levels of symbolic links", some 40)
  | nulInName => ("file name contained an unexpected NUL byte", none)
  | nulInCommand => ("nul byte found in provided data", none)

def phrase (e : Errno) : String := e.entry.1

def text (e : Errno) : String :=
  match e.entry with
  | (phrase, some n) => phrase ++ " (os error " ++ toString n ++ ")"
  | (phrase, none) => phrase

end Errno

/-- Why something that a user may ask for at some place is refused there. It is never that the place
is missing. -/
inductive Refusal where
  | notPermitted
  | ioFailed
  | accessDenied
  | tooManyOpen
  | noSpace
  | readOnly
  deriving DecidableEq, Repr

def Refusal.errno : Refusal → Errno
  | notPermitted => .notPermitted
  | ioFailed => .ioFailed
  | accessDenied => .accessDenied
  | tooManyOpen => .tooManyOpen
  | noSpace => .noSpace
  | readOnly => .readOnly

theorem Refusal.errno_ne_noEntry (r : Refusal) : r.errno ≠ .noEntry := by
  cases r <;> decide

end ConanPipeline
