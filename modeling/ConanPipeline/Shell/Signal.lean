import ConanPipeline.Shell.Number

/-! Signals: their numbers, names and the words for the death by them.

Serves runs on test inputs only (`Programs/Known`); no theorem depends on it. -/

namespace ConanPipeline.Shell.Signal

/-- The names and words of the signals, from number one on. -/
def table : List (String × String) :=
  [("HUP", "Hangup"), ("INT", "Interrupt"), ("QUIT", "Quit"), ("ILL", "Illegal instruction"),
    ("TRAP", "Trace/breakpoint trap"), ("ABRT", "Aborted"), ("BUS", "Bus error"),
    ("FPE", "Floating point exception"), ("KILL", "Killed"), ("USR1", "User defined signal 1"),
    ("SEGV", "Segmentation fault"), ("USR2", "User defined signal 2"), ("PIPE", "Broken pipe"),
    ("ALRM", "Alarm clock"), ("TERM", "Terminated"), ("STKFLT", "Stack fault"),
    ("CHLD", "Child exited"), ("CONT", "Continued"), ("STOP", "Stopped (signal)"),
    ("TSTP", "Stopped"), ("TTIN", "Stopped (tty input)"), ("TTOU", "Stopped (tty output)"),
    ("URG", "Urgent I/O condition"), ("XCPU", "CPU time limit exceeded"),
    ("XFSZ", "File size limit exceeded"), ("VTALRM", "Virtual timer expired"),
    ("PROF", "Profiling timer expired"), ("WINCH", "Window changed"), ("IO", "I/O possible"),
    ("PWR", "Power failure"), ("SYS", "Bad system call")]

/-- One more than the greatest number of a signal. -/
def limit : Nat := 65

/-- The signals that can be sent without harm. -/
def harmless : List Nat := [17, 18, 23, 28]

def name (n : Nat) : String :=
  match n with
  | 0 => "EXIT"
  | k + 1 =>
    match table[k]? with
    | some (s, _) => s
    | none =>
      if n = 34 then "RTMIN"
      else if n = 64 then "RTMAX"
      else if 34 < n && n < 50 then "RTMIN+" ++ toString (n - 34)
      else if 50 ≤ n && n < 64 then "RTMAX-" ++ toString (64 - n)
      else toString n

/-- What is said of a process that a signal has killed; for some, nothing. -/
def words (n : Nat) : Option String :=
  if n = 2 || n = 13 then none
  else match n with
    | 0 => none
    | k + 1 => some (match table[k]? with
      | some (_, s) => s
      | none => "Real-time signal " ++ toString (n - 34))

/-- The signal of a number that is written out. -/
def ofNumber? (cs : List Char) : Option Nat :=
  if !cs.isEmpty && cs.all Char.isDigit then
    let n := Number.valueOf 10 cs
    if n < limit then some n else none
  else none

/-- The signal of a name, in any letter case, or of a number. Only names from some number on
count. -/
def ofText? (least : Nat) (cs : List Char) : Option Nat :=
  if cs.all Char.isDigit then ofNumber? cs
  else (List.range limit).find? fun n =>
    least ≤ n && (name n).toList = cs.map Char.toUpper

end ConanPipeline.Shell.Signal
