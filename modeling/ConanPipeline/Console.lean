import ConanPipeline.Duration

/-! Status lines for the user: a word set flush right in twelve columns, then a
message. A quiet console shows errors only (`allows_quiet`). -/

namespace ConanPipeline

inductive Verbosity where
  | quiet
  | normal
  | verbose
  deriving DecidableEq, Repr, Inhabited

inductive ColorChoice where
  | auto
  | always
  | never
  deriving DecidableEq, Repr, Inhabited

/-- The word in the status column. -/
inductive Status where
  | finished
  | updated
  | removed
  | cleaning
  | building
  | packing
  | testing
  | configuring
  | running
  | info
  | skipped
  | warning
  | error
  deriving DecidableEq, Repr, Inhabited

namespace Status

def all : List Status :=
  [finished, updated, removed, cleaning, building, packing, testing, configuring, running, info,
    skipped, warning, error]

/-- The name of a status, with a capital letter. -/
def name : Status → String
  | finished => "Finished"
  | updated => "Updated"
  | removed => "Removed"
  | cleaning => "Cleaning"
  | building => "Building"
  | packing => "Packing"
  | testing => "Testing"
  | configuring => "Configuring"
  | running => "Running"
  | info => "Info"
  | skipped => "Skipped"
  | warning => "Warning"
  | error => "Error"

def label : Status → String
  | error => "error"
  | s => s.name

/-- The escape sequence that colors the word. -/
def color : Status → String
  | finished | updated | removed => "\x1b[1;32m"
  | cleaning | building | packing | testing | configuring | running => "\x1b[1;36m"
  | info => "\x1b[1;34m"
  | skipped | warning => "\x1b[1;33m"
  | error => "\x1b[1;31m"

end Status

/-- A text set flush right in a column of `width` characters. -/
def flushRight (width : Nat) (s : String) : String :=
  .ofList (List.replicate (width - s.length) ' ') ++ s

/-- A text set flush left in a column of `width` characters. -/
def flushLeft (width : Nat) (s : String) : String :=
  s ++ .ofList (List.replicate (width - s.length) ' ')

structure Console where
  verbosity : Verbosity
  color : Bool
  deriving DecidableEq, Repr, Inhabited

namespace Console

/-- The console of the `--quiet` and `--verbose` flags. Quiet wins. -/
def ofFlags (quiet verbose : Bool) (color : ColorChoice) (terminal : Bool) : Console where
  verbosity := if quiet then .quiet else if verbose then .verbose else .normal
  color := match color with
    | .auto => terminal
    | .always => true
    | .never => false

def allows (c : Console) (s : Status) : Bool := c.verbosity != .quiet || s == .error

theorem allows_quiet {color : Bool} {s : Status} :
    (Console.mk .quiet color).allows s = true ↔ s = .error := by
  cases s <;> simp [allows]

/-- A status line, as it is written. -/
def line (c : Console) (s : Status) (message : String) : String :=
  let word := flushRight 12 s.label
  (if c.color then s.color ++ word ++ "\x1b[0m" else word) ++ " " ++ message ++ "\n"

/-- The message of a line that tells how long some work took. -/
def finishMessage (message : String) (took : String) : String := message ++ " in " ++ took

def verbosityName : Verbosity → String
  | .quiet => "Quiet"
  | .normal => "Normal"
  | .verbose => "Verbose"

/-- The console's settings in one line. -/
def describe (c : Console) : String :=
  "Shell \x7b verbosity: " ++ verbosityName c.verbosity ++ ", color: " ++ toString c.color ++
    ", .. \x7d"

end Console

end ConanPipeline
