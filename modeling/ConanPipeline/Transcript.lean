import ConanPipeline.Cli.Filter
import ConanPipeline.Text.Utf8

/-! The record of a run as text: what the console showed, what was logged, and what
reached the two output streams. -/

namespace ConanPipeline.Transcript

/-- How the lines of a record are written. -/
structure Style where
  console : Console
  filter : Filter
  /-- The text for a length of time. -/
  took : Duration → String := Duration.label

def shown? (s : Style) : Event → Option String
  | .shown status message => some (s.console.line status message)
  | .finished message took =>
    some (s.console.line .finished (Console.finishMessage message (s.took took)))
  | _ => none

/-- A control character that a terminal would act on, as an escape; any other one as it is. -/
def harmless (c : Char) : List Char :=
  if c = '\x1b' then "\\x1b".toList
  else if c = '\x07' then "\\x07".toList
  else if c = '\x08' then "\\x08".toList
  else if c = '\x0c' then "\\x0c".toList
  else if c = '\x7f' then "\\x7f".toList
  else if 0x80 ≤ c.toNat && c.toNat ≤ 0x9f then
    "\\u\x7b".toList ++ Nat.toDigits 16 c.toNat ++ ['\x7d']
  else [c]

/-- A log line: the level flush right in five columns, then the message. -/
def logLine (level : Level) (message : String) : String :=
  flushRight 5 level.name ++ " " ++ .ofList (message.toList.flatMap harmless) ++ "\n"

def logged? (s : Style) : Event → Option String
  | .logged level source message =>
    if s.filter.allows level source then some (logLine level message) else none
  | _ => none

def childOut? : Event → Option String
  | .childOut bytes => some (Text.ofBytes bytes)
  | _ => none

def childErr? : Event → Option String
  | .childErr bytes => some (Text.ofBytes bytes)
  | _ => none

def stdout? : Event → Option String
  | .printed text => some text
  | e => childOut? e

def stderr? (s : Style) : Event → Option String
  | .complained text => some text
  | e => (shown? s e).orElse fun _ => (logged? s e).orElse fun _ => childErr? e

/-- The text of the entries that `f` picks. -/
def collect (f : Event → Option String) (es : List Event) : String :=
  String.join (es.filterMap f)

def call? : Event → Option Invocation
  | .called call => some call
  | _ => none

def calls (es : List Event) : List Invocation := es.filterMap call?

end ConanPipeline.Transcript
