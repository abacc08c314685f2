import ConanPipeline.Text.Blank

/-! Command lines. `split` reads words with quotes and backslashes; `display`
writes words so that blanks and quotes in them stay apart. -/

namespace ConanPipeline.Words

/-- Where in a word the reader stands. -/
inductive Quote where
  | bare
  | single
  | double
  deriving DecidableEq, Repr

/-- The words of the rest of a line, given the quotes around it and the word begun so far.
`none` if the line ends inside quotes. -/
def read : Quote → Option (List Char) → List Char → Option (List (List Char))
  | .bare, w, [] => some w.toList
  | .single, _, [] => none
  | .double, _, [] => none
  | .bare, w, '\\' :: [] => some [w.getD []]
  | .bare, w, '\\' :: c :: cs => read .bare (some (w.getD [] ++ [c])) cs
  | .bare, w, c :: cs =>
    if Text.isBlank c then (read .bare none cs).map (w.toList ++ ·)
    else if c = '\'' then read .single (some (w.getD [])) cs
    else if c = '"' then read .double (some (w.getD [])) cs
    else read .bare (some (w.getD [] ++ [c])) cs
  | .single, w, c :: cs =>
    if c = '\'' then read .bare w cs else read .single (some (w.getD [] ++ [c])) cs
  | .double, _, '\\' :: [] => none
  | .double, w, '\\' :: c :: cs =>
    if c = '"' || c = '\\' then read .double (some (w.getD [] ++ [c])) cs
    else read .double (some (w.getD [] ++ ['\\', c])) cs
  | .double, w, c :: cs =>
    if c = '"' then read .bare w cs else read .double (some (w.getD [] ++ [c])) cs

/-- The words of a line: blanks separate them, single quotes group literally, double quotes
group and know `\"` and `\\`, and a backslash outside quotes takes the next character. -/
def split (line : List Char) : Option (List (List Char)) := read .bare none line

/-- Whether a word is shown in single quotes. -/
def needsQuotes (w : List Char) : Bool :=
  w.isEmpty || w.any fun c => Text.isBlank c || c == '"' || c == '\''

/-- A single quote inside single quotes: leave them, an escaped quote, enter them again. -/
def quoteChar (c : Char) : List Char := if c = '\'' then ['\'', '\\', '\'', '\''] else [c]

def quote (w : List Char) : List Char :=
  if needsQuotes w then '\'' :: w.flatMap quoteChar ++ ['\''] else w

def display (ws : List (List Char)) : List Char := [' '].intercalate (ws.map quote)

/-- The words of a line, as strings. -/
def ofLine (line : String) : Option (List String) := (split line.toList).map (·.map .ofList)

end ConanPipeline.Words
