import ConanPipeline.Text.Property

/-! Text between double quotes, on one line: quotes and backslashes are escaped,
line ends and tabs have their letters, and what cannot be seen by itself is written
by its number. -/

namespace ConanPipeline.Text

def lowerHex (n : Nat) : List Char := Nat.toDigits 16 n

/-- A code point by its number, in braces. -/
def numbered (c : Char) : List Char := '\\' :: 'u' :: '\x7b' :: lowerHex c.toNat ++ ['\x7d']

/-- One character between the quotes. The flag says to escape the single quote too. -/
def escaped (single : Bool) (c : Char) : List Char :=
  if c = '\x00' then ['\\', '0']
  else if c = '\t' then ['\\', 't']
  else if c = '\r' then ['\\', 'r']
  else if c = '\n' then ['\\', 'n']
  else if c = '\\' || c = '"' || (single && c = '\'') then ['\\', c]
  else if isAttached c || !isPrintable c then numbered c
  else [c]

/-- A text shown in quotes. -/
def quoted (s : String) : String := .ofList ('"' :: s.toList.flatMap (escaped false) ++ ['"'])

/-- A path shown in quotes. -/
def quotedPath (s : String) : String := .ofList ('"' :: s.toList.flatMap (escaped true) ++ ['"'])

end ConanPipeline.Text
