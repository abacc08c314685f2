import ConanPipeline.Text.Blank

/-! Shell scripts as trees: words made of pieces, and commands made of words. A script
is read byte by byte, each byte as one character.

Serves runs on test inputs only (`Programs/Known`); no theorem depends on it. -/

namespace ConanPipeline.Shell

/-- How the file of a redirection is opened. -/
inductive Opening where
  | read
  | write
  /-- Writing, even where existing files are protected. -/
  | overwrite
  | append
  | readWrite
  deriving DecidableEq, Repr

mutual

/-- A piece of a word. What is quoted is taken as it is. -/
inductive Piece where
  | text (cs : List Char) (quoted : Bool)
  | parameter (name : List Char) (use : Use) (quoted : Bool)
  | command (body : Option Node) (quoted : Bool)
  | arithmetic (expr : List Piece) (quoted : Bool)

/-- What is made of a parameter. The flag of the first four says that an empty value counts as
none. -/
inductive Use where
  | plain
  | length
  | broken
  | orElse (orEmpty : Bool) (w : List Piece)
  | assign (orEmpty : Bool) (w : List Piece)
  | demand (orEmpty : Bool) (w : List Piece)
  | instead (orEmpty : Bool) (w : List Piece)
  | trim (fromEnd longest : Bool) (w : List Piece)

inductive Redirect where
  | file (fd : Nat) (opening : Opening) (name : List Piece)
  | duplicate (fd : Nat) (source : List Piece)
  /-- Text from the script itself, by its number. -/
  | here (fd : Nat) (document : Nat)

inductive Node where
  | simple (line : Nat) (assigns words : List (List Piece)) (redirects : List Redirect)
  | pipe (parts : List Node)
  | redirected (line : Nat) (body : Node) (redirects : List Redirect)
  | background (body : Node)
  | subshell (line : Nat) (body : Node) (redirects : List Redirect)
  | both (a b : Node)
  | either (a b : Node)
  | sequence (a b : Node)
  | unless (a : Node)
  | branch (test yes : Node) (no : Option Node)
  | loop (until' : Bool) (test body : Node)
  | each (line : Nat) (name : List Char) (words : List (List Piece)) (body : Node)
  | choose (line : Nat) (word : List Piece) (cases : List (List (List Piece) × Option Node))
  | define (name : List Char) (body : Node)

end

abbrev Word := List Piece

deriving instance Inhabited for Piece, Use, Redirect, Node

namespace Word

/-- The characters of a word that is nothing but unquoted text. -/
def plain? : Word → Option (List Char)
  | [] => some []
  | .text cs false :: w => (plain? w).map (cs ++ ·)
  | _ :: _ => none

/-- Puts a piece in front, joined with a like one. -/
def cons (p : Piece) (w : Word) : Word :=
  match p, w with
  | .text a false, .text b false :: w => .text (a ++ b) false :: w
  | .text a true, .text b true :: w => .text (a ++ b) true :: w
  | p, w => p :: w

end Word

def isNameStart (c : Char) : Bool := c.isAlpha || c == '_'

def isNameChar (c : Char) : Bool := c.isAlphanum || c == '_'

def isName (cs : List Char) : Bool :=
  match cs with
  | [] => false
  | c :: cs => isNameStart c && cs.all isNameChar

/-- The special parameters that are one character long, digits apart. -/
def isSpecial (c : Char) : Bool := "?$#!@*-".toList.contains c

/-- An assignment: a name, and the word after its equals sign. -/
def assignment? (w : Word) : Option (List Char × Word) :=
  match w with
  | .text cs false :: rest =>
    match Text.cutAt '=' cs with
    | some (name, value) =>
      if isName name then some (name, if value.isEmpty then rest else .text value false :: rest)
      else none
    | none => none
  | _ => none

/-- Builtin commands after which a failure ends the shell. -/
def specialNames : List String :=
  [".", ":", "break", "continue", "eval", "exec", "exit", "export", "local", "readonly", "return",
    "set", "shift", "times", "trap", "unset"]

def keywords : List String :=
  ["!", "\x7b", "\x7d", "case", "do", "done", "elif", "else", "esac", "fi", "for", "if", "in",
    "then", "until", "while"]

end ConanPipeline.Shell
