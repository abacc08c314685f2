import ConanPipeline.Shell.State

/-! File name patterns: stars, question marks, sets of characters, and backslashes that
quote what follows. A character of a pattern is active unless it was quoted before; only
active ones mean anything but themselves.

Serves runs on test inputs only (`Programs/Known`); no theorem depends on it. -/

namespace ConanPipeline.Shell

abbrev Pattern := List (Char × Bool)

namespace Pattern

def text (p : Pattern) : List Char := p.map Prod.fst

def isGraph (c : Char) : Bool := '!' ≤ c && c ≤ '~'

def isPunctuation (c : Char) : Bool := isGraph c && !c.isAlphanum

def isControl (c : Char) : Bool := c < ' ' || c = '\x7f'

def isSpace (c : Char) : Bool := c = ' ' || ('\t' ≤ c && c ≤ '\r')

def isHexDigit (c : Char) : Bool :=
  c.isDigit || ('a' ≤ c && c ≤ 'f') || ('A' ≤ c && c ≤ 'F')

/-- The kinds of characters that a set may name. -/
def kinds : List (String × (Char → Bool)) :=
  [("alnum", Char.isAlphanum), ("alpha", Char.isAlpha), ("blank", fun c => c = ' ' || c = '\t'),
    ("cntrl", isControl), ("digit", Char.isDigit), ("graph", isGraph), ("lower", Char.isLower),
    ("print", fun c => isGraph c || c = ' '), ("punct", isPunctuation), ("space", isSpace),
    ("upper", Char.isUpper), ("xdigit", isHexDigit)]

/-- The kind that a pattern goes on with, and what follows it. -/
def kind? (p : Pattern) : Option ((Char → Bool) × Pattern) :=
  kinds.findSome? fun (name, holds) =>
    let word := ':' :: name.toList ++ [':', ']']
    if word.isPrefixOf p.text && (p.take word.length).all Prod.snd then
      some (holds, p.drop word.length)
    else none

/-- A pattern whose first character is quoted if a backslash stood before it. -/
def bare : Pattern → Pattern
  | ('\\', true) :: (d, _) :: p => (d, false) :: p
  | p => p

/-- What a pattern without stars and sets stands for. -/
def literal : Pattern → List Char
  | [] => []
  | ('\\', true) :: (d, _) :: p => d :: literal p
  | (c, _) :: p => c :: literal p

/-- The members of a set up to its closing bracket, and what follows it. The first member may be a
closing bracket itself. -/
def members : Nat → Pattern → Option ((Char → Bool) × Pattern)
  | 0, _ => none
  | n + 1, p =>
    let more (holds : Char → Bool) (rest : Pattern) : Option ((Char → Bool) × Pattern) :=
      match rest with
      | [] => none
      | (']', true) :: rest => some (holds, rest)
      | rest => (members n rest).map fun (others, after) => (fun c => holds c || others c, after)
    match bare p with
    | [] => none
    | (c, active) :: rest =>
      match if c = '[' && active then kind? rest else none with
      | some (holds, rest) => more holds rest
      | none =>
        match rest with
        | ('-', true) :: last =>
          match bare last with
          | (d, a) :: rest' =>
            if d = ']' && a then more (· == c) rest
            else more (fun x => c ≤ x && x ≤ d) rest'
          | [] => more (· == c) rest
        | _ => more (· == c) rest

/-- A set of characters whose opening bracket has been read, and what follows the set. -/
def set? (p : Pattern) : Option ((Char → Bool) × Pattern) :=
  match p with
  | ('!', true) :: rest =>
    (members rest.length rest).map fun (holds, after) => (fun c => !holds c, after)
  | _ => members p.length p

/-- Whether a text fits a pattern; the count is that of the characters in both. -/
def fitsWithin : Nat → Pattern → List Char → Bool
  | 0, p, cs => p.isEmpty && cs.isEmpty
  | _ + 1, [], cs => cs.isEmpty
  | n + 1, (c, active) :: ps, cs =>
    let one (holds : Char → Bool) (ps : Pattern) : Bool :=
      match cs with
      | [] => false
      | d :: rest => holds d && fitsWithin n ps rest
    if !active then one (· == c) ps
    else if c = '*' then
      fitsWithin n ps cs || (match cs with
        | [] => false
        | _ :: rest => fitsWithin n ((c, active) :: ps) rest)
    else if c = '?' then one (fun _ => true) ps
    else if c = '\\' then
      match ps with
      | [] => one (· == c) ps
      | (d, _) :: ps => one (· == d) ps
    else if c = '[' then
      match set? ps with
      | some (holds, after) => one holds after
      | none => one (· == c) ps
    else one (· == c) ps

def fits (p : Pattern) (cs : List Char) : Bool := fitsWithin (p.length + cs.length) p cs

/-- Whether a bracket is closed after at least one member. -/
def closes : Pattern → Bool
  | ('\\', true) :: _ :: (d, b) :: p => (d = ']' && b) || closes ((d, b) :: p)
  | _ :: (d, b) :: p => (d = ']' && b) || closes ((d, b) :: p)
  | _ => false

/-- Whether a name in a path stands for other names. -/
def isActive : Pattern → Bool
  | [] => false
  | ('\\', true) :: _ :: p => isActive p
  | (c, active) :: p =>
    (active && (c = '*' || c = '?' || (c = '[' && closes (match p with
      | ('!', true) :: p => p
      | p => p)))) || isActive p

/-- The parts of a pattern between slashes. -/
def parts : Pattern → List Pattern
  | [] => [[]]
  | ('\\', true) :: ('/', _) :: p => [] :: parts p
  | (c, active) :: p =>
    if c = '/' then [] :: parts p
    else match parts p with
      | [] => [[(c, active)]]
      | w :: ws => ((c, active) :: w) :: ws

/-- The names in a directory that fit a pattern. A dot in front has to be written out. -/
def namesIn (fs : FileSystem) (cwd : Location) (dir : List Char) (p : Pattern) :
    List (List Char) :=
  match fs.status cwd (if dir.isEmpty then ⟨"."⟩ else asPath dir) with
  | .ok (l, .directory) =>
    (['.'] :: ['.', '.'] :: (fs.names l).map ofString).filter fun n =>
      fits p n && (n.head? ≠ some '.' || p.literal.head? = some '.')
  | _ => []

/-- The paths below `dir` that fit the parts of a pattern. -/
def pathsIn (fs : FileSystem) (cwd : Location) (dir : List Char) :
    List Pattern → List (List Char)
  | [] => []
  | [p] =>
    if isActive p then (namesIn fs cwd dir p).map (dir ++ ·)
    else
      let path := dir ++ p.literal
      if (fs.linkStatus cwd (asPath path)).isOk then [path] else []
  | p :: ps =>
    if isActive p then
      (namesIn fs cwd dir p).flatMap fun n => pathsIn fs cwd (dir ++ n ++ ['/']) ps
    else pathsIn fs cwd (dir ++ p.literal ++ ['/']) ps

/-- The paths that a pattern stands for, in order; the pattern itself if there are none. -/
def paths (fs : FileSystem) (cwd : Location) (p : Pattern) : List (List Char) :=
  if (parts p).any isActive then
    match pathsIn fs cwd [] (parts p) with
    | [] => [p.text]
    | found => found.mergeSort fun a b => !b.lex a
  else [p.text]

/-- How long the part at the front of a text is that fits a pattern, the shortest or the longest
one. -/
def frontLength (p : Pattern) (longest : Bool) (cs : List Char) : Option Nat :=
  let lengths := List.range (cs.length + 1)
  (if longest then lengths.reverse else lengths).find? fun n => fits p (cs.take n)

/-- A text without the part at one of its ends that fits a pattern. -/
def trim (p : Pattern) (fromEnd longest : Bool) (cs : List Char) : List Char :=
  if fromEnd then
    let lengths := List.range (cs.length + 1)
    match (if longest then lengths else lengths.reverse).find? fun n => fits p (cs.drop n) with
    | some n => cs.take n
    | none => cs
  else
    match frontLength p longest cs with
    | some n => cs.drop n
    | none => cs

end Pattern

end ConanPipeline.Shell
