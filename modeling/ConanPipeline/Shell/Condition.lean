import ConanPipeline.Shell.Number

/-! Conditions, as the commands `test` and `[` read them.

Serves runs on test inputs only (`Programs/Known`); no theorem depends on it. -/

namespace ConanPipeline.Shell.Condition

abbrev Args := List (List Char)

inductive Sign where
  | unary (symbol : String)
  | binary (symbol : String)
  | negation
  | conjunction
  | disjunction
  | opening
  | closing
  deriving DecidableEq

def unaries : List String :=
  ["-r", "-w", "-x", "-e", "-f", "-d", "-c", "-b", "-p", "-u", "-g", "-k", "-s", "-t", "-z", "-n",
    "-h", "-O", "-G", "-L", "-S"]

def binaries : List String :=
  ["=", "!=", "<", ">", "-eq", "-ne", "-ge", "-gt", "-le", "-lt", "-nt", "-ot", "-ef"]

def sign? (cs : List Char) : Option Sign :=
  let s := String.ofList cs
  if unaries.contains s then some (.unary s)
  else if binaries.contains s then some (.binary s)
  else match s with
    | "!" => some .negation
    | "-a" => some .conjunction
    | "-o" => some .disjunction
    | "(" => some .opening
    | ")" => some .closing
    | _ => none

def isBinary (cs : List Char) : Bool :=
  match sign? cs with
  | some (.binary _) => true
  | _ => false

/-- What the next argument is. -/
inductive Token where
  | nothing
  | operand
  | sign (s : Sign)
  deriving DecidableEq

/-- Whether a sign for one operand is itself an operand, for want of one after it or because of
what comes there. -/
def standsAlone : Args → Bool
  | [] | [_] => true
  | [_, _] => false
  | _ :: a :: _ => isBinary a

def token (args : Args) : Token :=
  match args with
  | [] => .nothing
  | a :: rest =>
    match sign? a with
    | some (.unary s) => if standsAlone args then .operand else .sign (.unary s)
    | some .opening => if rest.isEmpty then .operand else .sign .opening
    | some s => .sign s
    | none => .operand

/-- A condition that is being read, at one of its arguments. -/
abbrev Reading := StateT Args Run

/-- Complains about a condition. -/
def fail {α : Type} (about : List Char) (text : String) : Reading α :=
  StateT.lift (giveUp ((if about.isEmpty then [] else about ++ ofString ": ") ++ ofString text))

/-- Goes on by some arguments, and tells what is there. -/
def move (n : Nat) : Reading Token := do
  modify fun args => args.drop n
  return token (← get)

/-- What comes after the present argument. -/
def ahead : Reading Token := do return token ((← get).drop 1)

/-- The file test that a sign stands for. -/
def holdsOfFile (s : State) (symbol : String) (name : List Char) : Bool :=
  let status := s.files.status s.cwd (asPath name)
  let isLink := match s.files.linkStatus s.cwd (asPath name) with
    | .ok (_, .link _) => true
    | _ => false
  let mode (bit : Nat) : Bool := match status with
    | .ok (_, .file _ mode) => mode &&& bit ≠ 0
    | _ => false
  match symbol with
  | "-e" | "-r" | "-w" | "-O" | "-G" => status.isOk
  | "-f" => s.files.isFile s.cwd (asPath name)
  | "-d" => s.files.isDirectory s.cwd (asPath name)
  | "-x" => s.files.isDirectory s.cwd (asPath name) || s.files.isExecutable s.cwd (asPath name)
  | "-s" => match status with
    | .ok (_, .file contents _) => contents.size > 0
    | .ok _ => true
    | .error _ => false
  | "-h" | "-L" => isLink
  | "-u" => mode 0o4000
  | "-g" => mode 0o2000
  | "-k" => mode 0o1000
  | _ => false

def holdsOfOne (symbol : String) (a : List Char) : Run Bool := do
  match symbol with
  | "-z" => return a.isEmpty
  | "-n" => return !a.isEmpty
  | "-t" => do
    let _ ← Number.read a
    return false
  | _ => return holdsOfFile (← get) symbol a

def holdsOfTwo (symbol : String) (a b : List Char) : Run Bool := do
  let s ← get
  let numbers (holds : Int → Int → Bool) : Run Bool := do
    let x ← Number.read a
    let y ← Number.read b
    return holds x y
  match symbol with
  | "=" => return a = b
  | "!=" => return a ≠ b
  | "<" => return a.lex b
  | ">" => return b.lex a
  | "-eq" => numbers (· == ·)
  | "-ne" => numbers (· != ·)
  | "-ge" => numbers (· ≥ ·)
  | "-gt" => numbers (· > ·)
  | "-le" => numbers (· ≤ ·)
  | "-lt" => numbers (· < ·)
  | "-ef" => return match s.files.status s.cwd (asPath a), s.files.status s.cwd (asPath b) with
    | .ok (l, _), .ok (m, _) => l = m
    | _, _ => false
  | _ => return false

/-- A condition without `-a`, `-o` and `!`. What is in parentheses is left to `whole`. -/
def primary (whole : Token → Reading Bool) : Token → Reading Bool
  | .nothing => return false
  | .sign .opening => do
    let t ← move 1
    if t = .sign .closing then return false
    let holds ← whole t
    if (← move 1) ≠ .sign .closing then fail [] "closing paren expected"
    return holds
  | .sign (.unary symbol) => do
    let _ ← move 1
    match ← get with
    | [] => fail symbol.toList "argument expected"
    | a :: _ => StateT.lift (holdsOfOne symbol a)
  | _ => do
    let a := (← get).headD []
    match ← ahead with
    | .sign (.binary symbol) => do
      let _ ← move 2
      match ← get with
      | [] => fail symbol.toList "argument expected"
      | b :: _ => StateT.lift (holdsOfTwo symbol a b)
    | _ => return !a.isEmpty

/-- Negations, of which there are at most so many. -/
def negated (part : Token → Reading Bool) : Nat → Token → Reading Bool
  | 0, t => part t
  | n + 1, t => do
    if t = .sign .negation then
      let t ← ahead
      if t ≠ .nothing then
        let _ ← move 1
      return !(← negated part n t)
    else part t

/-- Conditions joined by `-a` or `-o`. -/
def joined (sign : Sign) (join : Bool → Bool → Bool) (part : Token → Reading Bool) :
    Nat → Token → Reading Bool
  | 0, t => part t
  | n + 1, t => do
    let a ← part t
    if (← ahead) = .sign sign then
      let t ← move 2
      return join a (← joined sign join part n t)
    else return a

def whole : Nat → Token → Reading Bool
  | 0, _ => return false
  | n + 1, t =>
    joined .disjunction or
      (joined .conjunction and (negated (primary (whole n)) n) n) n t

/-- Reads a condition to its end. -/
def complete (args : Args) (t : Token) : Run Bool := do
  let (holds, rest) ← (whole (args.length + 1) t).run args
  match rest with
  | a :: _ :: _ => (fail a "unexpected operator" : Reading Bool).run' []
  | _ => return holds

/-- Whether a condition holds, or does not if it is flipped. Of three or four arguments, some
readings go before others. -/
def holdsWithin : Nat → Bool → Args → Run Bool
  | 0, _, _ => return false
  | n + 1, flipped, args => do
    let read (args : Args) (t : Token) : Run Bool := do return (← complete args t) != flipped
    let choose : Run Bool :=
      if args.head? = some ['('] && args.getLast? = some [')'] then
        let inside := (args.drop 1).dropLast
        read inside (token inside)
      else if args.head? = some ['!'] then holdsWithin n true (args.drop 1)
      else read args (token args)
    match args with
    | [] => return flipped
    | [_, op, _] => if isBinary op then read args .operand else choose
    | [_, _, _, _] => choose
    | _ => read args (token args)

/-- The command `test`, or `[` with its closing bracket among the arguments. -/
def test (name : List Char) (args : Args) : Run Nat := do
  let bracket := name = ['[']
  if bracket && args.getLast? ≠ some [']'] then giveUp (ofString "missing ]")
  let args := if bracket then args.dropLast else args
  let holds ← holdsWithin 3 false args
  return if holds then 0 else 1

end ConanPipeline.Shell.Condition
