import ConanPipeline.Shell.Number

/-! Calculations with whole numbers of 64 bits. They read and set variables; what a
condition rules out is read but not done.

Serves runs on test inputs only (`Programs/Known`); no theorem depends on it. -/

namespace ConanPipeline.Shell.Arithmetic

inductive Token where
  | number (n : Int)
  | name (text : List Char)
  | operator (symbol : String)
  | bad
  deriving DecidableEq

/-- The operators between two numbers, those that bind tighter first. -/
def levels : List (List String) :=
  [["*", "/", "%"], ["+", "-"], ["<<", ">>"], ["<", "<=", ">", ">="], ["==", "!="], ["&"], ["^"],
    ["|"]]

def assignments : List String :=
  ["=", "*=", "/=", "%=", "+=", "-=", "<<=", ">>=", "&=", "^=", "|="]

/-- All operators, a longer one before those that it starts with. -/
def symbols : List String :=
  ["<<=", ">>=", "<<", ">>", "<=", ">=", "==", "!=", "&&", "||", "*=", "/=", "%=", "+=", "-=",
    "&=", "^=", "|=", "=", "<", ">", "*", "/", "%", "+", "-", "&", "^", "|", "!", "~", "?", ":",
    "(", ")"]

/-- The tokens of a calculation, as far as it can be understood. -/
def tokens : Nat → List Char → List Token
  | 0, _ => []
  | n + 1, cs =>
    match cs with
    | [] => []
    | c :: rest =>
      if c = ' ' || c = '\t' || c = '\n' then tokens n rest
      else if c.isDigit then
        match Number.leading? true cs with
        | some (x, rest) => .number (Number.clamp x) :: tokens n rest
        | none => [.bad]
      else if isNameStart c then
        .name (cs.takeWhile isNameChar) :: tokens n (cs.dropWhile isNameChar)
      else
        match symbols.find? fun s => s.toList.isPrefixOf cs with
        | some s => .operator s :: tokens n (cs.drop s.length)
        | none => [.bad]

/-- A calculation that is being done, with the tokens that are left of it. -/
abbrev Calculation := StateT (List Token) Run

/-- Gives up the calculation of a text. -/
def fail {α : Type} (text : List Char) (reason : String) : Calculation α :=
  StateT.lift (giveUp (ofString ("arithmetic expression: " ++ reason ++ ": \"") ++ text ++ ['"']))

/-- Takes an operator, if it comes next. -/
def take (symbols : List String) : Calculation (Option String) := do
  match ← get with
  | .operator s :: rest =>
    if symbols.contains s then
      set rest
      return some s
    else return none
  | _ => return none

def truth (b : Bool) : Int := if b then 1 else 0

/-- The number for an amount to shift by. -/
def shift (n : Int) : Nat := (n % 64).toNat

def apply (text : List Char) (symbol : String) (a b : Int) : Calculation Int :=
  match symbol with
  | "*" => return Number.wrap (a * b)
  | "/" => if b = 0 then fail text "division by zero" else return Number.wrap (a.tdiv b)
  | "%" => if b = 0 then fail text "division by zero" else return a.tmod b
  | "+" => return Number.wrap (a + b)
  | "-" => return Number.wrap (a - b)
  | "<<" => return Number.wrap (a <<< shift b)
  | ">>" => return a >>> shift b
  | "<" => return truth (a < b)
  | "<=" => return truth (a ≤ b)
  | ">" => return truth (a > b)
  | ">=" => return truth (a ≥ b)
  | "==" => return truth (a = b)
  | "!=" => return truth (a ≠ b)
  | "&" => return (BitVec.ofInt 64 a &&& BitVec.ofInt 64 b).toInt
  | "^" => return (BitVec.ofInt 64 a ^^^ BitVec.ofInt 64 b).toInt
  | _ => return (BitVec.ofInt 64 a ||| BitVec.ofInt 64 b).toInt

/-- The number that a variable holds. -/
def lookup (name : List Char) : Calculation Int := StateT.lift do
  let value := ((← get).get? name).getD []
  match Number.whole? true value with
  | some n => return n
  | none => giveUp (ofString "Illegal number: " ++ value)

/-- Reads the values of a calculation. The flag `idle` says that nothing is to be done. -/
abbrev Value := Bool → Calculation Int

/-- Numbers joined by operators of one level, from left to right. -/
def joined (text : List Char) (tighter : Value) (symbols : List String) (idle : Bool) (a : Int) :
    Nat → Calculation Int
  | 0 => return a
  | n + 1 => do
    match ← take symbols with
    | none => return a
    | some s =>
      let b ← tighter idle
      joined text tighter symbols idle (← if idle then pure b else apply text s a b) n

def binary (text : List Char) (primary : Value) (n : Nat) : Value :=
  levels.foldl (fun tighter symbols idle => do
    joined text tighter symbols idle (← tighter idle) n) primary

def both (part : Value) (n : Nat) : Value :=
  match n with
  | 0 => part
  | n + 1 => fun idle => do
    let a ← part idle
    if (← take ["&&"]).isNone then return a
    let b ← both part n (idle || a = 0)
    return truth (a ≠ 0 && b ≠ 0)

def either (part : Value) (n : Nat) : Value :=
  match n with
  | 0 => part
  | n + 1 => fun idle => do
    let a ← part idle
    if (← take ["||"]).isNone then return a
    let b ← either part n (idle || a ≠ 0)
    return truth (a ≠ 0 || b ≠ 0)

/-- A choice between two values. -/
def choice (text : List Char) (part whole : Value) (n : Nat) : Value :=
  match n with
  | 0 => part
  | n + 1 => fun idle => do
    let a ← part idle
    if (← take ["?"]).isNone then return a
    let b ← whole (idle || a = 0)
    if (← take [":"]).isNone then fail text "expecting ':'"
    let c ← choice text part whole n (idle || a ≠ 0)
    return if a ≠ 0 then b else c

mutual

def primary (text : List Char) : Nat → Value
  | 0, _ => fail text "expecting primary"
  | n + 1, idle => do
    match ← get with
    | .number x :: rest => set rest; return x
    | .name x :: rest =>
      set rest
      if idle then return 0 else lookup x
    | .operator "(" :: rest =>
      set rest
      let x ← value text n idle
      if (← take [")"]).isNone then fail text "expecting ')'"
      return x
    | .operator "+" :: rest => set rest; primary text n idle
    | .operator "-" :: rest => set rest; return Number.wrap (-(← primary text n idle))
    | .operator "!" :: rest => set rest; return truth ((← primary text n idle) = 0)
    | .operator "~" :: rest => set rest; return -(← primary text n idle) - 1
    | _ => fail text "expecting primary"

/-- A value, with the variables that are set on the way. -/
def value (text : List Char) : Nat → Value
  | 0, _ => fail text "expecting primary"
  | n + 1, idle => do
    let plain : Value :=
      choice text (either (both (binary text (primary text n) n) n) n) (value text n) n
    match ← get with
    | .name x :: .operator s :: rest =>
      if assignments.contains s then
        set rest
        let b ← value text n idle
        if idle then return b
        let n ← if s = "=" then pure b
          else do apply text (s.dropEnd 1).toString (← lookup x) b
        StateT.lift (Shell.assign x (decimal n))
        return n
      else plain idle
    | _ => plain idle

end

/-- The value of a calculation. -/
def evaluate (text : List Char) : Run Int := do
  let ts := tokens (text.length + 1) text
  let (x, rest) ← (value text (2 * ts.length + 2) false).run ts
  if !rest.isEmpty then
    let _ ← (fail (α := Unit) text "expecting EOF").run rest
  return x

end ConanPipeline.Shell.Arithmetic
