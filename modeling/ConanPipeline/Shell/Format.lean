import ConanPipeline.Shell.Real

/-! What `echo` and `printf` print: backslash escapes, and formats whose directives are
filled with arguments, again and again while there are any.

Serves runs on test inputs only (`Programs/Known`); no theorem depends on it. -/

namespace ConanPipeline.Shell

/-- Reads the options of a builtin command; a colon follows a letter that takes an argument. -/
def optionsWithin (allowed : List Char) :
    Nat → List (List Char) → Run (List (Char × List Char) × List (List Char))
  | 0, args => return ([], args)
  | n + 1, args => do
    match args with
    | ('-' :: c :: more) :: rest =>
      if c = '-' && more.isEmpty then return ([], rest)
      else letters n (c :: more) rest
    | _ => return ([], args)
where
  /-- Reads the letters of one argument. -/
  letters (n : Nat) : List Char → List (List Char) →
      Run (List (Char × List Char) × List (List Char))
    | [], rest => optionsWithin allowed n rest
    | c :: more, rest => do
      if c = ':' || !allowed.contains c then giveUp (ofString "Illegal option -" ++ [c])
      let takes := ((allowed.dropWhile (· ≠ c)).drop 1).head? = some ':'
      if !takes then
        let (os, args) ← letters n more rest
        return ((c, []) :: os, args)
      else if !more.isEmpty then
        let (os, args) ← optionsWithin allowed n rest
        return ((c, more) :: os, args)
      else match rest with
        | [] => giveUp (ofString "No arg for -" ++ [c] ++ ofString " option")
        | a :: rest =>
          let (os, args) ← optionsWithin allowed n rest
          return ((c, a) :: os, args)

def options (allowed : String) (args : List (List Char)) :
    Run (List (Char × List Char) × List (List Char)) :=
  optionsWithin allowed.toList args.length args

namespace Format

def isOctal (c : Char) : Bool := '0' ≤ c && c ≤ '7'

def simpleEscapes : List (Char × Char) :=
  [('\\', '\\'), ('a', '\x07'), ('b', '\x08'), ('e', '\x1b'), ('f', '\x0c'), ('n', '\n'),
    ('r', '\r'), ('t', '\t'), ('v', '\x0b')]

def byte (n : Nat) : Char := Char.ofNat (n % 256)

/-- What stands for the escape after a backslash, and what follows it. -/
def escape (cs : List Char) : Char × List Char :=
  match cs with
  | [] => ('\\', [])
  | c :: rest =>
    if isOctal c then
      let ds := (cs.take 3).takeWhile isOctal
      (byte (Number.valueOf 8 ds), cs.drop ds.length)
    else match simpleEscapes.lookup c with
      | some x => (x, rest)
      | none => ('\\', cs)

/-- A text with its escapes written out. The flag is unset if `\c` ends all output. -/
def unescapeWithin : Nat → List Char → List Char × Bool
  | 0, _ => ([], true)
  | n + 1, cs =>
    let on (c : Char) (rest : List Char) : List Char × Bool :=
      let r := unescapeWithin n rest
      (c :: r.1, r.2)
    match cs with
    | [] => ([], true)
    | '\\' :: 'c' :: _ => ([], false)
    | '\\' :: '0' :: d :: rest =>
      let (c, after) := escape (if isOctal d then d :: rest else '0' :: d :: rest)
      on c after
    | '\\' :: rest =>
      let (c, after) := escape rest
      on c after
    | c :: rest => on c rest

def unescape (cs : List Char) : List Char × Bool := unescapeWithin cs.length cs

/-- The arguments with blanks between them, up to one that ends all output. -/
def echoed (newline : Bool) : List (List Char) → List Char
  | [] => if newline then ['\n'] else []
  | a :: as =>
    let (text, goes) := unescape a
    if !goes then text
    else if as.isEmpty then text ++ (if newline then ['\n'] else [])
    else text ++ [' '] ++ echoed newline as

def echo (args : List (List Char)) : List Char :=
  match args with
  | ['-', 'n'] :: args => echoed false args
  | args => echoed true args

/-- A directive of a format. -/
structure Directive where
  flags : List Char
  width : Nat := 0
  precision : Option Nat := none
  /-- As it is written, for complaints. -/
  source : List Char

namespace Directive

def has (d : Directive) (c : Char) : Bool := d.flags.contains c

/-- Fills a field up with blanks. -/
def pad (d : Directive) (cs : List Char) : List Char :=
  let blanks := List.replicate (d.width - cs.length) ' '
  if d.has '-' then cs ++ blanks else blanks ++ cs

/-- Fills a field up, with zeros after what stands in front of a number if zeros are wanted. -/
def padNumber (d : Directive) (zeros : Bool) (front cs : List Char) : List Char :=
  if zeros && d.has '0' && !d.has '-' then
    front ++ List.replicate (d.width - front.length - cs.length) '0' ++ cs
  else d.pad (front ++ cs)

def signOf (d : Directive) (negative : Bool) : List Char :=
  if negative then ['-'] else if d.has '+' then ['+'] else if d.has ' ' then [' '] else []

def text (d : Directive) (cs : List Char) : List Char :=
  d.pad (match d.precision with
    | some p => cs.take p
    | none => cs)

/-- The digits of a number, no fewer than the precision tells. -/
def digits (d : Directive) (ds : List Char) : List Char :=
  match d.precision with
  | some p =>
    let ds := if ds = ['0'] then [] else ds
    List.replicate (p - ds.length) '0' ++ ds
  | none => ds

def integer (d : Directive) (n : Int) : List Char :=
  d.padNumber d.precision.isNone (d.signOf (n < 0)) (d.digits (Nat.repr n.natAbs).toList)

def natural (d : Directive) (letter : Char) (n : Nat) : List Char :=
  let base := if letter = 'o' then 8 else if letter = 'u' then 10 else 16
  let ds := d.digits (Nat.toDigits base n)
  let front := if d.has '#' && letter.toLower = 'x' && n ≠ 0 then ['0', 'x'] else []
  let ds := if d.has '#' && letter = 'o' && ds.head? ≠ some '0' then '0' :: ds else ds
  let raised (cs : List Char) : List Char := if letter = 'X' then cs.map Char.toUpper else cs
  d.padNumber d.precision.isNone (raised front) (raised ds)

def real (d : Directive) (letter : Char) (x : Real) : List Char :=
  let raised (cs : List Char) : List Char := if letter.isUpper then cs.map Char.toUpper else cs
  match x with
  | .infinite negative => d.padNumber false (d.signOf negative) (raised "inf".toList)
  | .undefined negative => d.padNumber false (d.signOf negative) (raised "nan".toList)
  | .finite negative size scale =>
    let sharp := d.has '#'
    let places := d.precision.getD 6
    let cs := match letter.toLower with
      | 'f' => Real.fixed sharp places size scale
      | 'e' => Real.scientific sharp places size scale
      | 'g' => Real.general sharp places size scale
      | _ => Real.hexadecimal sharp d.precision size scale
    if letter.toLower = 'a' then
      d.padNumber true (d.signOf negative ++ raised (cs.take 2)) (raised (cs.drop 2))
    else d.padNumber true (d.signOf negative) (raised cs)

end Directive

/-- What is left of the arguments, and whether one could not be understood. -/
structure Filling where
  args : List (List Char)
  failed : Bool := false

abbrev Fill := StateT Filling Run

/-- Takes the next argument. -/
def next : Fill (Option (List Char)) := do
  let f ← get
  set { f with args := f.args.drop 1 }
  return f.args.head?

def nextText : Fill (List Char) := do return (← next).getD []

/-- Complains about an argument of which `rest` was not understood. -/
def check (arg rest : List Char) (inRange : Bool) : Fill Unit := do
  let warn (text : String) : Fill Unit := do
    StateT.lift (complain (arg ++ ofString (": " ++ text)))
    modify fun f => { f with failed := true }
  if !rest.isEmpty then
    warn (if rest.length = arg.length then "expected numeric value"
      else "not completely converted")
  else if !inRange then warn "Numerical result out of range"

/-- The character after a quote, as a number. -/
def quoted? (arg : List Char) : Option Nat :=
  match arg with
  | c :: rest => if c = '"' || c = '\'' then some ((rest.headD '\x00').toNat) else none
  | [] => none

def nextInteger (signed : Bool) : Fill Int := do
  match ← next with
  | none => return 0
  | some arg =>
    match quoted? arg with
    | some n => return n
    | none =>
      let (n, rest) := (Number.leading? true arg).getD (0, arg)
      if signed then
        check arg rest (Number.fitsSigned n)
        return Number.clamp n
      else
        let inRange : Bool := n.natAbs < UInt64.size
        check arg rest inRange
        return if inRange then n % UInt64.size else UInt64.size - 1

def nextReal : Fill Real := do
  match ← next with
  | none => return .finite false 0 0
  | some arg =>
    match quoted? arg with
    | some n => return (Real.nearest false n 1).1
    | none =>
      let (x, out, rest) := (Real.leading? arg).getD (.finite false 0 0, false, arg)
      check arg rest !out
      return x

def isFlag (c : Char) : Bool := "#-+ 0".toList.contains c

/-- A number in a directive: written out, or taken from the arguments. -/
def amount (cs : List Char) : Fill (Option Int × List Char) := do
  match cs with
  | '*' :: rest => return (some (Int32.ofInt (← nextInteger true)).toInt, rest)
  | _ =>
    let ds := cs.takeWhile fun c => c.isDigit || c = '*'
    return (if ds.isEmpty then none else some (Number.valueOf 10 (ds.takeWhile Char.isDigit)),
      cs.drop ds.length)

/-- Reads a directive after its percent sign, up to its letter. -/
def directive (cs : List Char) : Fill (Directive × List Char) := do
  let flags := cs.takeWhile isFlag
  let (width, rest) ← amount (cs.drop flags.length)
  let w := width.getD 0
  let flags := if w < 0 then '-' :: flags else flags
  let (precision, rest) ← match rest with
    | '.' :: more => do
      let (p, more) ← amount more
      let p := p.getD 0
      pure (if p < 0 then none else some p.toNat, more)
    | _ => pure (none, rest)
  return ({ flags, width := w.natAbs, precision
            source := '%' :: cs.take (cs.length - rest.length + 1) }, rest)

def put (cs : List Char) : Fill Unit := StateT.lift (emit cs)

/-- Goes through a format once. The result says whether output goes on. -/
def once : Nat → List Char → Fill Bool
  | 0, _ => return true
  | n + 1, cs => do
    match cs with
    | [] => return true
    | '\\' :: rest =>
      let (c, rest) := escape rest
      put [c]
      once n rest
    | '%' :: '%' :: rest =>
      put ['%']
      once n rest
    | '%' :: rest =>
      let (d, rest) ← directive rest
      match rest with
      | [] => StateT.lift (giveUp (ofString "missing format character"))
      | letter :: rest =>
        if letter = 'b' then
          let (text, goes) := unescape (← nextText)
          put (d.text text)
          if !goes then return false
        else if letter = 'c' then put (d.pad [(← nextText).headD '\x00'])
        else if letter = 's' then put (d.text (← nextText))
        else if letter = 'd' || letter = 'i' then put (d.integer (← nextInteger true))
        else if "ouxX".toList.contains letter then
          put (d.natural letter (← nextInteger false).toNat)
        else if "aAeEfFgG".toList.contains letter then put (d.real letter (← nextReal))
        else StateT.lift (giveUp (d.source ++ ofString ": invalid directive"))
        once n rest
    | c :: rest =>
      put [c]
      once n rest

/-- Goes through a format until the arguments are used up. -/
def repeatedly (format : List Char) : Nat → Fill Unit
  | 0 => return
  | n + 1 => do
    let before := (← get).args.length
    let goes ← once format.length format
    let left := (← get).args.length
    if goes && left < before && left > 0 then repeatedly format n

/-- The command `printf`. -/
def print (args : List (List Char)) : Run Nat := do
  let (_, args) ← options "" args
  match args with
  | [] => giveUp (ofString "usage: printf format [arg ...]")
  | format :: args =>
    let (_, f) ← (repeatedly format (args.length + 1)).run { args }
    return if f.failed then 1 else 0

end Format

end ConanPipeline.Shell
