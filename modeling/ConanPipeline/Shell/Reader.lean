import ConanPipeline.Shell.Tree

/-! Reading scripts. One line is read at a time, with all the lines that its commands
go on to; what a line does can thus be done before the next one is looked at.

Serves runs on test inputs only (`Programs/Known`); no theorem depends on it. -/

namespace ConanPipeline.Shell

/-- A mistake in a script, and the line that it was found in. -/
structure Fault where
  line : Nat
  text : String
  deriving DecidableEq, Repr

inductive Token where
  | eof
  | newline
  /-- An operator or a keyword. -/
  | symbol (s : String)
  | redirection
  | word
  deriving DecidableEq, Repr, Inhabited

def Token.text : Token → String
  | eof => "end of file"
  | newline => "newline"
  | symbol s => "\"" ++ s ++ "\""
  | redirection => "redirection"
  | word => "word"

/-- The operator of a redirection. -/
inductive Arrow where
  | file (opening : Opening)
  | duplicate
  /-- Text that follows in the script, maybe without the tabs in front of its lines. -/
  | here (strip : Bool)
  deriving DecidableEq, Repr, Inhabited

/-- Text of a redirection that is still to be read. -/
structure Awaited where
  document : Nat
  mark : List Char
  literal : Bool
  strip : Bool

/-- A script that is being read. -/
structure Script where
  rest : List Char
  line : Nat := 1
  last : Token := .eof
  /-- Whether the last token is to be read once more. -/
  pushed : Bool := false
  word : Word := []
  arrow : Nat × Arrow := (0, .duplicate)
  awaited : List Awaited := []
  documents : List (Nat × Word) := []
  aliases : List (List Char × List Char) := []
  /-- Aliases that stand at the front, and how much of the script is left behind them. -/
  expanding : List (List Char × Nat) := []
  deriving Inhabited

abbrev Reader := StateT Script (Except Fault)

namespace Reader

/-- What is expected where a word is read. -/
structure Expect where
  keywords : Bool := false
  /-- Newlines are skipped. -/
  newlines : Bool := false
  aliases : Bool := false

def start : Expect := { keywords := true, newlines := true, aliases := true }

def fail {α : Type} (text : String) : Reader α := do
  throw ⟨(← get).line, "Syntax error: " ++ text⟩

/-- Tells that the last token does not belong there, and maybe what does. -/
def unexpected {α : Type} (wanted : Option Token := none) : Reader α := do
  fail ((← get).last.text ++ " unexpected" ++ (match wanted with
    | none => ""
    | some t => " (expecting " ++ t.text ++ ")"))

def push : Reader Unit := modify fun s => { s with pushed := true }

/-- Goes over the next character. -/
def skip : Reader Unit := modify fun s =>
  match s.rest with
  | [] => s
  | c :: cs => { s with rest := cs, line := if c = '\n' then s.line + 1 else s.line }

/-- Goes over the next character, which does not count as a line even if it ends one. -/
def discard : Reader Unit := modify fun s => { s with rest := s.rest.drop 1 }

def skipMany (n : Nat) : Reader Unit := n.forM fun _ _ => skip

def joinsWithin : Nat → Reader Unit
  | 0 => pure ()
  | n + 1 => do
    match (← get).rest with
    | '\\' :: '\n' :: _ => skipMany 2; joinsWithin n
    | _ => pure ()

/-- The next character, after the lines that a backslash joins are joined. -/
def peek : Reader (Option Char) := do
  joinsWithin (← get).rest.length
  return (← get).rest.head?

/-- Goes over the longest run of characters of a kind. -/
def takeRun (p : Char → Bool) : Reader (List Char) := do
  let cs := (← get).rest.takeWhile p
  skipMany cs.length
  return cs

/-- What ends a word or a part of one. -/
inductive Closing where
  | blank
  /-- The same, for a word in which dollar signs mean nothing. -/
  | mark
  /-- The second of two quotes, which may stand inside the use of a parameter. -/
  | quote (inBrace : Bool)
  /-- The end of a use of a parameter, maybe one in a text that stands in the script. -/
  | brace (inDocument : Bool)
  /-- The end of a calculation, inside of so many parentheses. -/
  | sum (depth : Nat)
  | document
  deriving DecidableEq

def endsWord (c : Char) : Bool := " \t\n;&|<>()".toList.contains c

/-- Reads a list of commands; see `list`. -/
abbrev Lists := Nat → Reader (Option Node)

/-- Reads commands out of a text of their own, the first line of which has some number. -/
def inner {α : Type} (text : Option (Nat × List Char)) (body : Reader α) : Reader α := do
  let s ← get
  let (line, rest) := text.getD (s.line, s.rest)
  set { s with rest, line, awaited := [], pushed := false }
  let a ← body
  modify fun t =>
    { s with
      rest := if text.isSome then s.rest else t.rest
      line := if text.isSome then s.line else t.line
      documents := t.documents, pushed := false }
  return a

/-- The text between backquotes, of which the first has been read. -/
def backquoted (dq : Bool) : Nat → Reader (List Char)
  | 0 => fail "EOF in backquote substitution"
  | n + 1 => do
    match (← get).rest with
    | [] => fail "EOF in backquote substitution"
    | '\x60' :: _ => skip; return []
    | '\\' :: '\n' :: _ => skipMany 2; backquoted dq n
    | '\\' :: c :: _ =>
      skipMany 2
      let cs := if c = '\\' || c = '\x60' || c = '$' || (dq && c = '"') then [c] else ['\\', c]
      return cs ++ (← backquoted dq n)
    | c :: _ => skip; return c :: (← backquoted dq n)

/-- The use of a parameter, after its name. The reader that is given reads up to the brace. A
character that makes no use means nothing else either. -/
def use (part : Bool → Reader Word) (dq : Bool) : Reader Use := do
  let broken : Reader Use := do
    discard
    let _ ← part dq
    return .broken
  let trim (fromEnd : Bool) (c : Char) : Reader Use := do
    skip
    let longest := (← peek) = some c
    if longest then skip
    return .trim fromEnd longest (← part false)
  let chosen (orEmpty : Bool) : Reader Use := do
    match ← peek with
    | some '-' => skip; return .orElse orEmpty (← part dq)
    | some '=' => skip; return .assign orEmpty (← part dq)
    | some '?' => skip; return .demand orEmpty (← part dq)
    | some '+' => skip; return .instead orEmpty (← part dq)
    | _ => broken
  match ← peek with
  | some '}' => skip; return .plain
  | some ':' => skip; chosen true
  | some '%' => trim true '%'
  | some '#' => trim false '#'
  | _ => chosen false

/-- A parameter in braces, of which the first has been read. -/
def braced (part : Bool → Reader Word) (dq : Bool) : Reader Piece := do
  let named (name : List Char) : Reader Piece := do
    return .parameter name (← use part dq) dq
  let broken : Reader Piece := do
    let _ ← part dq
    return .parameter [] .broken dq
  match ← peek with
  | none => broken
  | some c =>
    if isNameStart c then named (← takeRun isNameChar)
    else if c.isDigit then named (← takeRun Char.isDigit)
    else if c = '#' then
      skip
      match ← peek with
      | none => broken
      | some d =>
        let counted (name : List Char) : Reader Piece := do
          if (← peek) = some '}' then skip; return .parameter name .length dq
          else broken
        if isNameStart d then counted (← takeRun isNameChar)
        else if d.isDigit then counted (← takeRun Char.isDigit)
        else if d ≠ '\x7d' && (← get).rest[1]? = some '\x7d' then
          if isSpecial d then
            skip
            counted [d]
          else broken
        else named ['#']
    else if isSpecial c then skip; named [c]
    else
      if c ≠ '\x7d' then discard
      broken

/-- What a dollar sign stands for, which has been read. -/
def dollar (lists : Lists) (token : Expect → Reader Token)
    (part : Bool → Closing → Reader Word) (inDocument dq : Bool) : Reader Piece := do
  match ← peek with
  | none => return .text ['$'] dq
  | some c =>
    if c = '(' then
      skip
      if (← peek) = some '(' then
        skip
        return .arithmetic (← part true (.sum 0)) dq
      else
        inner none do
          let body ← lists 2
          if (← token {}) ≠ .symbol ")" then unexpected (Token.symbol ")")
          return .command body dq
    else if c = '{' then skip; braced (fun dq => part dq (.brace inDocument)) dq
    else if isNameStart c then return .parameter (← takeRun isNameChar) .plain dq
    else if c.isDigit || isSpecial c then skip; return .parameter [c] .plain dq
    else return .text ['$'] dq

/-- A word, or a part of one up to its end. In double quotes only some characters are special. -/
def part (lists : Lists) (token : Expect → Reader Token) :
    Nat → Bool → Closing → Reader Word
  | 0, _, _ => fail "word too long"
  | n + 1, dq, closing => do
    let part' := part lists token n
    let inBrace : Bool := match closing with
      | .brace _ => true
      | .quote inBrace => inBrace
      | _ => false
    let on (p : Piece) : Reader Word := do return .cons p (← part' dq closing)
    let plain (c : Char) : Reader Word := do
      skip
      on (.text [c] dq)
    match (← get).rest with
    | [] =>
      match closing with
      | .quote _ => fail "Unterminated quoted string"
      | .brace inDocument =>
        fail (if dq && !inDocument then "Unterminated quoted string" else "Missing '\x7d'")
      | .sum _ => fail "Missing '))'"
      | _ => return []
    | '\\' :: '\n' :: _ => skipMany 2; part' dq closing
    | ['\\'] => skip; on (.text ['\\'] true)
    | '\\' :: c :: _ =>
      skipMany 2
      let bare := !dq || "\\\x60$".toList.contains c || (c = '"' && closing ≠ .document) ||
        (c = '\x7d' && inBrace)
      on (.text (if bare then [c] else ['\\', c]) true)
    | c :: rest =>
      if c = '\'' && !dq then
        skip
        let cs := rest.takeWhile (· ≠ '\'')
        skipMany cs.length
        if cs.length = rest.length then fail "Unterminated quoted string"
        skip
        return .text cs true :: (← part' dq closing)
      else if c = '"' then
        match closing with
        | .quote _ => skip; return []
        | .sum _ | .document => plain c
        | _ =>
          skip
          let inside ← part' true (.quote inBrace)
          return .text [] true :: inside ++ (← part' dq closing)
      else if c = '$' && closing ≠ .mark then
        skip
        let inDocument : Bool := match closing with
          | .document => true
          | .brace inDocument => inDocument
          | _ => false
        let p ← dollar lists token part' inDocument dq
        on p
      else if c = '\x60' && closing ≠ .mark then
        skip
        let text ← backquoted dq n
        let body ← inner (some (1, text)) (lists 2)
        on (.command body dq)
      else
        match closing with
        | .blank | .mark => if endsWord c then return [] else plain c
        | .brace _ => if c = '\x7d' then skip; return [] else plain c
        | .sum depth =>
          if c = '(' then
            skip
            return .cons (.text [c] dq) (← part' dq (.sum (depth + 1)))
          else if c = ')' && depth > 0 then
            skip
            return .cons (.text [c] dq) (← part' dq (.sum (depth - 1)))
          else if c = ')' then
            skip
            if (← peek) = some ')' then skip; return []
            else on (.text [c] dq)
          else plain c
        | _ => plain c

/-- Removes tabs at the start of lines. -/
def stripTabs : Bool → List Char → List Char
  | _, [] => []
  | atStart, c :: cs =>
    if atStart && c = '\t' then stripTabs true cs
    else c :: stripTabs (c = '\n') cs

/-- The lines up to one that is the mark alone, and what follows that line. -/
def upToMark (mark : List Char) (strip : Bool) : List (List Char) → List Char × List Char
  | [] => ([], [])
  | l :: ls =>
    let l := if strip then l.dropWhile (· = '\t') else l
    if l = mark || l = mark ++ ['\n'] then ([], ls.flatten)
    else
      let (a, b) := upToMark mark strip ls
      (l ++ a, b)

/-- Reads the texts that redirections of the line are waiting for. -/
def documents (lists : Lists) (token : Expect → Reader Token) : Reader Unit := do
  for a in (← get).awaited do
    let s ← get
    let (text, rest) := upToMark a.mark a.strip (Text.spans s.rest)
    let taken := s.rest.length - rest.length
    let w ← if a.literal then pure [.text text true]
      else inner (some (s.line, text)) (part lists token (8 * text.length + 16) true .document)
    skipMany taken
    modify fun s => { s with documents := (a.document, w) :: s.documents }
  modify fun s => { s with awaited := [] }

/-- The arrow at the front, if there is one, with its stream and its length. -/
def arrow? (cs : List Char) : Option (Nat × Arrow × Nat) :=
  let among : List (String × Nat × Arrow) :=
    [(">>", 1, .file .append), (">|", 1, .file .overwrite), (">&", 1, .duplicate),
      (">", 1, .file .write), ("<<-", 0, .here true), ("<<", 0, .here false),
      ("<&", 0, .duplicate), ("<>", 0, .file .readWrite), ("<", 0, .file .read)]
  let plain (cs : List Char) : Option (Nat × Arrow × Nat) :=
    (among.find? fun o => o.1.toList.isPrefixOf cs).map fun o => (o.2.1, o.2.2, o.1.length)
  match cs with
  | [] => none
  | c :: rest =>
    if c.isDigit then
      (plain rest).map fun (_, a, n) => (c.toNat - '0'.toNat, a, n + 1)
    else plain cs

def operators : List String := ["&&", "&", "||", "|", ";;", ";", "(", ")"]

/-- Reads the next token as it stands. -/
def bareToken (lists : Lists) (token : Expect → Reader Token) (mark : Bool) :
    Nat → Reader Token
  | 0 => return .eof
  | n + 1 => do
    match ← peek with
    | none => return .eof
    | some c =>
      let rest := (← get).rest
      if c = ' ' || c = '\t' then skip; bareToken lists token mark n
      else if c = '#' then
        let _ ← takeRun (· ≠ '\n')
        bareToken lists token mark n
      else if c = '\n' then skip; return .newline
      else if let some (fd, a, k) := arrow? rest then
        skipMany k
        modify fun s => { s with arrow := (fd, a) }
        return .redirection
      else if let some o := operators.find? fun o => o.toList.isPrefixOf rest then
        skipMany o.length
        return .symbol o
      else
        let w ← part lists token (8 * rest.length + 16) false (if mark then .mark else .blank)
        modify fun s => { s with word := w }
        return .word

/-- The value of an alias that a word is, unless it is already being expanded. -/
def aliasOf (s : Script) (w : List Char) : Option (List Char) :=
  if s.expanding.any fun e => e.1 = w && e.2 ≤ s.rest.length then none else s.aliases.lookup w

/-- Whether a word is followed by one that is looked up too, as an alias that ends in a blank was
just left. -/
def leftAlias (s : Script) (before : Nat) : Bool :=
  s.expanding.any fun e => s.rest.length ≤ e.2 && e.2 < before &&
    (s.aliases.lookup e.1 >>= List.getLast?).any fun c => c = ' ' || c = '\t'

/-- Reads the next token. -/
def token (lists : Lists) (mark : Bool) : Nat → Expect → Reader Token
  | 0, _ => return .eof
  | n + 1, e => do
    let again := token lists mark n
    let s ← get
    let before := if s.pushed then 0 else s.rest.length
    let t ← if s.pushed then pure s.last else bareToken lists again mark (s.rest.length + 1)
    modify fun s => { s with pushed := false, last := t }
    match t with
    | .newline =>
      if e.newlines then
        documents lists again
        again e
      else return t
    | .word =>
      let s ← get
      match Word.plain? s.word with
      | none => return t
      | some cs =>
        if e.keywords && keywords.contains (String.ofList cs) then
          modify fun s => { s with last := .symbol (.ofList cs) }
          return .symbol (.ofList cs)
        else
          let looked := e.aliases || leftAlias s before
          match if looked then aliasOf s cs else none with
          | none => return t
          | some value =>
            set { s with
              rest := value ++ s.rest, expanding := (cs, s.rest.length) :: s.expanding }
            again { e with aliases := looked }
    | _ => return t

/-- Words that end a list of commands. -/
def ends (t : Token) : Bool :=
  match t with
  | .eof => true
  | .symbol s =>
    [")", ";;", "do", "done", "elif", "else", "esac", "fi", "then", "\x7d"].contains s
  | _ => false

/-- The readers that the others call: for lists, for single commands, and for tokens. -/
structure Readers where
  list : Lists
  command : Reader Node
  token : Expect → Reader Token
  /-- Reads the word that marks the end of a text in the script. -/
  mark : Reader Token

/-- The file of a redirection, of which the arrow has been read. -/
def target (r : Readers) : Reader Redirect := do
  let (fd, arrow) := (← get).arrow
  let t ← match arrow with
    | .here _ => r.mark
    | _ => r.token {}
  if t ≠ .word then unexpected
  let s ← get
  match arrow with
  | .file opening => return .file fd opening s.word
  | .duplicate => return .duplicate fd s.word
  | .here strip =>
    let document := s.documents.length + s.awaited.length
    let mark := s.word.flatMap fun p => match p with
      | .text cs _ => cs
      | _ => []
    let literal := s.word.any fun p => match p with
      | .text _ q => q
      | _ => false
    set { s with awaited := s.awaited ++ [({ document, mark, literal, strip } : Awaited)] }
    return .here fd document

def redirects (r : Readers) (e : Expect) : Nat → Reader (List Redirect)
  | 0 => return []
  | n + 1 => do
    if (← r.token e) = .redirection then
      let t ← target r
      return t :: (← redirects r { e with newlines := false } n)
    else
      push
      return []

/-- A simple command, or the definition of a function. -/
def simple (r : Readers) (line : Nat) (assigns words : List Word) (rs : List Redirect) :
    Nat → Reader Node
  | 0 => fail "command too long"
  | n + 1 => do
    match ← r.token { aliases := words.isEmpty } with
    | .word =>
      let w := (← get).word
      if words.isEmpty && (assignment? w).isSome then
        simple r line (assigns ++ [w]) words rs n
      else simple r line assigns (words ++ [w]) rs n
    | .redirection =>
      let t ← target r
      simple r line assigns words (rs ++ [t]) n
    | t =>
      match words with
      | [w] =>
        if t = .symbol "(" && assigns.isEmpty && rs.isEmpty then
          if (← r.token {}) ≠ .symbol ")" then unexpected (Token.symbol ")")
          match Word.plain? w with
          | some name =>
            if !isName name || specialNames.contains (String.ofList name) then
              fail "Bad function name"
            let _ ← r.token start
            push
            return .define name (← r.command)
          | none => fail "Bad function name"
        else
          push
          return .simple line assigns words rs
      | _ =>
        push
        return .simple line assigns words rs

/-- The words after `in`, up to the end of the line. -/
def wordsOn (r : Readers) : Nat → Reader (List Word)
  | 0 => return []
  | n + 1 => do
    match ← r.token {} with
    | .word =>
      let w := (← get).word
      return w :: (← wordsOn r n)
    | .newline | .symbol ";" => return []
    | _ => unexpected

def orFail (what : String) (body : Option Node) : Reader Node :=
  match body with
  | some b => return b
  | none => unexpected (Token.symbol what)

def expect (r : Readers) (e : Expect) (what : String) : Reader Unit := do
  if (← r.token e) ≠ .symbol what then unexpected (Token.symbol what)

/-- What follows the condition of `if`. -/
def branches (r : Readers) : Nat → Reader Node
  | 0 => fail "too many branches"
  | n + 1 => do
    let test ← orFail "then" (← r.list 0)
    expect r {} "then"
    let yes ← orFail "fi" (← r.list 0)
    match ← r.token {} with
    | .symbol "elif" => return .branch test yes (some (← branches r n))
    | .symbol "else" => return .branch test yes (← r.list 0)
    | _ =>
      push
      return .branch test yes none

/-- The patterns of one case. -/
def patterns (r : Readers) : Nat → Reader (List Word)
  | 0 => fail "too many patterns"
  | n + 1 => do
    let w := (← get).word
    if (← r.token {}) = .symbol "|" then
      let _ ← r.token {}
      return w :: (← patterns r n)
    else
      return [w]

/-- The cases up to `esac`. -/
def cases (r : Readers) : Nat → Reader (List (List Word × Option Node))
  | 0 => fail "too many cases"
  | n + 1 => do
    let e : Expect := { keywords := true, newlines := true }
    match ← r.token e with
    | .symbol "esac" => return []
    | t =>
      if t = .symbol "(" then
        let _ ← r.token {}
      let ps ← patterns r n
      if (← get).last ≠ .symbol ")" then unexpected (Token.symbol ")")
      let body ← r.list 2
      match ← r.token e with
      | .symbol "esac" => return [(ps, body)]
      | .symbol ";;" => return (ps, body) :: (← cases r n)
      | _ => unexpected (Token.symbol ";;")

/-- A command with its redirections. -/
def commandWith (r : Readers) (n : Nat) : Reader Node := do
  let t ← r.token {}
  let line := (← get).line
  let after (closing : Option String) (body : Node) : Reader Node := do
    match closing with
    | some c => expect r {} c
    | none => pure ()
    let rs ← redirects r { keywords := true, aliases := true } n
    if rs.isEmpty then return body
    else
      match body with
      | .subshell line b [] => return .subshell line b rs
      | b => return .redirected line b rs
  match t with
  | .symbol "if" => do
    let b ← branches r n
    after (some "fi") b
  | .symbol "while" | .symbol "until" => do
    let test ← orFail "do" (← r.list 0)
    expect r {} "do"
    let body ← orFail "done" (← r.list 0)
    after (some "done") (.loop (t = .symbol "until") test body)
  | .symbol "for" => do
    let t ← r.token {}
    let name := (Word.plain? (← get).word).getD []
    if t ≠ .word || !isName name then fail "Bad for loop variable"
    let words ← match ← r.token start with
      | .symbol "in" => wordsOn r n
      | t => do
        if t ≠ .symbol ";" then push
        pure [[.text [] true, .parameter ['@'] .plain true]]
    expect r start "do"
    let body ← orFail "done" (← r.list 0)
    after (some "done") (.each line name words body)
  | .symbol "case" => do
    if (← r.token {}) ≠ .word then unexpected Token.word
    let w := (← get).word
    expect r start "in"
    let cs ← cases r n
    after none (.choose line w cs)
  | .symbol "(" => do
    let body ← orFail ")" (← r.list 0)
    after (some ")") (.subshell line body [])
  | .symbol "\x7b" => do
    let body ← orFail "\x7d" (← r.list 0)
    after (some "\x7d") body
  | .word | .redirection => do
    push
    simple r line [] [] [] n
  | _ => unexpected

def pipeParts (r : Readers) : Nat → Reader (List Node)
  | 0 => fail "too many commands"
  | n + 1 => do
    if (← r.token {}) = .symbol "|" then
      let _ ← r.token start
      push
      let c ← r.command
      return c :: (← pipeParts r n)
    else
      push
      return []

/-- Commands joined by `|`, maybe negated. -/
def pipeline (r : Readers) (n : Nat) : Reader Node := do
  let negated := (← r.token {}) = .symbol "!"
  if negated then
    let _ ← r.token { keywords := true, aliases := true }
  push
  let c ← r.command
  let cs ← pipeParts r n
  let p := if cs.isEmpty then c else .pipe (c :: cs)
  return if negated then .unless p else p

def chain (r : Readers) (a : Node) : Nat → Reader Node
  | 0 => return a
  | n + 1 => do
    let joined (f : Node → Node → Node) : Reader Node := do
      let _ ← r.token start
      push
      let b ← pipeline r n
      chain r (f a b) n
    match ← r.token {} with
    | .symbol "&&" => joined .both
    | .symbol "||" => joined .either
    | _ =>
      push
      return a

/-- A list of commands. The flag is one for a line of its own, zero for a list that may not be
empty, and two for one that may. -/
def listWith (r : Readers) (top : Bool) (mayEnd : Bool) (before : Option Node) :
    Nat → Reader (Option Node)
  | 0 => fail "list too long"
  | n + 1 => do
    match ← r.token { keywords := true, newlines := !top, aliases := true } with
    | .newline =>
      documents r.list r.token
      return before
    | .eof =>
      documents r.list r.token
      push
      modify fun s => { s with last := .eof }
      return before
    | t =>
      push
      if !top && mayEnd && ends t then return before
      else
        let p ← pipeline r n
        let c ← chain r p n
        let t ← r.token {}
        let c := if t = .symbol "&" then .background c else c
        let all := match before with
          | none => c
          | some b => .sequence b c
        match t with
        | .eof =>
          documents r.list r.token
          push
          return some all
        | .newline => push; listWith r top true (some all) n
        | .symbol "&" | .symbol ";" => listWith r top true (some all) n
        | _ =>
          if top then unexpected
          push
          return some all

/-- What is asked of the readers. -/
inductive Goal where
  | list (flag : Nat)
  | command
  deriving DecidableEq

def reach : Nat → Goal → Reader (Option Node)
  | 0, _ => fail "script too deep"
  | n + 1, g =>
    let lists : Lists := fun flag => reach n (.list flag)
    let r : Readers := {
      list := lists
      command := do
        match ← reach n .command with
        | some c => return c
        | none => unexpected
      token := token lists false n
      mark := token lists true n {} }
    match g with
    | .list flag => listWith r (flag = 1) (flag = 2) none n
    | .command => do return some (← commandWith r n)

/-- How deep the readers may go into a text. -/
def depth (cs : List Char) : Nat := 16 * cs.length + 64

/-- Reads a whole text as if it stood in double quotes. -/
def text : Reader Word := do
  let n := depth (← get).rest
  let lists : Lists := fun flag => reach n (.list flag)
  part lists (token lists false n) n true .document

/-- Reads the next line of commands. The result tells the end of the script from an empty line. -/
def line : Reader (Option (Option Node)) := do
  modify fun s => { s with pushed := false }
  let node ← reach (depth (← get).rest) (.list 1)
  let s ← get
  if node.isNone && s.pushed && s.last = .eof then return none
  return some node

end Reader

end ConanPipeline.Shell
