import ConanPipeline.Shell.Builtin
import ConanPipeline.Shell.Redirection

/-! Running commands. Every function here gets the evaluator of the commands inside the
present one; `evaluate` ties the knot, and goes so deep as its count allows.

Serves runs on test inputs only (`Programs/Known`); no theorem depends on it. -/

namespace ConanPipeline.Shell

/-- What is known of the place of a command. -/
structure Place where
  /-- Whether the shell ends after it, so that a program may take the place of the shell. -/
  last : Bool := false
  /-- Whether its failure is looked at, and is thus no reason to end the shell. -/
  tested : Bool := false

abbrev Evaluator := Place → Node → Run Unit

/-- The code of an ended process. -/
def codeOf : Exit → Nat
  | .code n => n
  | .killed n => 128 + n

/-- Tells of a process that was killed. -/
def report (e : Exit) : Run Unit := do
  match e with
  | .killed n =>
    match Signal.words n with
    | some text => let _ ← write 2 (ofString (text ++ "\n"))
    | none => pure ()
  | .code _ => pure ()

namespace Evaluator

/-- Runs the lines of a script one after the other, and gives the code of the last command. -/
def lines (ev : Evaluator) (place : Place) (code : Nat) : Nat → Script → Run Nat
  | 0, _ => return code
  | n + 1, source => do
    let s ← get
    match Reader.line.run { source with documents := s.documents, aliases := s.aliases } with
    | .error f =>
      adjust fun s => { s with line := f.line }
      giveUp (ofString f.text)
    | .ok (none, _) => return code
    | .ok (some none, source) => lines ev place code n source
    | .ok (some (some node), source) =>
      modify fun s => { s with documents := source.documents }
      ev place node
      lines ev place (← get).code n source

def script (ev : Evaluator) (place : Place) (text : List Char) : Run Nat :=
  lines ev place 0 (text.length + 2) { rest := text }

/-- Does what was set for the end of the shell. -/
def lastWords (ev : Evaluator) (e : Exit) : Run Exit := do
  match (← get).traps.lookup 0 with
  | none | some [] => return e
  | some action =>
    adjust fun s => { s with traps := s.traps.filter fun t => t.1 ≠ 0, loopDepth := 0 }
    setCode (codeOf e)
    tryCatch (do
        let _ ← script ev {} action
        return e)
      fun
        | .ended n => return .code n
        | .gone e => return e
        | .fault => return .code (← get).code
        | .killed n => throw (.killed n)
        | _ => return e

/-- Runs the commands of a shell to the shell's end. -/
def toEnd (ev : Evaluator) (body : Run Unit) : Run Exit := do
  let (e, spoke) ← tryCatch (do
      body
      return (Exit.code (← get).code, false))
    fun
      | .ended n => return (.code n, false)
      | .gone e => return (e, true)
      | .killed n => throw (.killed n)
      | _ => return (.code (← get).code, false)
  if spoke then return e else lastWords ev e

/-- Runs commands in a shell of their own, which knows what this one knows. -/
def inside (ev : Evaluator) (body : Run Unit) : Run Exit := do
  let outer := (← get).toContext
  adjust fun s => { s with
    nesting := s.nesting + 1, pending := [], traps := s.traps.filter fun t => t.2.isEmpty }
  let e ← finally' (toEnd ev body) (adjust fun _ => outer)
  return e

/-- Runs the commands that were left to run beside the shell. -/
def catchUp (ev : Evaluator) : Run Unit := do
  let jobs := (← get).jobs
  modify fun s => { s with jobs := [] }
  for (pid, context, node) in jobs do
    let outer := (← get).toContext
    adjust fun _ => context
    let e ← finally' (inside ev (ev { last := true } node)) (adjust fun _ => outer)
    modify fun s => { s with done := (pid, codeOf e) :: s.done }

/-- Runs commands in a shell of their own and waits for all they have started. -/
def apart (ev : Evaluator) (body : Run Unit) : Run Exit := do
  let jobs := (← get).jobs
  modify fun s => { s with jobs := [] }
  let e ← inside ev body
  catchUp ev
  modify fun s => { s with jobs }
  return e

/-- What commands print, for their place in a word. -/
def output (ev : Evaluator) (body : Option Node) : Run (List Char) := do
  match body with
  | none => return []
  | some node =>
    let h ← open' (.sink [])
    let e ← apart ev do
      lead 1 h
      ev { last := true } node
    report e
    adjust fun s => { s with inner := codeOf e }
    let text := (← sunk h).filter (· ≠ '\x00')
    return (text.reverse.dropWhile (· = '\n')).reverse

/-- Attends to the signals that have come. -/
def attend (ev : Evaluator) : Run Unit := do
  let s ← get
  if !s.signals.isEmpty then
    adjust fun s => { s with signals := [] }
    for n in s.signals do
      match s.traps.lookup n with
      | some action =>
        let code := (← get).code
        let _ ← script ev {} action
        setCode code
      | none => pure ()

def hasTraps (s : Context) : Bool := s.traps.any fun t => !t.2.isEmpty

/-! Programs. -/

/-- Starts the first of some files that can be started. -/
def firstStarted (s : State) (launch : Launch) (reason : Errno) :
    List (List Char) → Except Errno (Invocation × Outcome)
  | [] => .error reason
  | p :: ps =>
    match launch.startPath s.programs s.filesLent (asPath p) with
    | .ok r => .ok r
    | .error e =>
      firstStarted s launch (if e = .noEntry || e = .notDirectory then reason else e) ps

/-- Runs the first program of some paths, in the place of the shell or beside it; gives nothing if
there is none. -/
def program (ev : Evaluator) (places : List (List Char)) (name : List Char) (args : Args) :
    Run (Option Exit) := do
  catchUp ev
  let stdin := (← remaining 0).getD []
  let s ← get
  let launch : Launch := {
    program := asPath name, args := args.map asString, cwd := s.cwd
    env := { vars := s.exports, accountHome := s.accountHome }
    stdin := toBytes stdin, closed := [0, 1, 2].filter fun fd => (s.streams.lookup fd).isNone
    ignored := s.ignored, asScript := true }
  match firstStarted s launch .noEntry places with
  | .ok (_, out) =>
    set { s with
      files := { out.files with refused := s.files.refused }
      calls := s.calls ++ out.calls, nanos := s.nanos + out.nanos }
    let _ ← write 1 (ofBytes out.stdout)
    let _ ← write 2 (ofBytes out.stderr)
    return some out.exit
  | .error e =>
    complain (name ++ ofString ": " ++ Errno.ofStart e)
    let missing := [Errno.linkLoop, .nameTooLong, .noEntry, .notDirectory].contains e
    setCode (if missing then 127 else 126)
    return none

/-- Runs a program that was found first at some place. -/
def runProgram (ev : Evaluator) (place : Place) (path first name : List Char) (args : Args) :
    Run Unit := do
  match ← program ev ((Found.places path name).dropWhile (· ≠ first)) name args with
  | none => return
  | some e =>
    if place.last && !hasTraps (← get).toContext then throw (.gone e)
    report e
    setCode (codeOf e)

/-- The command `exec`. -/
def become (ev : Evaluator) (args : Args) : Run Nat := do
  let (_, args) ← options "" args
  match args with
  | [] => return 0
  | name :: args =>
    match ← program ev (Found.places (searchPath (← get).toContext) name) name args with
    | some e => throw (.gone e)
    | none => throw (.ended (← get).code)

/-! Builtin commands that run others. -/

/-- Runs the lines of a file in this shell. -/
def source (ev : Evaluator) (args : Args) : Run Nat := do
  let (_, args) ← options "" args
  match args with
  | [] => return 0
  | name :: _ =>
    let s ← get
    let isPlain (p : List Char) : Bool := s.files.isFile s.cwd (asPath p)
    let path ← if name.contains '/' then pure name
      else match (Found.places (searchPath s.toContext) name).find? isPlain with
        | some p => pure p
        | none => giveUp (name ++ ofString ": not found")
    let text ← match s.files.status s.cwd (asPath path) with
      | .ok (_, .file contents _) => pure (ofBytes contents)
      | .ok _ => pure []
      | .error e => Target.cannotOpen path e
    adjust fun s => { s with label := path }
    tryCatch (script ev {} text) fun
      | .returned => return (← get).code
      | f => throw f

/-- The command `wait`. -/
def await (ev : Evaluator) (args : Args) : Run Nat := do
  let (_, args) ← options "" args
  let awaited := args.isEmpty
  let mut code := 0
  if awaited then catchUp ev
  for a in args do
    if a.head? = some '%' then giveUp (ofString "No such job: " ++ a)
    let n ← Number.readCount a
    catchUp ev
    code := ((← get).done.lookup n).getD 127
    match Signal.words (code - 128) with
    | some text => if code > 128 then let _ ← write 2 (ofString (text ++ "\n"))
    | none => pure ()
  return code

def builtin (ev : Evaluator) (place : Place) (path name : List Char) (args : Args) :
    Run Nat := do
  match String.ofList name with
  | "eval" =>
    if args.isEmpty then return 0
    else script ev { tested := place.tested } ([' '].intercalate args)
  | "." => source ev args
  | "exec" => become ev args
  | "wait" => await ev args
  | "command" => do
    let (os, names) ← options "pvV" args
    let path := if os.any fun o => o.1 = 'p' then Found.commonPath else path
    if os.any fun o => o.1 ≠ 'p' then
      describeCommand (os.all fun o => o.1 ≠ 'V') path names
    else return 0
  | _ => runBuiltin name args

/-- Runs a builtin command. A mistake ends only the command, unless it is a special one. -/
def perform (ev : Evaluator) (place : Place) (special : Bool) (path name : List Char)
    (args : Args) : Run Unit := do
  let label := (← get).label
  let body : Run Unit := do
    adjust fun s => { s with label := name }
    let code ← builtin ev place path name args
    if !(← flush) then
      complain (name ++ ofString ": I/O error")
      setCode (code ||| 1)
    else setCode code
  tryCatch (finally' body (adjust fun s => { s with label })) fun
    | .fault => if special then throw .fault else return
    | f => throw f

/-- How many functions may run inside one another. -/
def functionLimit : Nat := 1000

/-- Runs a function. -/
def call (ev : Evaluator) (place : Place) (body : Node) (args : Args) : Run Unit := do
  let s ← get
  if s.functionDepth ≥ functionLimit then
    giveUp (ofString ("Maximum function recursion depth (" ++ toString functionLimit ++
      ") reached"))
  adjust fun s => { s with
    params := args, loopDepth := 0, optionIndex := 1, optionOffset := none
    functionDepth := s.functionDepth + 1 }
  let run : Run Unit := tryCatch (ev { tested := place.tested } body) fun
    | .returned => return
    | f => throw f
  finally' run <| adjust fun t => { t with
    params := s.params, loopDepth := s.loopDepth, optionIndex := s.optionIndex
    optionOffset := s.optionOffset, functionDepth := s.functionDepth }

/-! Simple commands. -/

/-- The words of a command, as far as they have been expanded. -/
structure Words where
  args : Args := []
  rest : List Word

/-- Expands words until there is something. -/
def fill (ev : Evaluator) : List Word → Run Words
  | [] => return { rest := [] }
  | w :: ws => do
    let fs ← Expand.fields (output ev) w
    if fs.isEmpty then fill ev ws else return { args := fs, rest := ws }

def more (ev : Evaluator) (args : Args) (rest : List Word) : Run Words :=
  if args.isEmpty then fill ev rest else return { args, rest }

/-- What a simple command turns out to be. -/
structure Meaning where
  words : Words
  /-- Whether its first word is a special builtin command, if it is a builtin one. -/
  special : Option Bool := none
  functions : Bool := true
  path : Option (List Char) := none

/-- What follows `command`: the command that is meant, or nothing if `command` itself is. The
arguments that were looked at are given back. -/
def meant (ev : Evaluator) (path : Option (List Char)) :
    Nat → Args → List Word → Run (Args × List Word × Option (Args × Option (List Char)))
  | 0, args, rest => return (args, rest, none)
  | n + 1, args, rest => do
    let w ← more ev args rest
    match w.args with
    | [] => return ([], w.rest, none)
    | ['-', '-'] :: later =>
      let w ← more ev later w.rest
      let all := ['-', '-'] :: w.args
      return (all, w.rest, if w.args.isEmpty then none else some (w.args, path))
    | ('-' :: c :: cs) :: later =>
      if (c :: cs).all (· = 'p') then
        let (all, rest, found) ← meant ev (some Found.commonPath) n later w.rest
        return (('-' :: c :: cs) :: all, rest, found)
      else return (w.args, w.rest, none)
    | args => return (args, w.rest, some (args, path))

/-- Finds out what a command is, beyond the word `command`. -/
def meaning (ev : Evaluator) : Nat → Meaning → Run Meaning
  | 0, p => return p
  | n + 1, p => do
    match p.words.args with
    | [] => return p
    | name :: args =>
      let s ← get
      let isFunction := p.functions && (s.functions.lookup name).isSome
      if isFunction || !isBuiltin name then return p
      let special := p.special.or (some (isSpecialName name))
      if String.ofList name ≠ "command" then return { p with special }
      let (all, rest, found) ← meant ev p.path (args.length + p.words.rest.length + 1) args
        p.words.rest
      match found with
      | none => return { p with words := { args := name :: all, rest }, special }
      | some (args, path) =>
        meaning ev n { words := { args, rest }, special, functions := false, path }

/-- Expands the rest of the words. -/
def expandRest (ev : Evaluator) (assigns : Bool) (ws : List Word) : Run Args := do
  let fields ← ws.mapM fun w =>
    match if assigns then assignment? w else none with
    | some (name, value) => do
      let text ← Expand.assigned (output ev) value
      return [name ++ ['='] ++ text]
    | none => Expand.fields (output ev) w
  return fields.flatten

/-- Shows a command before it is run. -/
def trace (ev : Evaluator) (handle : Option Nat) (texts : Args) : Run Unit := do
  let s ← get
  let text := (s.value "PS4").getD []
  let shown ← match Reader.text.run { rest := text } with
    | .ok (w, _) => Expand.text (output ev) w
    | .error _ => pure text
  match handle with
  | some h => let _ ← writeHandle h (shown ++ [' '].intercalate texts ++ ['\n'])
  | none => pure ()

/-- Runs what a command turned out to be. -/
def dispatch (ev : Evaluator) (place : Place) (p : Meaning) (args : Args) : Run Unit := do
  let s ← get
  let path := p.path.getD (searchPath s.toContext)
  match args with
  | [] => setCode s.inner
  | name :: rest =>
    match ← lookUp path p.functions name with
    | .function body => call ev place body rest
    | .builtin => perform ev place (p.special = some true) path name rest
    | .file first => runProgram ev place path first name rest
    | .missing e =>
      complain (name ++ ofString ": " ++ Errno.ofStart e)
      setCode 127

def setAssigned (ev : Evaluator) (forAWhile exported : Bool) (w : Word) :
    Run (List (List Char)) := do
  match assignment? w with
  | some (name, value) =>
    let text ← Expand.assigned (output ev) value
    if forAWhile then hide name
    assign name text (forAWhile || exported)
    return [name ++ ['='] ++ text]
  | none => return []

/-- Leads streams elsewhere; no success if that cannot be done. -/
def redirect (targets : List Target) : Run Bool :=
  tryCatch (do
      targets.forM (Target.apply true)
      return true)
    fun
      | .fault => return false
      | f => throw f

def simple (ev : Evaluator) (place : Place) (assigns words : List Word)
    (redirects : List Redirect) : Run Unit := do
  adjust fun s => { s with inner := 0 }
  let p ← meaning ev (words.length + 1) { words := ← fill ev words }
  let assignable := match p.words.args with
    | name :: _ => p.special.isSome && takesAssignments name
    | [] => false
  let args := p.words.args ++ (← expandRest ev assignable p.words.rest)
  let execs := p.special.isSome && args.head? = some "exec".toList
  let forAWhile := !args.isEmpty && p.special ≠ some true
  let body : Run Unit := do
    let traced := (← get).streams.lookup 2
    let targets ← redirects.mapM (Target.ofRedirect (output ev))
    if !(← redirect targets) then
      setCode 2
      if p.special = some true then throw .fault
    else
      let set ← assigns.mapM (setAssigned ev forAWhile (execs && args.length > 1))
      if (← get).option 'x' then trace ev traced (set.flatten ++ shown p args)
      dispatch ev place p args
  let led : Run Unit := if execs then do
      let streams := (← get).streams
      tryCatch body fun f => do
        adjust fun s => { s with streams }
        throw f
    else withStreams body
  if forAWhile then withHidden led else led
where
  /-- The words as they are shown; `command` in front is shown too. -/
  shown (p : Meaning) (args : Args) : Args :=
    if p.functions then args else "command".toList :: args

/-! Loops and lists. -/

inductive Turn where
  | on
  | again
  | stop

/-- Runs a part of a loop. -/
def turn (body : Run Unit) : Run Turn :=
  tryCatch (do
      body
      return .on)
    fun
      | .broken n => if n ≤ 1 then return .stop else throw (.broken (n - 1))
      | .continued n => if n ≤ 1 then return .again else throw (.continued (n - 1))
      | f => throw f

/-- How often a loop is gone through at most. -/
def loopLimit : Nat := 1000000

def looped (ev : Evaluator) (place : Place) (until' : Bool) (test body : Node) (code : Nat) :
    Nat → Run Nat
  | 0 => return code
  | n + 1 => do
    match ← turn (ev { tested := true } test) with
    | .stop => return code
    | .again => looped ev place until' test body code n
    | .on =>
      if ((← get).code = 0) = until' then return code
      match ← turn (ev { tested := place.tested } body) with
      | .stop => return (← get).code
      | _ => looped ev place until' test body (← get).code n

def eachOf (ev : Evaluator) (place : Place) (name : List Char) (body : Node) (code : Nat) :
    Args → Run Nat
  | [] => return code
  | a :: as => do
    assign name a
    match ← turn (ev { tested := place.tested } body) with
    | .stop => return (← get).code
    | _ => eachOf ev place name body (← get).code as

/-- Runs a loop, which commands inside may leave. -/
def inLoop (body : Run Nat) : Run Unit := do
  let depth := (← get).loopDepth
  adjust fun s => { s with loopDepth := depth + 1 }
  setCode (← finally' body (adjust fun s => { s with loopDepth := depth }))

/-- Whether a text fits one of some patterns. -/
def fitsAny (ev : Evaluator) (text : List Char) : List Word → Run Bool
  | [] => return false
  | w :: ws => do
    if (← Expand.pattern (output ev) w).fits text then return true
    else fitsAny ev text ws

def choose (ev : Evaluator) (place : Place) (text : List Char) :
    List (List Word × Option Node) → Run Unit
  | [] => setCode 0
  | (ps, body) :: cases => do
    if ← fitsAny ev text ps then
      match body with
      | some node => ev place node
      | none => setCode 0
    else choose ev place text cases

/-- Looks for the program of a simple command before the shell that runs it is made. -/
def lookAhead : Node → Run Unit
  | .simple _ _ (w :: _) _ => do
    match (Word.plain? w).filter isName with
    | some name => let _ ← lookUp (searchPath (← get).toContext) true name
    | none => pure ()
  | _ => return

/-- Runs commands that hand their output on, each to the next one. -/
def piped (ev : Evaluator) (place : Place) (input : Option (List Char)) :
    List Node → Run (List Exit)
  | [] => return []
  | part :: parts => do
    lookAhead part
    let source ← match input with
      | some text => do pure (some (← open' (.input text)))
      | none => pure none
    let sink ← if parts.isEmpty then pure none else do pure (some (← open' (.sink [])))
    let e ← apart ev do
      match source with
      | some h => lead 0 h
      | none => pure ()
      match sink with
      | some h => lead 1 h
      | none => pure ()
      ev { place with last := true } part
    let text ← match sink with
      | some h => do pure (some (← sunk h))
      | none => pure none
    return e :: (← piped ev place text parts)

/-- Leaves a command to run beside the shell. -/
def leave (body : Node) : Run Unit := do
  let h ← open' .nowhere
  let s ← get
  let pid := Expand.processNumber + 1 + s.jobs.length + s.done.length
  let context : Context := { s.toContext with
    streams := (0, h) :: s.streams.filter fun p => p.1 ≠ 0 }
  set { s with jobs := s.jobs ++ [(pid, context, body)] }
  adjust fun s => { s with beside := some pid, code := 0 }

/-- Ends the shell after a failure, if it is set to do so. -/
def check (place : Place) : Run Unit := do
  let s ← get
  if s.option 'e' && !place.tested && s.code ≠ 0 then throw (.ended s.code)

def setLine (line : Nat) : Run Unit := adjust fun s => { s with line }

/-- Runs one command. -/
def step (ev : Evaluator) : Evaluator := fun place node => do
  if (← get).option 'n' then return
  attend ev
  match node with
  | .simple line assigns words redirects =>
    setLine line
    simple ev place assigns words redirects
    attend ev
    check place
  | .pipe parts =>
    let es ← piped ev place none parts
    for e in es do
      report e
    setCode (codeOf (es.getLast?.getD (.code 0)))
    check place
  | .redirected line body redirects =>
    setLine line
    let targets ← redirects.mapM (Target.ofRedirect (output ev))
    let ok ← withStreams do
      let ok ← redirect targets
      if ok then ev { tested := place.tested } body
      return ok
    if !ok then
      setCode 2
      check place
  | .background body => leave body
  | .subshell line body redirects =>
    setLine line
    let e ← apart ev do
      let targets ← redirects.mapM (Target.ofRedirect (output ev))
      targets.forM (Target.apply false)
      ev { place with last := true } body
    if place.last && !hasTraps (← get).toContext then throw (.gone e)
    report e
    setCode (codeOf e)
    check place
  | .both a b =>
    ev { tested := true } a
    if (← get).code = 0 then ev place b
  | .either a b =>
    ev { tested := true } a
    if (← get).code ≠ 0 then ev place b
  | .sequence a b =>
    ev { tested := place.tested } a
    ev place b
  | .unless a =>
    ev { tested := true } a
    setCode (if (← get).code = 0 then 1 else 0)
  | .branch test yes no =>
    ev { tested := true } test
    if (← get).code = 0 then ev place yes
    else match no with
      | some node => ev place node
      | none => setCode 0
  | .loop until' test body => inLoop (looped ev place until' test body 0 loopLimit)
  | .each line name words body =>
    setLine line
    let fields ← words.mapM (Expand.fields (output ev))
    inLoop (eachOf ev place name body 0 fields.flatten)
  | .choose line word cases =>
    setLine line
    choose ev place (← Expand.text (output ev) word) cases
  | .define name body =>
    untrack name
    adjust fun s => { s with
      functions := (name, body) :: s.functions.filter fun f => f.1 ≠ name, code := 0 }

end Evaluator

/-- Runs a command, with so many commands inside one another at most. -/
def evaluate : Nat → Evaluator
  | 0 => fun _ _ => throw (.gone (.killed 11))
  | n + 1 => Evaluator.step (evaluate n)

end ConanPipeline.Shell
