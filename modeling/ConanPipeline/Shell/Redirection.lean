import ConanPipeline.Shell.Expand
import ConanPipeline.Shell.Search

/-! Redirections: streams that are led to files, to other streams, or to text that
stands in the script.

Serves runs on test inputs only (`Programs/Known`); no theorem depends on it. -/

namespace ConanPipeline.Shell

/-- A redirection whose words have been expanded. -/
inductive Target where
  | file (fd : Nat) (opening : Opening) (name : List Char)
  | duplicate (fd : Nat) (source : Option Nat)
  | here (fd : Nat) (text : List Char)

namespace Target

def ofRedirect (output : Option Node → Run (List Char)) : Redirect → Run Target
  | .file fd opening name => do return .file fd opening (← Expand.text output name)
  | .duplicate fd source => do
    match ← Expand.text output source with
    | ['-'] => return .duplicate fd none
    | [c] =>
      if c.isDigit then return .duplicate fd (some (Number.digitValue c))
      else giveUp (ofString "Syntax error: Bad fd number")
    | _ => giveUp (ofString "Syntax error: Bad fd number")
  | .here fd document => do
    let w := ((← get).documents.lookup document).getD []
    return .here fd (← Expand.document output w)

/-- Why a file cannot be made. -/
def cannotCreate {α : Type} (name : List Char) (e : Errno) : Run α :=
  giveUp (ofString "cannot create " ++ name ++ ofString (": " ++
    (if e = .noEntry || e = .notDirectory then "Directory nonexistent" else e.phrase)))

/-- Why a file cannot be opened. -/
def cannotOpen {α : Type} (name : List Char) (e : Errno) : Run α :=
  giveUp (ofString "cannot open " ++ name ++ ofString (": " ++
    (if e = .noEntry || e = .notDirectory then "No such file" else e.phrase)))

/-- The streams that files of the system stand for. -/
def systemStream? (name : List Char) : Option Nat :=
  match String.ofList name with
  | "/dev/stdin" | "/dev/fd/0" => some 0
  | "/dev/stdout" | "/dev/fd/1" => some 1
  | "/dev/stderr" | "/dev/fd/2" => some 2
  | _ => none

/-- Opens a file for writing, and makes it if it is missing. -/
def writing (opening : Opening) (name : List Char) : Run Handle := do
  let s ← get
  let p := asPath name
  let here := s.files.status s.cwd p
  let create (contents : ByteArray) : Run Location := do
    let mode := 0o666 - (0o666 &&& s.mask)
    if p.endsWithSlash && !here.isOk && (s.files.status s.cwd (directoryOf p)).isOk then
      cannotCreate name .isDirectory
    match s.files.overwrite s.cwd p contents mode, s.files.locate s.cwd true p with
    | .ok files, .ok l =>
      set { s with files }
      return l
    | .error e, _ | _, .error e => cannotCreate name e
  let kept : ByteArray := match here with
    | .ok (_, .file contents _) => contents
    | _ => ByteArray.empty
  match opening with
  | .append => return .file (← create kept) 0 true false true
  | .readWrite => return .file (← create kept) 0 false true true
  | .write =>
    if s.option 'C' then
      match here with
      | .ok (_, .file ..) => cannotCreate name .alreadyThere
      | .ok _ => cannotOpen name .isDirectory
      | .error _ => return .file (← create ByteArray.empty) 0 false false true
    else return .file (← create ByteArray.empty) 0 false false true
  | _ => return .file (← create ByteArray.empty) 0 false false true
where
  /-- The directory of a path, for one that ends in a slash. -/
  directoryOf (p : Path) : Path := (FileSystem.directoryOf p.withoutSlash)

/-- Opens the file of a redirection. -/
def openFile (opening : Opening) (name : List Char) : Run Nat := do
  let s ← get
  if name = "/dev/null".toList then open' .nowhere
  else
    match systemStream? name >>= fun n => s.streams.lookup n with
    | some h => return h
    | none =>
      match opening with
      | .read =>
        match s.files.status s.cwd (asPath name) with
        | .ok (l, _) => open' (.file l 0 false true false)
        | .error e => cannotOpen name e
      | _ => do open' (← writing opening name)

/-- Leads a stream to its target. A stream that is put aside is closed before another one is put in
its place. -/
def apply (aside : Bool) : Target → Run Unit
  | .file fd opening name => do lead fd (← openFile opening name)
  | .here fd text => do lead fd (← open' (.input text))
  | .duplicate fd none => close fd
  | .duplicate fd (some n) => do
    match (← get).streams.lookup n with
    | some h => lead fd h
    | none =>
      if n ≠ fd then
        if aside then close fd
        giveUp (decimal n ++ ofString ": Bad file descriptor")

end Target

/-- Runs something with its streams led elsewhere. -/
def withStreams {α : Type} (body : Run α) : Run α := do
  let streams := (← get).streams
  finally' body <| adjust fun s => { s with streams }

end ConanPipeline.Shell
