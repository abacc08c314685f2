import ConanPipeline.Shell.Pattern
import ConanPipeline.Programs.StandIn

/-! What the name of a command stands for: a function, a builtin command, or a file in
one of the directories of `PATH`.

Serves runs on test inputs only (`Programs/Known`); no theorem depends on it. -/

namespace ConanPipeline.Shell

/-- The builtin commands that are not special. -/
def regularNames : List String :=
  ["[", "alias", "bg", "cd", "chdir", "command", "echo", "false", "fg", "getopts", "hash", "jobs",
    "kill", "printf", "pwd", "read", "test", "true", "type", "ulimit", "umask", "unalias", "wait"]

def isSpecialName (name : List Char) : Bool := specialNames.contains (String.ofList name)

def isBuiltin (name : List Char) : Bool :=
  isSpecialName name || regularNames.contains (String.ofList name)

/-- Commands whose arguments may be assignments. -/
def takesAssignments (name : List Char) : Bool :=
  ["alias", "export", "local", "readonly"].contains (String.ofList name)

inductive Found where
  | function (body : Node)
  | builtin
  | file (path : List Char)
  | missing (reason : Errno)

namespace Found

/-- The search path that is used if the common commands are asked for. -/
def commonPath : List Char :=
  "/usr/local/sbin:/usr/local/bin:/usr/sbin:/usr/bin:/sbin:/bin".toList

/-- The paths under which a program is looked for. A name with a slash is a path itself. -/
def places (path name : List Char) : List (List Char) :=
  if name.contains '/' then [name]
  else (path.splitOn ':').map fun d => if d.isEmpty then name else d ++ ['/'] ++ name

def inPlaces (fs : FileSystem) (cwd : Location) (reason : Errno) : List (List Char) → Found
  | [] => .missing reason
  | p :: ps =>
    match fs.status cwd (asPath p) with
    | .error e =>
      inPlaces fs cwd (if e = .noEntry || e = .notDirectory then reason else e) ps
    | .ok (_, .file _ mode) =>
      if FileSystem.mayExecute mode then .file p else inPlaces fs cwd .accessDenied ps
    | .ok _ => inPlaces fs cwd .accessDenied ps

/-- What a name stands for, functions apart if they are not wanted. -/
def find (s : State) (path : List Char) (functions : Bool) (name : List Char) : Found :=
  if name.contains '/' then .file name
  else
    match if functions then s.functions.lookup name else none with
    | some body => .function body
    | none =>
      if isBuiltin name then .builtin else inPlaces s.files s.cwd .noEntry (places path name)

end Found

/-- What is said if a program cannot be started. -/
def Errno.ofStart (e : Errno) : List Char :=
  ofString (if e = .noEntry || e = .notDirectory then "not found" else e.phrase)

/-- The search path that is set. -/
def searchPath (s : Context) : List Char := (s.value "PATH").getD Found.commonPath

/-- Forgets where a program is. -/
def untrack (name : List Char) : Run Unit :=
  adjust fun s => { s with tracked := s.tracked.filter fun t => t.name ≠ name }

/-- Keeps track of a program. -/
def track (t : Tracked) : Run Unit := adjust fun s =>
  { s with tracked :=
      if s.tracked.any fun u => u.name = t.name then
        s.tracked.map fun u => if u.name = t.name then t else u
      else s.tracked ++ [t] }

/-- Finds out what a name stands for. What was found on the search path before is not looked for
again. -/
def lookUp (path : List Char) (functions : Bool) (name : List Char) : Run Found := do
  let s ← get
  match Found.find s path functions name with
  | .file p =>
    if name.contains '/' || path ≠ searchPath s.toContext then return .file p
    match s.tracked.find? fun t => t.name = name && !t.stale with
    | some t => return .file t.path
    | none =>
      track { name, path := p }
      return .file p
  | found => return found

/-- How a command is described, in a word or in a sentence; no success if there is none. -/
def describe (path : List Char) (brief : Bool) (name : List Char) : Run (List Char × Bool) := do
  let s ← get
  let told (words : String) (short : List Char) : List Char × Bool :=
    (if brief then short else name ++ ofString words, true)
  if keywords.contains (String.ofList name) then return told " is a shell keyword" name
  match s.aliases.lookup name with
  | some value =>
    return (if brief then ofString "alias " ++ name ++ ['='] ++ quoteValue value
      else name ++ ofString " is an alias for " ++ value, true)
  | none =>
    let known := if path = searchPath s.toContext then s.tracked.find? fun t => t.name = name
      else none
    if let some t := known then
      return (if brief then t.path else name ++ ofString " is a tracked alias for " ++ t.path, true)
    match ← lookUp path true name with
    | .function _ => return told " is a shell function" name
    | .builtin =>
      return told
        (if isSpecialName name then " is a special shell builtin" else " is a shell builtin") name
    | .file p =>
      if name.contains '/' && !(s.files.status s.cwd (asPath p)).isOk then
        return (if brief then [] else name ++ ofString ": not found", false)
      return (if brief then p else name ++ ofString " is " ++ p, true)
    | .missing _ => return (if brief then [] else name ++ ofString ": not found", false)

end ConanPipeline.Shell
