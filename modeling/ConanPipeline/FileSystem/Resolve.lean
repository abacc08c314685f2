import ConanPipeline.FileSystem.Basic

/-! Where a path leads. Each component but the last has to be a directory or a
link that leads to one, the directories on the way have to be open to a search, and at most
`linkLimit` links are followed in all. -/

namespace ConanPipeline

/-- The words of a path that a lookup goes through; `.` stands for a trailing slash. -/
def Path.steps (p : Path) : List String :=
  let ws := Path.pieces p.chars
  let names := ws.filter fun w => !w.isEmpty
  let last := match ws.getLast? with
    | some [] => if names.isEmpty then [] else [['.']]
    | _ => []
  (names ++ last).map .ofList

/-- The path without the slashes at its end. -/
def Path.withoutSlash (p : Path) : Path :=
  .ofChars (p.chars.reverse.dropWhile (· == '/')).reverse

def Path.endsWithSlash (p : Path) : Bool := p.chars.getLast? == some '/'

namespace FileSystem

def linkLimit : Nat := 40

/-- Bytes that one name may have. -/
def nameLimit : Nat := 255

/-- Bytes that a whole path must stay below. -/
def pathLimit : Nat := 4096

/-- Walks from the directory `here`. What a link met on the way leads to is left to
`onLink`, which gets the link's directory, its name, its target and the steps that remain.
The last step need not exist, and is itself followed only if `final` is set. -/
def walkWith (fs : FileSystem) (final : Bool)
    (onLink : Location → String → Path → List String → Except Errno Location) :
    Location → List String → Except Errno Location
  | here, [] => .ok here
  | here, s :: rest =>
    if s = "." then walkWith fs final onLink here rest
    else match fs.refused .search here with
    | some r => .error r.errno
    | none =>
      if s = ".." then walkWith fs final onLink here.dropLast rest
      else if s.utf8ByteSize > nameLimit then .error .nameTooLong
      else match fs.node? (here ++ [s]) with
      | none => if rest.isEmpty then .ok (here ++ [s]) else .error .noEntry
      | some (.file ..) => if rest.isEmpty then .ok (here ++ [s]) else .error .notDirectory
      | some .directory => walkWith fs final onLink (here ++ [s]) rest
      | some (.link t) => if rest.isEmpty && !final then .ok (here ++ [s]) else onLink here s t rest

/-- Walks, following no more than `n` links. A link that cannot be read is not followed. -/
def walk (fs : FileSystem) (final : Bool) :
    Nat → Location → List String → Except Errno Location
  | 0 => walkWith fs final fun _ _ _ _ => .error .linkLoop
  | n + 1 => walkWith fs final fun here s t rest =>
      match fs.refused .read (here ++ [s]) with
      | some r => .error r.errno
      | none =>
        if t.isEmpty then .error .noEntry
        else fs.walk final n (if t.isAbsolute then [] else here) (t.steps ++ rest)

/-- The directory that a path starts from, if the path is one that can be looked up at all. -/
def origin (cwd : Location) (p : Path) : Except Errno Location :=
  if p.chars.contains '\x00' then .error .nulInName
  else if p.isEmpty then .error .noEntry
  else if p.text.utf8ByteSize ≥ pathLimit then .error .nameTooLong
  else .ok (if p.isAbsolute then [] else cwd)

/-- The location of a path as seen from the directory `cwd`. Its last entry may be missing. -/
def locate (fs : FileSystem) (cwd : Location) (final : Bool) (p : Path) :
    Except Errno Location := do
  let start ← origin cwd p
  fs.walk final linkLimit start p.steps

/-- The node that a location holds, or `noEntry`. -/
def at? (fs : FileSystem) (l : Location) : Except Errno (Location × Node) :=
  match fs.node? l with
  | some n => .ok (l, n)
  | none => if l.getLast? = some "" then .ok (l, .directory) else .error .noEntry

/-- What a path leads to, through all links. -/
def status (fs : FileSystem) (cwd : Location) (p : Path) : Except Errno (Location × Node) :=
  fs.locate cwd true p >>= fs.at?

/-- What a path names, a link at its end not followed. -/
def linkStatus (fs : FileSystem) (cwd : Location) (p : Path) : Except Errno (Location × Node) :=
  fs.locate cwd false p >>= fs.at?

def present (fs : FileSystem) (cwd : Location) (p : Path) : Bool :=
  (fs.status cwd p).isOk

def isFile (fs : FileSystem) (cwd : Location) (p : Path) : Bool :=
  match fs.status cwd p with
  | .ok (_, .file ..) => true
  | _ => false

def isDirectory (fs : FileSystem) (cwd : Location) (p : Path) : Bool :=
  match fs.status cwd p with
  | .ok (_, .directory) => true
  | _ => false

def mayExecute (mode : Nat) : Bool := mode &&& 0o111 != 0

/-- Whether a path leads to a file that somebody may execute. -/
def isExecutable (fs : FileSystem) (cwd : Location) (p : Path) : Bool :=
  match fs.status cwd p with
  | .ok (_, .file _ mode) => mayExecute mode
  | _ => false

/-- The bytes of the file that a path leads to. -/
def read (fs : FileSystem) (cwd : Location) (p : Path) : Except Errno ByteArray :=
  match fs.status cwd p with
  | .error e => .error e
  | .ok (l, node) =>
    match fs.refused .read l, node with
    | some r, _ => .error r.errno
    | none, .file contents _ => .ok contents
    | none, _ => .error .isDirectory

/-- Opens the directory that a path leads to, for the names in it. -/
def openDirectory (fs : FileSystem) (cwd : Location) (p : Path) : Except Errno Location :=
  match fs.status cwd p with
  | .error e => .error e
  | .ok (l, .directory) =>
    match fs.refused .read l with
    | some r => .error r.errno
    | none => .ok l
  | .ok _ => .error .notDirectory

/-- The directory that the last name of a path is looked up in, and that name. `none`
for a path that ends in `.` or `..`, and for the top directory. -/
def parentAndName (fs : FileSystem) (cwd : Location) (p : Path) :
    Except Errno (Option (Location × String)) := do
  let start ← origin cwd p
  let q := p.withoutSlash
  match q.steps.getLast? with
  | none => return none
  | some s =>
    let dir ← fs.walk true linkLimit start q.steps.dropLast
    let dots := s = "." || s = ".."
    match fs.node? dir with
    | none => if dir.getLast? = some "" && dots then return none else throw .noEntry
    | some .directory =>
      match fs.refused .search dir with
      | some r => throw r.errno
      | none =>
        if dots then return none
        else if s.utf8ByteSize > nameLimit then throw .nameTooLong
        else return some (dir, s)
    | some _ => throw .notDirectory

end FileSystem

end ConanPipeline
