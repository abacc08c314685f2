import ConanPipeline.FileSystem.Resolve

/-! Changes to a file system: making directories, taking trees away, and putting
a file in the place of another. An operation that fails says what it left behind. A tree goes entry
by entry, and what is gone when something in it is refused stays gone. -/

namespace ConanPipeline.FileSystem

/-- The outcome of a change and the file system after it. -/
abbrev Changed (α : Type) := Except Errno α × FileSystem

def makeDirectory (fs : FileSystem) (cwd : Location) (p : Path) : Except Errno FileSystem := do
  match ← fs.parentAndName cwd p with
  | none => throw .alreadyThere
  | some (dir, name) =>
    match fs.node? (dir ++ [name]), fs.refused .create (dir ++ [name]) with
    | some _, _ => throw .alreadyThere
    | none, some r => throw r.errno
    | none, none => return fs.put (dir ++ [name]) .directory

/-- Makes the first of the paths, and the others before it as far as they are missing.
Each path is the parent of the one before it. -/
def makeDirectories (fs : FileSystem) (cwd : Location) : List Path → Changed Unit
  | [] => (.ok (), fs)
  | p :: above =>
    if p.isEmpty then (.ok (), fs)
    else match fs.makeDirectory cwd p with
      | .ok fs' => (.ok (), fs')
      | .error .noEntry =>
        match fs.makeDirectories cwd above with
        | (.ok (), fs') =>
          match fs'.makeDirectory cwd p with
          | .ok fs'' => (.ok (), fs'')
          | .error e => (if fs'.isDirectory cwd p then .ok () else .error e, fs')
        | (.error e, fs') => (.error e, fs')
      | .error e => (if fs.isDirectory cwd p then .ok () else .error e, fs)

/-- Makes a directory and those above it that are missing. -/
def makeAll (fs : FileSystem) (cwd : Location) (p : Path) : Changed Unit :=
  fs.makeDirectories cwd p.ancestors

/-- Takes away one entry. -/
def remove (fs : FileSystem) (l : Location) : Changed Unit :=
  match fs.refused .remove l with
  | some r => (.error r.errno, fs)
  | none => (.ok (), fs.drop l)

/-- Does something with one after the other, up to the first that fails. -/
def inTurn {α : Type} (f : FileSystem → α → Changed Unit) : FileSystem → List α → Changed Unit
  | fs, [] => (.ok (), fs)
  | fs, a :: as =>
    match f fs a with
    | (.ok (), fs') => inTurn f fs' as
    | (.error e, fs') => (.error e, fs')

/-- Takes away an entry of a directory, after what is in it, which `empty` takes away. An entry that
is gone by then is no failure. -/
def takeAway (empty : FileSystem → Location → Changed Unit) (dir : Location) (fs : FileSystem)
    (name : String) : Changed Unit :=
  match fs.refused .search dir with
  | some r => (.error r.errno, fs)
  | none =>
    match fs.node? (dir ++ [name]) with
    | none => (.ok (), fs)
    | some .directory =>
      match empty fs (dir ++ [name]) with
      | (.ok (), fs') => fs'.remove (dir ++ [name])
      | (.error e, fs') => (.error e, fs')
    | some _ => fs.remove (dir ++ [name])

/-- Takes away what is in a directory, entry by entry, up to the first that is refused. Directories
stand in it no more than `n` deep. -/
def emptyWithin : Nat → FileSystem → Location → Changed Unit
  | 0, fs, _ => (.ok (), fs)
  | n + 1, fs, dir =>
    match fs.refused .read dir with
    | some r => (.error r.errno, fs)
    | none => inTurn (takeAway (emptyWithin n) dir) fs (fs.names dir)

/-- Takes away the empty directory that a path names. A path that leads nowhere is no failure. -/
def removeEmpty (fs : FileSystem) (cwd : Location) (p : Path) : Changed Unit :=
  match fs.parentAndName cwd p with
  | .error .noEntry => (.ok (), fs)
  | .error e => (.error e, fs)
  | .ok none =>
    match p.withoutSlash.steps.getLast? with
    | none => (.error .busy, fs)
    | some s => (.error (if s = "." then .invalid else .notEmpty), fs)
  | .ok (some (dir, name)) =>
    match fs.node? (dir ++ [name]) with
    | none => (.ok (), fs)
    | some .directory => fs.remove (dir ++ [name])
    | some _ => (.error .notDirectory, fs)

/-- Takes a directory away with all it holds. Of a link only the link goes. The directory is first
emptied and then looked up again, from where the working directory is by then, so it stays, empty,
if its path leads through its own inside. What was taken away before something is refused is gone
for good. -/
def removeAll (fs : FileSystem) (cwd : Location) (p : Path) : Changed Unit :=
  match fs.linkStatus cwd p with
  | .error e => (.error e, fs)
  | .ok (l, .link _) => fs.remove l
  | .ok (_, .file ..) => (.error .notDirectory, fs)
  | .ok (l, .directory) =>
    match emptyWithin fs.depth fs l with
    | (.ok (), fs') => fs'.removeEmpty (fs'.seat cwd) p
    | (.error e, fs') => (.error e, fs')

/-- Puts a new file into a directory, under a name that is free. -/
def createIn (fs : FileSystem) (cwd : Location) (dir : Path) (name : String) (mode : Nat) :
    Except Errno (Location × FileSystem) :=
  match fs.status cwd dir with
  | .ok (l, .directory) =>
    if isGone l then .error .noEntry
    else match fs.refused .search l, fs.refused .create (l ++ [name]) with
    | none, none => .ok (l ++ [name], fs.put (l ++ [name]) (.file ByteArray.empty mode))
    | some r, _ | none, some r => .error r.errno
  | .ok _ => .error .notDirectory
  | .error e => .error e

/-- Moves the file at a location over what a path names, a link at its end not followed. -/
def renameFile (fs : FileSystem) (cwd : Location) (source : Location) (target : Path) :
    Except Errno FileSystem := do
  if target.chars.contains '\x00' then throw .invalid
  match ← fs.parentAndName cwd target with
  | none => throw .busy
  | some (dir, name) =>
    let place := dir ++ [name]
    if target.endsWithSlash then throw .notDirectory
    match fs.node? source, fs.node? place, fs.refused .replace place with
    | none, _, _ => throw .noEntry
    | some _, _, some r => throw r.errno
    | some _, some .directory, none => throw .isDirectory
    | some n, _, none => return (fs.drop source).put place n

end ConanPipeline.FileSystem
