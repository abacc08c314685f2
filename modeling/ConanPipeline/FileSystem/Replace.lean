import ConanPipeline.FileSystem.Change
import ConanPipeline.Failure

/-! Replacing a file as a whole. The new contents go into a temporary file beside
the file at the end of the links, and that file is then moved over it. Whatever of this fails, the
temporary file is taken away again.

Temporary files are those of `tempfile`: of mode 0600, under a path from the top down, and taken
away without a word when they are given up. Their names are not random here but the first free
ones. A write fails before anything is written. -/

namespace ConanPipeline.FileSystem

/-- The outcome of an activity on files, and the files after it. -/
abbrev Attempt (α : Type) := Except Failure α × FileSystem

def fail {α : Type} (fs : FileSystem) (a : Activity) (c : Cause) : Attempt α :=
  (.error ((Failure.of c).inside a), fs)

/-- The text of a file. -/
def readText (fs : FileSystem) (cwd : Location) (p : Path) : Except Cause String :=
  match fs.read cwd p with
  | .error e => .error (.refused e)
  | .ok bytes =>
    match String.fromUTF8? bytes with
    | some s => .ok s
    | none => .error .notUtf8

/-- Takes a directory away if the path leads anywhere, and says whether it did. -/
def removeIfPresent (fs : FileSystem) (cwd : Location) (p : Path) : Attempt Bool :=
  if fs.present cwd p then
    match fs.removeAll cwd p with
    | (.ok (), fs') => (.ok true, fs')
    | (.error e, fs') => fail fs' (.removingDirectory p) (.refused e)
  else (.ok false, fs)

/-- Makes a directory unless the path leads somewhere already. -/
def ensureDirectory (fs : FileSystem) (cwd : Location) (p : Path) : Attempt Unit :=
  if fs.present cwd p then (.ok (), fs)
  else
    match fs.makeAll cwd p with
    | (.ok (), fs') => (.ok (), fs')
    | (.error e, fs') => fail fs' (.creatingDirectory p) (.refused e)

/-- Follows a path that is a link, again and again, at most `n` times. `asked` is the path that it
started from. -/
def endOfLinksWithin (fs : FileSystem) (cwd : Location) (asked : Path) :
    Nat → Path → Except Failure Path
  | 0, _ => .error (.of (.linkChain asked))
  | n + 1, p =>
    match fs.linkStatus cwd p with
    | .ok (l, .link t) =>
      match fs.refused .read l with
      | some r => .error ((Failure.of (.refused r.errno)).inside (.readingLink p))
      | none =>
        fs.endOfLinksWithin cwd asked n (match p.parent with
          | some dir => dir.join t
          | none => t)
    | _ => .ok p

/-- The path that holds the data. It need not exist. -/
def endOfLinks (fs : FileSystem) (cwd : Location) (p : Path) : Except Failure Path :=
  fs.endOfLinksWithin cwd p linkLimit p

/-- The directory that a file goes into. -/
def directoryOf (p : Path) : Path :=
  match p.parent with
  | some dir => if dir.isEmpty then ⟨"."⟩ else dir
  | none => ⟨"."⟩

def temporaryName (n : Nat) : String :=
  ".tmpXXXXXX" ++ (if n = 0 then "" else toString n)

/-- A temporary name that no entry of a directory has. -/
def freeName (fs : FileSystem) (dir : Location) : String :=
  temporaryName (((List.range (fs.entries.length + 1)).find? fun n =>
    (fs.node? (dir ++ [temporaryName n])).isNone).getD 0)

/-- A location as a path. -/
def pathOf (l : Location) : Path := ⟨"/" ++ "/".intercalate l⟩

/-- Permission bits of a directory. -/
def directoryMode : Nat := 0o755

/-- Mode of a file that only its owner may read and write. -/
def privateMode : Nat := 0o600

/-- The path by which a temporary file is made in a directory. It starts at the top directory. -/
def temporaryPath (cwd : Location) (dir : Path) : Path :=
  (if dir.isAbsolute then dir else (pathOf cwd).join dir).join ⟨temporaryName 0⟩

/-- The first refusal on the way from the top down to a directory. -/
def barred (fs : FileSystem) (l : Location) : Option Refusal :=
  (List.range l.length).findSome? fun n => fs.refused .search (l.take n)

/-- Makes an empty file in a directory, under a name of its own. The way to it starts at the top
directory. Nothing is made by a relative path once the working directory is gone. -/
def createTemporary (fs : FileSystem) (cwd : Location) (dir : Path) :
    Except Cause (Location × FileSystem) :=
  if isGone cwd && !dir.isAbsolute then .error (.refused .noEntry)
  else
    let made := do
      let _ ← origin cwd (temporaryPath cwd dir)
      match fs.barred (if dir.isAbsolute then [] else cwd) with
      | some r => throw r.errno
      | none =>
        let (l, _) ← fs.status cwd dir
        fs.createIn cwd dir (fs.freeName l) privateMode
    made.mapError fun e => .refusedAt e (temporaryPath cwd dir)

/-- Takes away a temporary file that is of no use any more, as far as that is not refused. -/
def discard (fs : FileSystem) (l : Location) : FileSystem := (fs.remove l).2

/-- Gets the file at a location to the disk. It is to take the place of what a path leads to. -/
def flush (fs : FileSystem) (l : Location) (p : Path) : Attempt Unit :=
  match fs.refused .flush l with
  | some r => fail fs (.flushingFile p) (.refused r.errno)
  | none => (.ok (), fs)

/-- Writes to a new file at a location what is to take the place of a path's `target`, gives it the
mode of what is there, and gets it to the disk. A write that fails leaves the file empty. -/
def fill (fs : FileSystem) (cwd l : Location) (p target : Path) (contents : String) :
    Attempt Unit :=
  match fs.refused .write l with
  | some r => fail fs (.writingFile p) (.refused r.errno)
  | none =>
    let written (mode : Nat) : FileSystem := fs.put l (.file contents.toUTF8 mode)
    match fs.status cwd target, fs.refused .setMode l with
    | .error _, _ => (written privateMode).flush l p
    | .ok _, some r => fail (written privateMode) (.copyingMode target) (.refused r.errno)
    | .ok (_, .file _ mode), none => (written mode).flush l p
    | .ok _, none => (written directoryMode).flush l p

/-- Replaces the contents of a file, or makes it. A link stays, and the file it leads to is
replaced. A file that was there keeps its mode. -/
def replace (fs : FileSystem) (cwd : Location) (p : Path) (contents : String) : Attempt Unit :=
  match fs.endOfLinks cwd p with
  | .error f => (.error f, fs)
  | .ok target =>
    let dir := directoryOf target
    match fs.ensureDirectory cwd dir with
    | (.error f, fs₁) => (.error f, fs₁)
    | (.ok (), fs₁) =>
      match fs₁.createTemporary cwd dir with
      | .error c => fail fs₁ (.creatingTemporary dir) c
      | .ok (l, fs₂) =>
        match fs₂.fill cwd l p target contents with
        | (.error f, fs₃) => (.error f, fs₃.discard l)
        | (.ok (), fs₃) =>
          match fs₃.renameFile cwd l target with
          | .ok fs₄ => (.ok (), fs₄)
          | .error e => fail (fs₃.discard l) (.replacingFile target) (.refused e)

end ConanPipeline.FileSystem
