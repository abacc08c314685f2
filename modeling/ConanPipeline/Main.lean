import ConanPipeline.Cli.Run

/-! The program. It loads the files around the working directory, runs on them, prints
what the run said, and writes back what the run changed. Other programs are out of its
reach: an attempt to start one is refused. -/

namespace ConanPipeline.Main

/-- The variables that a run looks at. -/
def variableNames : List String :=
  ["HOME", "PATH", "VIRTUAL_ENV", Cli.filterVar, Cli.projectDirVar, conanHomeVar]

/-- How deep directories are loaded. -/
def depth : Nat := 32

/-- Mode that a loaded file is given. -/
def loadedMode : Nat := 0o755

def locationOf (path : String) : Location := (Path.mk path).steps

/-- The entries below a directory. -/
def entriesBelow : Nat → Location → IO (List (Location × Node))
  | 0, _ => return []
  | n + 1, l => do
    let dir := (← IO.currentDir) / (FileSystem.pathOf l).text
    let mut found := []
    for e in ← dir.readDir do
      let here := l ++ [e.fileName]
      match ← e.path.metadata.toBaseIO with
      | .error _ => continue
      | .ok info =>
        match info.type with
        | .dir => found := found ++ (here, .directory) :: (← entriesBelow n here)
        | .file => found := found ++ [(here, .file (← IO.FS.readBinFile e.path) loadedMode)]
        | _ => continue
    return found

/-- The directories down to a location, with the files that would make them projects. -/
def entriesTo (l : Location) : IO (List (Location × Node)) := do
  let mut found := []
  for n in List.range (l.length + 1) do
    found := found ++ [(l.take n, .directory)]
    for name in [settingsFile, descriptorFile] do
      let here := l.take n ++ [name.text]
      if let .ok bytes ← (IO.FS.readBinFile (FileSystem.pathOf here).text).toBaseIO then
        found := found ++ [(here, .file bytes loadedMode)]
  return found

def add (fs : FileSystem) (es : List (Location × Node)) : FileSystem :=
  { fs with entries := fs.entries ++ es.filter fun e => (fs.node? e.1).isNone }

/-- Loads a directory with everything below it. -/
def loadTree (fs : FileSystem) (l : Location) : IO FileSystem := do
  return add fs ((← entriesTo l) ++ (← entriesBelow depth l))

/-- Loads a file with the directories above it. It need not exist. -/
def loadFile (fs : FileSystem) (p : Path) : IO FileSystem := do
  let dir := match p.parent with
    | some d => if d.isEmpty then "." else d.text
    | none => "."
  match ← (IO.FS.realPath dir).toBaseIO, p.fileName with
  | .ok place, some name =>
    let l := locationOf place.toString
    let file ← match ← (IO.FS.readBinFile p.text).toBaseIO with
      | .ok bytes => pure [(l ++ [name], Node.file bytes loadedMode)]
      | .error _ => pure []
    return add fs ((← entriesTo l) ++ file)
  | _, _ => return fs

/-- The files that a request names. -/
def filesOf : Cli.Request → List Path
  | .profileSet _ _ _ target | .profileGet _ _ target => target.path.toList
  | .descriptorSet _ _ path output => path.toList ++ output.toList
  | _ => []

/-- Writes back what differs. -/
def save (old new : FileSystem) : IO Unit := do
  for (l, n) in old.entries do
    if (new.node? l).isNone then
      let path := (FileSystem.pathOf l).text
      let gone := match n with
        | .directory => IO.FS.removeDirAll path
        | _ => IO.FS.removeFile path
      let _ ← gone.toBaseIO
  for (l, n) in new.entries do
    if old.node? l != some n then
      let path := (FileSystem.pathOf l).text
      match n with
      | .directory => IO.FS.createDirAll path
      | .file bytes _ =>
        IO.FS.createDirAll (FileSystem.pathOf l.dropLast).text
        IO.FS.writeBinFile path bytes
      | .link _ => continue

/-- The machine that a run starts on. -/
def machine (args : List String) : IO Machine := do
  let vars ← variableNames.filterMapM fun name => do
    return (← IO.getEnv name).map fun value => (name, value)
  let env : Environment := { vars }
  let cwd := locationOf (← IO.currentDir).toString
  let mut files := add .empty (← entriesTo cwd)
  let project := (Project.findRoot files cwd (FileSystem.pathOf cwd)).map fun p => locationOf p.text
  files ← loadTree files (project.getD cwd)
  if let .ok o := Cli.Options.read env.var? args then
    if let some dir := o.projectDir then
      if let .ok place ← (IO.FS.realPath dir.text).toBaseIO then
        files ← loadTree files (locationOf place.toString)
    for p in filesOf o.request do
      files ← loadFile files p
  return { files, env, cwd, programs := fun _ _ => .error .accessDenied }

/-- Prints one entry of the record on the stream that it belongs to. -/
def print (style : Transcript.Style) (e : Event) : IO Unit := do
  (Transcript.stdout? e).forM IO.print
  (Transcript.stderr? style e).forM IO.eprint

end ConanPipeline.Main

open ConanPipeline in
def main (args : List String) : IO UInt32 := do
  let start ← Main.machine args
  let (reply, after) := (Cli.perform args (← (← IO.getStderr).isTty)).run start
  match reply with
  | .usage =>
    IO.eprintln "error: these arguments make no sense; try --help"
    return 2
  | .help text | .version text | .completions text =>
    IO.print text
    return 0
  | .ran code style =>
    after.events.forM (Main.print style)
    Main.save start.files after.files
    return code.toUInt32
