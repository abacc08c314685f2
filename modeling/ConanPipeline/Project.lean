import ConanPipeline.Machine
import ConanPipeline.Settings

/-! Projects: a root directory, the settings found there, and the paths that follow
from both. The root is the nearest directory upward that holds a settings file or a
descriptor (`isRoot_of_findRoot`). -/

namespace ConanPipeline

/-- The descriptor that the package manager reads. -/
def descriptorFile : Path := ⟨"conanfile.py"⟩

/-- A path as seen from `root`, unless it is absolute. A leading `~` is the user's home. -/
def Path.resolve (p home root : Path) : Path :=
  match p.belowHome? with
  | some rest => home.join rest
  | none => if p.isAbsolute then p else root.join p

structure Project where
  root : Path
  settings : Settings
  /-- Home directory of the user. -/
  home : Path
  deriving Repr

namespace Project

/-- The name that a project is shown by. -/
def name (p : Project) : String :=
  p.settings.name.getD (p.root.fileName.getD "project")

def buildDir (p : Project) : Path := p.settings.buildDir.resolve p.home p.root

def distDir (p : Project) : Path := p.settings.distDir.resolve p.home p.root

/-- Home directory of the package manager; inside the project unless the settings say otherwise. -/
def conanHome (p : Project) : Path :=
  match p.settings.home with
  | some h => h.resolve p.home p.root
  | none => p.root.join ⟨".conan2"⟩

def venv (p : Project) : Option Path := p.settings.venv.map fun v => v.resolve p.home p.root

def profilePath (p : Project) (name : String) : Path :=
  (p.conanHome.join ⟨"profiles"⟩).join ⟨name⟩

def descriptorPath (p : Project) : Path := p.root.join descriptorFile

def isRoot (fs : FileSystem) (cwd : Location) (dir : Path) : Bool :=
  fs.isFile cwd (dir.join settingsFile) || fs.isFile cwd (dir.join descriptorFile)

/-- The nearest project directory, from `start` upward. -/
def findRoot (fs : FileSystem) (cwd : Location) (start : Path) : Option Path :=
  start.ancestors.find? (isRoot fs cwd)

theorem isRoot_of_findRoot {fs : FileSystem} {cwd : Location} {start dir : Path}
    (h : findRoot fs cwd start = some dir) : isRoot fs cwd dir = true :=
  List.find?_some h

end Project

/-- Reads a settings file. -/
def loadSettings (file : Path) : Action Settings := do
  let m ← get
  match m.files.readText m.cwd file with
  | .error c => throw ((Failure.of c).inside (.readingSettings file))
  | .ok text =>
    match Settings.ofText text with
    | some s => return s
    | none => throw ((Failure.of .malformed).inside (.parsingSettings file))

/-- Reads a settings file, or takes the defaults if there is none. -/
def loadSettingsOrDefault (file : Path) : Action Settings := do
  let m ← get
  if m.files.present m.cwd file then loadSettings file
  else
    log .debug .settings ("no buildkit.toml at " ++ file.text ++ ", using defaults")
    return {}

namespace Project

/-- Opens the project at a root. -/
def openAt (root : Path) : Action Project := do
  let settings ← loadSettingsOrDefault (root.join settingsFile)
  return { root, settings, home := (← get).env.home }

/-- Opens the nearest project, from `start` upward. -/
def discoverFrom (start : Path) : Action Project := do
  let m ← get
  match findRoot m.files m.cwd start with
  | some root => openAt root
  | none => Action.failWith (.missing "buildkit.toml or conanfile.py" start)

/-- Opens the nearest project, from the working directory upward. -/
def discover : Action Project := do discoverFrom (← workingDirectory)

end Project

end ConanPipeline
