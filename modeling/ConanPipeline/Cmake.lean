import ConanPipeline.Conan
import ConanPipeline.Generator
import ConanPipeline.Toolchain

/-! The build tool: found in a toolchain file, in the package manager's cache, or on
`PATH`. In the cache the executable with the shortest path wins.

The walk through the cache is that of `walkdir`: no link in the tree is followed, its root may be
one, and a directory that cannot be listed is an item of its own. A listing that has begun does not
fail. -/

namespace ConanPipeline

/-- The order of names: by their characters. -/
def nameLt (a b : String) : Bool := a.toList.lex b.toList

/-- Puts a name where it belongs among some in order. -/
def insertName (n : String) : List String → List String
  | [] => [n]
  | m :: ms => if nameLt m n then m :: insertName n ms else n :: m :: ms

/-- The order of relative locations: fewer names first, then name by name. -/
def shallower (a b : Location) : Bool :=
  a.length < b.length || (a.length == b.length && a.lex b nameLt)

/-- The first of the shallowest locations. -/
def shallowest? : List Location → Option Location
  | [] => none
  | l :: ls =>
    match shallowest? ls with
    | none => some l
    | some k => if shallower k l then some k else some l

/-- What a walk through a tree comes to. -/
inductive Visit where
  /-- An entry, by the names that lead to it from the root. No link is followed on the way. -/
  | entry (below : Location) (node : Node)
  /-- A directory that cannot be listed, or a root that leads nowhere. -/
  | unread (path : Path) (reason : Errno)

/-- What a search in a tree comes to: the places that it could not read, in the order in which it
came to them, and what it found. -/
structure TreeSearch where
  unread : List (Path × Errno) := []
  found : Option Path := none

def Visit.unread? : Visit → Option (Path × Errno)
  | .entry .. => none
  | .unread path reason => some (path, reason)

namespace FileSystem

/-- The path of an entry of a tree, by the path of the tree's root. -/
def pathBelow (root : Path) (below : Location) : Path := below.foldl (fun p n => p.join ⟨n⟩) root

/-- The names in a directory in their order, however they are listed. -/
def sortedNames (fs : FileSystem) (dir : Location) : List String :=
  (fs.names dir).foldr insertName []

/-- Walks through what a directory of a tree holds, at most `n` directories deep. Each directory
comes before what is in it and is listed by its path. -/
def visitsWithin (fs : FileSystem) (cwd : Location) (root : Path) : Nat → Location → List Visit
  | 0, _ => []
  | n + 1, below =>
    match fs.openDirectory cwd (pathBelow root below) with
    | .error e => [.unread (pathBelow root below) e]
    | .ok dir => (fs.sortedNames dir).flatMap fun name =>
      match fs.node? (dir ++ [name]) with
      | none => []
      | some .directory =>
        .entry (below ++ [name]) .directory :: fs.visitsWithin cwd root n (below ++ [name])
      | some node => [.entry (below ++ [name]) node]

/-- Walks through a tree. If its root is a link to a directory, what is in the directory belongs to
it; a file is a tree of its own. -/
def visits (fs : FileSystem) (cwd : Location) (root : Path) : List Visit :=
  let inside : List Visit := fs.visitsWithin cwd root fs.depth []
  match fs.linkStatus cwd root with
  | .error e => [.unread root e]
  | .ok (_, .directory) => .entry [] .directory :: inside
  | .ok (_, .file b mode) => [.entry [] (.file b mode)]
  | .ok (_, .link t) =>
    match fs.status cwd root with
    | .error e => [.unread root e]
    | .ok (_, .directory) => .entry [] (.link t) :: inside
    | .ok _ => [.entry [] (.link t)]

/-- An entry that is an executable of a name. -/
def tool? (fs : FileSystem) (cwd : Location) (root : Path) (stem : String) :
    Visit → Option Location
  | .entry below (.file ..) =>
    if (pathBelow root below).isNamed stem && fs.isExecutable cwd (pathBelow root below) then
      some below
    else none
  | _ => none

/-- Looks for the shallowest executable of a name in a tree. -/
def findInTree (fs : FileSystem) (cwd : Location) (root : Path) (stem : String) : TreeSearch where
  unread := (fs.visits cwd root).filterMap Visit.unread?
  found := (shallowest? ((fs.visits cwd root).filterMap (fs.tool? cwd root stem))).map
    (pathBelow root)

end FileSystem

/-- Finds the build tool that the package manager has in its cache. -/
def findCmakeInCache (conanHome : Path) : Action Tool := do
  let cache := conanHome.join ⟨"p"⟩
  let m ← get
  let search := m.files.findInTree m.cwd cache "cmake"
  search.unread.forM fun u => log .debug .cmake
    ("skipping unreadable cache entry: IO error for operation on " ++ u.1.text ++ ": " ++ u.2.text)
  match search.found with
  | none => Action.failWith (.toolMissing "cmake" cache.text)
  | some path =>
    let tool ← Tool.probe path Tool.cmakeVersion
    log .info .cmake ("found cmake " ++ tool.version ++ " in conan cache " ++ conanHome.text)
    return tool

/-- The build tool that a toolchain file gives. -/
def cmakeFromToolchain (file : Path) (platform : Platform) : Action Path := do
  if !(← get).isFile file then Action.failWith (.missing "toolchain file" file)
  let text ← fileText file
  match Toolchain.cmake file platform text.toList with
  | .error c => Action.failWith c
  | .ok cmake =>
    log .info .cmake ("conan-installed cmake: " ++ cmake.text)
    return cmake

/-- The first build tool that one of the toolchain files gives and that is there. -/
def cmakeFromToolchains : List Path → Effect (Option Path)
  | [] => return none
  | file :: files => do
    if !(← get).isFile file then cmakeFromToolchains files
    else
      match ← (cmakeFromToolchain file Platform.host).run with
      | .error f =>
        log .debug .cmake f.message
        cmakeFromToolchains files
      | .ok cmake =>
        if (← get).isFile cmake then return some cmake
        else
          log .debug .cmake
            ("toolchain " ++ file.text ++ " points at missing " ++ cmake.text)
          cmakeFromToolchains files

/-- Finds the build tool for a run. -/
def resolveCmake (plan : Plan) : Action Path := do
  match ← (cmakeFromToolchains plan.toolchains : Effect _) with
  | some cmake => return cmake
  | none =>
    match ← Action.attempt (findCmakeInCache plan.conanHome) with
    | .ok tool => return tool.path
    | .error f =>
      log .debug .cmake f.message
      match (← get).which "cmake" with
      | some cmake => return cmake
      | none =>
        Action.failWith (.toolMissing "cmake" ("toolchain files under " ++ plan.buildDir.text ++
          ", conan cache " ++ plan.conanHome.text ++ ", PATH"))

/-- Picks the generator for this machine, by what the build tool lists. -/
def detectGenerator (cmake : Path) : Action String := do
  let asked := Command.run { program := cmake, args := ["--help"] } false
  let help := match ← Action.attempt asked with
    | .ok output => output.stdout
    | .error _ => ""
  let ninja := ((← get).which "ninja").isSome
  match Generator.choose Platform.host ninja (Generator.isListed help) with
  | .ok g => return g
  | .error c => Action.failWith c

/-- The build tool, with the tools beside it. -/
structure Cmake where
  executable : Path
  deriving DecidableEq, Repr

namespace Cmake

def locate (plan : Plan) : Action Cmake := do return ⟨← resolveCmake plan⟩

/-- The test runner beside the build tool, or the one on `PATH`. -/
def ctest (c : Cmake) : Action Path := do
  let m ← get
  let name := Platform.host.executable "ctest"
  let beside := (c.executable.parent.map fun dir => dir.join ⟨name⟩).filter m.isFile
  match beside with
  | some p => return p
  | none =>
    match m.which "ctest" with
    | some p => return p
    | none =>
      Action.failWith (.toolMissing "ctest" ("next to " ++ c.executable.text ++ " and PATH"))

/-- A command of the build tool. A first argument that names the tool is dropped. -/
def command (c : Cmake) (args : List String) : Command where
  program := c.executable
  args := withoutToolName "cmake" args

def stream (c : Cmake) (console : Console) (args : List String) : Action Unit :=
  (c.command args).streamShown console

end Cmake

end ConanPipeline
