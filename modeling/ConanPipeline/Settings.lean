import ConanPipeline.Path
import ConanPipeline.Toml.Document

/-! Settings of a project, from the file `buildkit.toml`. Everything has a default,
so an empty file is a complete one (`ofEntries_nil`). -/

namespace ConanPipeline

/-- The settings file of a project. -/
def settingsFile : Path := ⟨"buildkit.toml"⟩

structure Settings where
  name : Option String := none
  /-- Home directory of the package manager. -/
  home : Option Path := none
  profile : String := "default"
  /-- Language standard that profiles are given. -/
  standard : String := "17"
  shared : Bool := true
  venv : Option Path := none
  buildDir : Path := ⟨"build"⟩
  distDir : Path := ⟨"dist"⟩
  deriving DecidableEq, Repr

namespace Settings

/-- A section as its fields: a table gives them by name, an array by their order. -/
def fields? (names : List String) : Toml.Value → Option Toml.Entries
  | .table _ es => some es
  | .list vs => some (names.zip vs)
  | .tables ts => some (names.zip (ts.map fun es => .table .header es))
  | .moment => some []
  | _ => none

def text? : Toml.Value → Option String
  | .text s => some s
  | _ => none

def flag? : Toml.Value → Option Bool
  | .flag b => some b
  | _ => none

/-- Reads a field, or keeps the default if it is missing. `none` if it has a wrong kind. -/
def field {α : Type} (es : Toml.Entries) (name : String) (read : Toml.Value → Option α)
    (default : α) : Option α :=
  match es.find? name with
  | none => some default
  | some v => read v

def section? (doc : Toml.Entries) (name : String) (names : List String) : Option Toml.Entries :=
  match doc.find? name with
  | none => some []
  | some v => fields? names v

/-- The settings that a document gives. Unknown keys do not count. -/
def ofEntries (doc : Toml.Entries) : Option Settings := do
  let d : Settings := {}
  let project ← section? doc "project" ["name"]
  let conan ← section? doc "conan" ["home", "profile", "cppstd", "shared", "venv"]
  let build ← section? doc "build" ["dir", "dist"]
  let path? (v : Toml.Value) : Option Path := (text? v).map Path.mk
  return {
    name := ← field project "name" (fun v => (text? v).map some) d.name
    home := ← field conan "home" (fun v => (path? v).map some) d.home
    profile := ← field conan "profile" text? d.profile
    standard := ← field conan "cppstd" text? d.standard
    shared := ← field conan "shared" flag? d.shared
    venv := ← field conan "venv" (fun v => (path? v).map some) d.venv
    buildDir := ← field build "dir" path? d.buildDir
    distDir := ← field build "dist" path? d.distDir }

theorem ofEntries_nil : ofEntries [] = some {} := rfl

/-- The settings in the text of a settings file. -/
def ofText (text : String) : Option Settings := Toml.read? text >>= ofEntries

end Settings

end ConanPipeline
