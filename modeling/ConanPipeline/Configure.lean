import ConanPipeline.Conan
import ConanPipeline.Descriptor
import ConanPipeline.Platform
import ConanPipeline.Profile

/-! Edits of profile and descriptor files, and the set-up of a project's package
manager: its home, and a profile with the project's settings. -/

namespace ConanPipeline

/-- Sets a key in a profile file. -/
def updateProfile (file : Path) (sec key : String) (value : Option String) : Action Unit := do
  if !(← get).isFile file then
    Action.failWith (.missing ("profile `" ++ file.fileName.getD "" ++ "`") file)
  let text ← fileText file
  let value := value.map String.toList
  replaceFile file (.ofList (Profile.set sec.toList key.toList value text.toList))
  log .info .profile ("profile " ++ file.text ++ " updated: [" ++ sec ++ "] " ++
    .ofList (Text.trimEnd (Profile.entry key.toList value)))

/-- The text of a profile file. -/
def readProfile (file : Path) : Action String := do
  if !(← get).isFile file then Action.failWith (.missing "profile" file)
  fileText file

def profileValue (file : Path) (sec key : String) : Action (Option String) := do
  return (Profile.get sec.toList key.toList (← readProfile file).toList).map .ofList

/-- Fails if a profile does not do for a language standard. -/
def validateProfile (file : Path) (standard : String) : Action Unit := do
  match Profile.shortcoming? (← readProfile file).toList standard.toList with
  | none => return
  | some s => Action.failWith (.badConfiguration s.text)

/-- Sets an attribute in a descriptor file and writes the result to `output`, or back. Gives the
old value; without an assignment nothing is written. -/
def updateDescriptor (file : Path) (attr value : String) (output : Option Path) :
    Action (Option String) := do
  if !(← get).isFile file then Action.failWith (.missing "descriptor" file)
  let text ← fileText file
  match Descriptor.set? attr.toList value.toList text.toList with
  | none =>
    log .warn .descriptor
      ("attribute `" ++ attr ++ "` does not exist in " ++ file.text ++ "; nothing changed")
    return none
  | some (text, old) =>
    let target := output.getD file
    replaceFile target (.ofList text)
    log .info .descriptor ("updated attribute `" ++ attr ++ "` from " ++ .ofList old ++ " to " ++
      Literal.ofString value ++ " in " ++ target.text)
    return some (.ofList old)

structure ConfigureOptions where
  /-- Take the home away first. -/
  fresh : Bool := false
  /-- Install the package manager first. -/
  installConan : Bool := false
  deriving DecidableEq, Repr

/-- Installs the package manager into the project's environment. -/
def installConan (project : Project) (console : Console) : Action Unit := do
  let cmd ← pipenvRun project.root ["pip", "install", "conan"]
  let work ← (console.start .running "pip install conan" : Effect _)
  cmd.streamShown console
  console.finish work

/-- Makes sure that the home is there; a fresh one is empty. -/
def initializeHome (conan : Conan) (fresh : Bool) : Action Unit := do
  if fresh then
    if ← removeDirectory conan.home then
      log .info .configure ("removed existing conan home " ++ conan.home.text)
  ensureDirectory conan.home
  let output ← conan.run ["config", "home"] true
  log .debug .configure ("conan reports home " ++ Text.trimmed output.stdout)

/-- The entries that a project's profile carries. -/
def profileSettings (standard : String) (shared : Bool) (platform : Platform) :
    List (String × String × String) :=
  [("settings", "compiler.cppstd", standard),
    ("options", "*:shared", if shared then "True" else "False")] ++
  (if platform = .linux then [("settings", "compiler.libcxx", "libstdc++11")] else [])

/-- Makes sure that a profile is there and carries the project's entries. -/
def initializeProfile (conan : Conan) (name standard : String) (shared : Bool)
    (platform : Platform) : Action Path := do
  let shown ← conan.run ["profile", "show", "--profile", name] false
  if shown.success then
    log .info .configure ("profile `" ++ name ++ "` exists")
  else
    log .warn .configure ("profile `" ++ name ++ "` not found; running conan profile detect")
    let _ ← conan.run ["profile", "detect", "--name", name] true
  let file := (conan.home.join ⟨"profiles"⟩).join ⟨name⟩
  (profileSettings standard shared platform).forM fun (sec, key, value) =>
    updateProfile file sec key (some value)
  return file

/-- Prepares home and profile of a project, and gives the path of the profile. -/
def configure (project : Project) (console : Console) (options : ConfigureOptions) :
    Action Path := do
  if options.installConan then installConan project console
  let conan ← Conan.locate (Plan.ofProject project {})
  let work ← (console.start .configuring ("conan home " ++ conan.home.text) : Effect _)
  initializeHome conan options.fresh
  let s := project.settings
  let file ← initializeProfile conan s.profile s.standard s.shared Platform.host
  validateProfile file s.standard
  console.finish work
  console.say .updated file.text
  return file

end ConanPipeline
