import ConanPipeline.Cli.Arguments
import ConanPipeline.Console
import ConanPipeline.Path
import ConanPipeline.Plan

/-! The commands of the program, their options, and what they ask for. -/

namespace ConanPipeline.Cli

/-- A profile by its name or by its file. -/
structure ProfileTarget where
  name : Option String
  path : Option Path
  deriving DecidableEq, Repr

/-- What the user asks for. -/
inductive Request where
  | build (workflow : Workflow)
  | configure (fresh installConan : Bool)
  | env
  | profileSet (sec key : String) (value : Option String) (target : ProfileTarget)
  | profileGet (sec key : String) (target : ProfileTarget)
  | descriptorSet (attr value : String) (path output : Option Path)
  | completions (shell : String)
  deriving DecidableEq, Repr

structure Options where
  quiet : Bool
  verbose : Bool
  color : ColorChoice
  projectDir : Option Path
  request : Request
  deriving DecidableEq, Repr

def projectDirVar : String := "BUILDKIT_PROJECT_DIR"

def shells : List String := ["bash", "elvish", "fish", "powershell", "zsh"]

def targetOptions : List OptionSpec :=
  [{ long := "profile", takes := .text, help := "Profile name inside the Conan home" },
    { long := "path", takes := .path, help := "Explicit profile file" }]

def grammar : Grammar where
  program := "buildkit"
  version := "0.1.0"
  global := [
    { long := "verbose", short := some 'v', help := "Enable verbose output" },
    { long := "quiet", short := some 'q', help := "Only print errors" },
    { long := "color", takes := .oneOf ["auto", "always", "never"],
      help := "When to color status output" },
    { long := "project-dir", takes := .path, var := some projectDirVar,
      help := "Project directory" }]
  globalExcludes := [("quiet", "verbose")]
  commands := [
    ([], {
      name := "buildkit", help := "Build automation for Conan + CMake C++ projects"
      subcommands := ["build", "configure", "env", "profile", "descriptor", "completions"] }),
    (["build"], {
      name := "build", help := "Clean, build, package and test the project"
      options := [
        { long := "clean", help := "Clean the build tree of the selected build type" },
        { long := "build", help := "Install dependencies and build with Conan" },
        { long := "pack", help := "Install artifacts into the dist directory" },
        { long := "test", help := "Run tests with ctest" },
        { long := "debug", help := "Use the Debug build type instead of Release" }] }),
    (["configure"], {
      name := "configure", help := "Set up the Conan home and profile"
      options := [
        { long := "fresh", help := "Delete and recreate the Conan home" },
        { long := "install-conan", help := "Install conan into the pipenv environment first" }] }),
    (["env"], { name := "env", help := "Show the discovered virtual environment and tools" }),
    (["profile"], {
      name := "profile", help := "Read or edit a Conan profile", subcommands := ["set", "get"] }),
    (["profile", "set"], {
      name := "set", help := "Set a key in a profile section", options := targetOptions
      positionals := [
        { name := "SECTION" }, { name := "KEY" }, { name := "VALUE", required := false }]
      excludes := [("profile", "path")] }),
    (["profile", "get"], {
      name := "get", help := "Print a key from a profile section", options := targetOptions
      positionals := [{ name := "SECTION" }, { name := "KEY" }]
      excludes := [("profile", "path")] }),
    (["descriptor"], {
      name := "descriptor", help := "Edit the project descriptor (conanfile.py)"
      subcommands := ["set"] }),
    (["descriptor", "set"], {
      name := "set", help := "Replace the value of an existing attribute"
      options := [
        { long := "path", takes := .path, help := "Descriptor to edit" },
        { long := "output", takes := .path, help := "Write the result here" }]
      positionals := [{ name := "ATTRIBUTE" }, { name := "VALUE" }] }),
    (["completions"], {
      name := "completions", help := "Generate shell completions"
      positionals := [{ name := "SHELL", takes := .oneOf shells }] })]

def pathValue? (levels : List Level) (name : String) : Option Path :=
  (value? levels name).map Path.mk

/-- What a command asks for, given its names, its options and its positional arguments. -/
def request? (names : List String) (l : Level) (verbose : Bool) : Option Request :=
  let has := isSet [l]
  let target : ProfileTarget := ⟨value? [l] "profile", pathValue? [l] "path"⟩
  match names, l.positionals with
  | ["build"], [] => some (.build {
      clean := has "clean", build := has "build", pack := has "pack", test := has "test"
      debug := has "debug", verbose })
  | ["configure"], [] => some (.configure (has "fresh") (has "install-conan"))
  | ["env"], [] => some .env
  | ["profile", "set"], [sec, key] => some (.profileSet sec key none target)
  | ["profile", "set"], [sec, key, value] => some (.profileSet sec key (some value) target)
  | ["profile", "get"], [sec, key] => some (.profileGet sec key target)
  | ["descriptor", "set"], [attr, value] =>
    some (.descriptorSet attr value (pathValue? [l] "path") (pathValue? [l] "output"))
  | ["completions"], [shell] => some (.completions shell)
  | _, _ => none

def colorOf : Option String → ColorChoice
  | some "always" => .always
  | some "never" => .never
  | _ => .auto

/-- Reads the arguments of the program. -/
def Options.read (var? : String → Option String) (args : List String) : Except Stop Options := do
  let (names, levels) ← grammar.read var? args
  let verbose := isSet levels "verbose"
  match levels.head? >>= fun l => request? names l verbose with
  | none => throw .usage
  | some request =>
    return {
      quiet := isSet levels "quiet"
      verbose
      color := colorOf (value? levels "color")
      projectDir := (pathValue? levels "project-dir").or ((var? projectDirVar).map Path.mk)
      request }

/-- A short account of a command and its options. -/
def helpText (names : List String) : String :=
  match grammar.find? names with
  | none => ""
  | some spec =>
    let option (o : OptionSpec) : String := "  --" ++ flushLeft 16 o.long ++ o.help ++ "\n"
    let sub (n : String) : String := "  " ++ n ++ "\n"
    spec.help ++ "\n\nUsage: " ++ " ".intercalate (grammar.program :: names) ++ "\n\n" ++
      String.join (spec.subcommands.map sub) ++
      String.join ((spec.options ++ grammar.global).map option)

/-- A completion script: the names of the commands and options as words to choose from. -/
def completionScript (shell : String) : String :=
  let words := grammar.commands.flatMap fun c =>
    c.2.subcommands ++ c.2.options.map fun o => "--" ++ o.long
  let list := " ".intercalate words.eraseDups
  if shell = "fish" then "complete -c buildkit -a '" ++ list ++ "'\n"
  else if shell = "zsh" then "#compdef buildkit\ncompadd " ++ list ++ "\n"
  else if shell = "bash" then "complete -W '" ++ list ++ "' buildkit\n"
  else "# buildkit: " ++ list ++ "\n"

end ConanPipeline.Cli
