import ConanPipeline.Cli.Options
import ConanPipeline.Configure
import ConanPipeline.Pipeline.Steps
import ConanPipeline.Report
import ConanPipeline.Transcript

/-! Runs of the program: reading its arguments, doing what they ask for, and ending
with a code. -/

namespace ConanPipeline.Cli

/-- The variable that holds a log filter. -/
def filterVar : String := "BUILDKIT_LOG"

/-- How a run ends. -/
inductive Reply where
  /-- The arguments make no sense. -/
  | usage
  | help (text : String)
  | version (text : String)
  | completions (script : String)
  /-- A command was run, with this code and style of its output. -/
  | ran (code : Nat) (style : Transcript.Style)

/-- Opens the project that the options name, or the nearest one. -/
def openProject (dir : Option Path) : Action Project := do
  match dir with
  | some dir =>
    if !(← get).isDirectory dir then Action.failWith (.missing "project directory" dir)
    Project.openAt dir
  | none => Project.discover

/-- The file of a profile: the one given, or the named one in the project's home. -/
def profileFile (target : ProfileTarget) (dir : Option Path) : Action Path := do
  match target.path with
  | some p => return p
  | none =>
    let project ← openProject dir
    return project.profilePath (target.name.getD project.settings.profile)

def runBuild (console : Console) (dir : Option Path) (workflow : Workflow) : Action Unit := do
  if !workflow.anyStep then
    console.note "no workflow step selected; pass --clean, --build, --pack or --test"
  else
    let plan := Plan.ofProject (← openProject dir) workflow
    log .debug .buildCommand ("build configuration: " ++ plan.describe)
    build console plan

def runEnv (console : Console) (dir : Option Path) : Action Unit := do
  let project ← openProject dir
  let report ← (inspect (Plan.ofProject project {}) : Effect _)
  record (.printed report.text)
  if !report.allFound then
    console.warn "some tools were not found; run `buildkit configure` to set them up"

def runProfileSet (console : Console) (file : Path) (sec key : String) (value : Option String) :
    Action Unit := do
  updateProfile file sec key value
  console.say .updated ("[" ++ sec ++ "] " ++ key ++ " in " ++ file.text)

def runProfileGet (file : Path) (sec key : String) : Action Unit := do
  match ← profileValue file sec key with
  | some v => record (.printed (v ++ "\n"))
  | none => Action.failWith (.missing ("[" ++ sec ++ "] " ++ key) file)

def runDescriptorSet (console : Console) (file : Path) (attr value : String)
    (output : Option Path) : Action Unit := do
  match ← updateDescriptor file attr value output with
  | some old =>
    console.say .updated (attr ++ " = " ++ Literal.ofString value ++ " (was " ++ old ++ ")")
  | none =>
    console.warn ("attribute `" ++ attr ++ "` not found in " ++ file.text ++ "; nothing changed")

def run (console : Console) (dir : Option Path) : Request → Action Unit
  | .build workflow => runBuild console dir workflow
  | .configure fresh installConan => do
    let _ ← configure (← openProject dir) console ⟨fresh, installConan⟩
  | .env => runEnv console dir
  | .profileSet sec key value target => do
    runProfileSet console (← profileFile target dir) sec key value
  | .profileGet sec key target => do runProfileGet (← profileFile target dir) sec key
  | .descriptorSet attr value path output => do
    let file ← match path with
      | some p => pure p
      | none => Project.descriptorPath <$> openProject dir
    runDescriptorSet console file attr value output
  | .completions shell => record (.printed (completionScript shell))

/-- The filter for a run: the one in the environment if it can be read, else by verbosity. -/
def filterFor (env : Environment) (o : Options) : Filter :=
  ((env.var? filterVar) >>= Filter.read?).getD
    (if o.verbose then .upTo .debug else if o.quiet then .upTo .warn else .upTo .info)

/-- Runs the program. `terminal` tells whether messages go to one. -/
def perform (args : List String) (terminal : Bool) : Effect Reply := do
  let env := (← get).env
  match Options.read env.var? args with
  | .error .usage => return .usage
  | .error (.help names) => return .help (helpText names)
  | .error .version => return .version (grammar.program ++ " " ++ grammar.version ++ "\n")
  | .ok o =>
    match o.request with
    | .completions shell => return .completions (completionScript shell)
    | request =>
      let console := Console.ofFlags o.quiet o.verbose o.color terminal
      let style : Transcript.Style := { console, filter := filterFor env o }
      match ← (run console o.projectDir request).run with
      | .ok () => return .ran 0 style
      | .error f =>
        record (.complained ("error: " ++ f.message ++ "\n"))
        return .ran 1 style

end ConanPipeline.Cli
