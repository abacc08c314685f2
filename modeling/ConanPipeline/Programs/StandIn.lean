import ConanPipeline.Machine

/-! Stand-ins for programs, given by rules: the first rule whose words begin the
arguments says what is written, printed and answered.

They serve runs on test inputs only; no theorem depends on them. -/

namespace ConanPipeline

structure Rule where
  args : List String
  /-- A file that is written, with its text. -/
  write : Option (Path × String) := none
  stdout : String := ""
  stderr : String := ""
  killed : Bool := false
  code : Nat := 0
  deriving DecidableEq, Repr

namespace FileSystem

/-- Mode of a file that a program makes. -/
def commonMode : Nat := 0o644

/-- Writes a file in place: links are followed, and a file that is there keeps its mode. -/
def overwrite (fs : FileSystem) (cwd : Location) (p : Path) (bytes : ByteArray)
    (newMode : Nat := commonMode) : Except Errno FileSystem :=
  match fs.locate cwd true p with
  | .error e => .error e
  | .ok l =>
    match fs.node? l with
    | some .directory => .error .isDirectory
    | some (.file _ mode) => .ok (fs.put l (.file bytes mode))
    | _ => .ok (fs.put l (.file bytes newMode))

/-- Writes a file in place, after making the directories above it. -/
def deposit (fs : FileSystem) (cwd : Location) (p : Path) (bytes : ByteArray) :
    Except Errno FileSystem :=
  let fs := match p.parent with
    | some dir => (fs.makeAll cwd dir).2
    | none => fs
  fs.overwrite cwd p bytes

end FileSystem

namespace Rule

def applies (r : Rule) (args : List String) : Bool := r.args.isPrefixOf args

/-- What a stand-in with these rules does. Every call is put on record. -/
def answer (rules : List Rule) (fs : FileSystem) (inv : Invocation) : Outcome :=
  match rules.find? fun r => r.applies inv.args with
  | none => { files := fs, calls := [inv] }
  | some r =>
    let files := match r.write with
      | none => fs
      | some (p, text) =>
        match fs.deposit inv.cwd p text.toUTF8 with
        | .ok fs' => fs'
        | .error _ => fs
    { files
      stdout := r.stdout.toUTF8
      stderr := r.stderr.toUTF8
      exit := if r.killed then .killed 9 else .code r.code
      calls := [inv] }

end Rule

end ConanPipeline
