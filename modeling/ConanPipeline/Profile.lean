import ConanPipeline.Version

/-! Profiles: `[section]` headers, each followed by `key=value` lines or bare keys.
Editing works on lines and leaves all others as they are. -/

namespace ConanPipeline.Profile

/-- The line that sets a key. Without a value the key stands alone. -/
def entry (key : List Char) : Option (List Char) → List Char
  | some v => key ++ '=' :: v ++ ['\n']
  | none => key ++ ['\n']

def isHeader (stripped : List Char) : Bool := stripped.head? == some '['

/-- Whether a stripped line begins with the header of a section. -/
def opens (sec stripped : List Char) : Bool := Text.startsWith ('[' :: sec ++ [']']) stripped

/-- Whether a stripped line sets a key, with a value or bare. -/
def assigns (key stripped : List Char) : Bool :=
  match Text.cutAt '=' stripped with
  | some (name, _) => Text.trim name == key
  | none => stripped == key

/-- How far an edit has come: whether the current line belongs to the section, and whether
the entry has been written. -/
structure Progress where
  inside : Bool
  written : Bool
  deriving DecidableEq, Repr

/-- The text that takes the place of one line, and the progress after it. A section ends at
a blank line or a header; there the entry goes in if it has not been written. -/
def editLine (sec key : List Char) (value : Option (List Char)) (s : Progress)
    (line : List Char) : List Char × Progress :=
  let stripped := Text.trim line
  if opens sec stripped then (line, { s with inside := true })
  else
    let ends := s.inside && (stripped.isEmpty || isHeader stripped)
    let gap := if ends && !s.written then entry key value else []
    let s := if ends then ⟨false, true⟩ else s
    if s.inside && assigns key stripped then (gap ++ entry key value, ⟨true, true⟩)
    else (gap ++ line, s)

def editLines (sec key : List Char) (value : Option (List Char)) :
    Progress → List (List Char) → List Char × Progress
  | s, [] => ([], s)
  | s, l :: ls =>
    let r := editLine sec key value s l
    let rest := editLines sec key value r.2 ls
    (r.1 ++ rest.1, rest.2)

/-- What goes to the end of a text that has not been given the entry. -/
def closing (sec key : List Char) (value : Option (List Char)) (out : List Char) (inside : Bool) :
    List Char :=
  (if out.isEmpty || out.getLast? == some '\n' then [] else ['\n']) ++
    (if inside then [] else '\n' :: '[' :: sec ++ [']', '\n']) ++ entry key value

/-- Sets a key of a section. The key's line is changed where it stands; otherwise the entry
goes to the end of the first such section, or a new section to the end of the text. -/
def set (sec key : List Char) (value : Option (List Char)) (text : List Char) : List Char :=
  let (out, s) := editLines sec key value ⟨false, false⟩ (Text.spans text)
  if s.written then out else out ++ closing sec key value out s.inside

/-- Looks for a key once its section has begun. Another header of the same name ends the search. -/
def getInside (sec key : List Char) : Bool → List (List Char) → Option (List Char)
  | _, [] => none
  | inside, l :: ls =>
    let stripped := Text.trim l
    if isHeader stripped then
      if opens sec stripped then none else getInside sec key false ls
    else if inside && assigns key stripped then
      some (match Text.cutAt '=' stripped with
        | some (_, v) => Text.trim v
        | none => [])
    else getInside sec key inside ls

def getLines (sec key : List Char) : List (List Char) → Option (List Char)
  | [] => none
  | l :: ls =>
    if opens sec (Text.trim l) then getInside sec key true ls
    else getLines sec key ls

/-- The value of a key in the first section of a name. A bare key has the empty value. -/
def get (sec key text : List Char) : Option (List Char) := getLines sec key (Text.lines text)

/-- The year of a language standard such as `17`, `gnu20` or `98`, in 32 bits. -/
def standardYear? (value : List Char) : Option Nat :=
  let rec dropGnu : List Char → List Char
    | 'g' :: 'n' :: 'u' :: r => dropGnu r
    | r => r
  (Version.readNat? (Nat.pow 2 32) (dropGnu (Text.trim value))).map fun n =>
    if 98 ≤ n then (1900 + n) % Nat.pow 2 32 else 2000 + n

/-- Why a profile does not do for a project. -/
inductive Shortcoming where
  | oldCompiler (version : Version)
  | oldStandard (actual required : String)
  deriving DecidableEq, Repr

def minGccMajor : Nat := 9

def Shortcoming.text : Shortcoming → String
  | oldCompiler v =>
    "GCC < " ++ toString minGccMajor ++ " is not supported (profile has gcc " ++ v.text ++ ")"
  | oldStandard actual required =>
    "compiler.cppstd=" ++ actual ++ " is older than the required C++" ++ required

def setting (key : String) (text : List Char) : Option (List Char) :=
  get "settings".toList key.toList text

/-- A compiler that is too old, by its name and version. -/
def compilerFault (compiler version : Option (List Char)) : Option Shortcoming :=
  if compiler = some "gcc".toList then
    match version >>= Version.lenient? with
    | some v => if v.major < minGccMajor then some (.oldCompiler v) else none
    | none => none
  else none

/-- A language standard that is older than the one required. -/
def standardFault (standard : Option (List Char)) (required : List Char) : Option Shortcoming :=
  match standard with
  | none => none
  | some actual =>
    match standardYear? actual, standardYear? required with
    | some a, some r =>
      if a < r then some (.oldStandard (.ofList actual) (.ofList required)) else none
    | _, _ => none

/-- What a profile lacks: a compiler and a language standard that are new enough. -/
def shortcoming? (text required : List Char) : Option Shortcoming :=
  match compilerFault (setting "compiler" text) (setting "compiler.version" text) with
  | some s => some s
  | none => standardFault (setting "compiler.cppstd" text) required

end ConanPipeline.Profile
