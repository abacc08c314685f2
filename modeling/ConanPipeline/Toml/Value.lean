/-! Values of a TOML document, and the rules by which keys and headers build its
tables: no key is set twice, a table is opened by one header only, and an inline
table is closed. -/

namespace ConanPipeline.Toml

/-- How a table came about. -/
inductive Origin where
  /-- Written in braces. -/
  | inline
  /-- Opened by a header. -/
  | header
  /-- Implied by a header for a table inside it. -/
  | implied
  /-- Made by a dotted key. -/
  | dotted
  deriving DecidableEq, Repr

/-- A value. Of numbers with a fraction and of moments only the kind is kept. -/
inductive Value where
  | text (s : String)
  | integer (n : Int)
  | real
  | flag (b : Bool)
  | moment
  | list (elements : List Value)
  | table (origin : Origin) (entries : List (String × Value))
  /-- Tables opened by headers in double brackets. -/
  | tables (elements : List (List (String × Value)))
  deriving Repr, Inhabited

abbrev Entries := List (String × Value)

namespace Entries

def find? (es : Entries) (k : String) : Option Value := List.lookup k es

def replace (es : Entries) (k : String) (v : Value) : Entries :=
  es.map fun e => if e.1 = k then (k, v) else e

/-- Goes down along `path` and changes the entries found there with `f`, which also gets
their origin. Missing tables are made: `dotted` ones on the way of a dotted key, otherwise
`implied` ones. A dotted key does not enter a table that a header opened. -/
def alter (dotted : Bool) (f : Origin → Entries → Option Entries) :
    List String → Origin → Entries → Option Entries
  | [], o, es => f o es
  | k :: ks, _, es =>
    let fresh := if dotted then Origin.dotted else Origin.implied
    match es.find? k with
    | none => (alter dotted f ks fresh []).map fun sub => es ++ [(k, .table fresh sub)]
    | some (.table .inline _) => none
    | some (.table o sub) =>
      if dotted && o == .header then none
      else (alter dotted f ks o sub).map fun sub => es.replace k (.table o sub)
    | some (.tables ts) =>
      match ts.reverse with
      | [] => none
      | last :: front =>
        (alter dotted f ks .header last).map fun last =>
          es.replace k (.tables (last :: front).reverse)
    | some _ => none

/-- Sets a key inside the tables that the keys before it name. A table that dotted keys made
takes dotted keys only, and any other table only a key of its own. -/
def assign (path : List String) (k : String) (v : Value) (o : Origin) (es : Entries) :
    Option Entries :=
  alter true (fun o es =>
    if (o == .dotted) == path.isEmpty then none
    else if (es.find? k).isSome then none
    else some (es ++ [(k, v)])) path o es

/-- Opens the table that a header names. -/
def openTable (path : List String) (k : String) (es : Entries) : Option Entries :=
  alter false (fun _ es =>
    match es.find? k with
    | none => some (es ++ [(k, .table .header [])])
    | some (.table .implied sub) => some (es.replace k (.table .header sub))
    | some _ => none) path .header es

/-- Opens the next table of the array that a header in double brackets names. -/
def openElement (path : List String) (k : String) (es : Entries) : Option Entries :=
  alter false (fun _ es =>
    match es.find? k with
    | none => some (es ++ [(k, .tables [[]])])
    | some (.tables ts) => some (es.replace k (.tables (ts ++ [[]])))
    | some _ => none) path .header es

end Entries

end ConanPipeline.Toml
