import ConanPipeline.Errno
import ConanPipeline.Path

/-! A file system as a finite map from locations to nodes. The top directory is
always there; `put` and `drop` change one location and nothing else
(`node?_put`, `node?_drop`).

All that is done to the files is done by one user, and what the system refuses to this user is part
of the file system: `refused` says outright what fails at which place, be it for want of rights or
because the disk fails. Whatever modes and owners allow comes down to that, so an entry of a
directory has no mode, and that of a file is only what is read off it and copied. What is refused
stays so as long as only the user works on the files; another program may leave other refusals.

Names are text; nobody but the programs that are started works on the files at the same time; there
are no devices and pipes, no mount points, and no times. A `.` at the end of a path asks for no
right to search the directory, as the same step stands for a slash there. -/

namespace ConanPipeline

/-- Where an entry really is: the names from the top directory down, no links. -/
abbrev Location := List String

/-- Bytes are compared one by one. -/
local instance (priority := 2000) bytesDecidableEq : DecidableEq ByteArray :=
  ByteArray.instDecidableEq

/-- An entry. The mode of a file holds its permission bits. -/
inductive Node where
  | directory
  | file (contents : ByteArray) (mode : Nat)
  | link (target : Path)
  deriving DecidableEq

/-- What may be refused at a place. -/
inductive Deed where
  /-- Looking a name up in the directory. -/
  | search
  /-- Reading a file, the names in a directory, or the target of a link. -/
  | read
  /-- Starting a file as a program. -/
  | start
  /-- Making an entry where there is none. -/
  | create
  | remove
  /-- Moving another file over what is there. -/
  | replace
  | write
  | setMode
  /-- Getting to the disk what was written. -/
  | flush
  deriving DecidableEq, Repr

structure FileSystem where
  entries : List (Location × Node)
  /-- Why something is refused at a place, if it is. -/
  refused : Deed → Location → Option Refusal := fun _ _ => none

namespace FileSystem

def empty : FileSystem := { entries := [] }

/-- Nothing keeps the user from doing this at a place. -/
abbrev Allows (fs : FileSystem) (d : Deed) (l : Location) : Prop := fs.refused d l = none

def node? (fs : FileSystem) : Location → Option Node
  | [] => some .directory
  | l@(_ :: _) => (fs.entries.find? fun e => e.1 == l).map Prod.snd

/-- Makes `n` the node at a location. -/
def put (fs : FileSystem) (l : Location) (n : Node) : FileSystem :=
  { fs with entries := (fs.entries.filter fun e => e.1 != l) ++ [(l, n)] }

/-- Takes away one entry. -/
def drop (fs : FileSystem) (l : Location) : FileSystem :=
  { fs with entries := fs.entries.filter fun e => e.1 != l }

@[simp] theorem refused_put (fs : FileSystem) (l : Location) (n : Node) :
    (fs.put l n).refused = fs.refused := rfl

@[simp] theorem refused_drop (fs : FileSystem) (l : Location) :
    (fs.drop l).refused = fs.refused := rfl

@[simp] theorem node?_nil (fs : FileSystem) : fs.node? [] = some .directory := rfl

theorem find?_filter_ne {es : List (Location × Node)} {l m : Location} (h : m ≠ l) :
    ((es.filter fun e => e.1 != l).find? fun e => e.1 == m) = es.find? fun e => e.1 == m := by
  induction es with
  | nil => rfl
  | cons e es ih =>
    by_cases he : e.1 = l
    · have hm : e.1 ≠ m := fun hh => h (hh ▸ he)
      have hb : (e.1 == m) = false := by simp [hm]
      rw [List.filter_cons_of_neg (by simp [he]), ih, List.find?_cons, hb]
    · rw [List.filter_cons_of_pos (by simp [he]), List.find?_cons, List.find?_cons, ih]

theorem node?_put {fs : FileSystem} {l m : Location} {n : Node} (hl : l ≠ []) :
    (fs.put l n).node? m = if m = l then some n else fs.node? m := by
  cases m with
  | nil => simp [Ne.symm hl]
  | cons a m =>
    simp only [node?, put, List.find?_append]
    split
    · rename_i h
      subst h
      have : ((fs.entries.filter fun e => e.1 != a :: m).find? fun e => e.1 == a :: m) = none := by
        simp
      simp [this]
    · rename_i h
      rw [find?_filter_ne h]
      simp [Ne.symm h]

theorem node?_drop {fs : FileSystem} {l m : Location} (hl : l ≠ []) :
    (fs.drop l).node? m = if m = l then none else fs.node? m := by
  cases m with
  | nil => simp [Ne.symm hl]
  | cons a m =>
    simp only [node?, drop]
    split
    · rename_i h; subst h; simp
    · rename_i h; rw [find?_filter_ne h]

/-- Whether a directory is gone. An empty name stands for one that was taken away while somebody
was in it; nothing can be put there, but it is still a directory for those who are in it. -/
def isGone (l : Location) : Bool := l.contains ""

/-- Where somebody is who was in the directory `l`, with `above` the directories over it. From the
first directory on that was taken away, all names are empty. -/
def seatWithin (fs : FileSystem) (above : Location) : Location → Location
  | [] => []
  | n :: l =>
    if n = "" ∨ fs.node? (above ++ [n]) = some .directory then
      n :: fs.seatWithin (above ++ [n]) l
    else (n :: l).map fun _ => ""

/-- Where somebody is after a change who was in the directory `l` before it. -/
def seat (fs : FileSystem) (l : Location) : Location := fs.seatWithin [] l

/-- The names of the entries directly inside a directory, in the order of the listing. -/
def names (fs : FileSystem) (l : Location) : List String :=
  fs.entries.filterMap fun e =>
    match e.1.getLast? with
    | some n => if e.1.dropLast = l then some n else none
    | none => none

/-- A bound on how deep directories stand. -/
def depth (fs : FileSystem) : Nat := (fs.entries.map fun e => e.1.length).foldr max 0 + 1

end FileSystem

end ConanPipeline
