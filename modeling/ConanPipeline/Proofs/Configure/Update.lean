import ConanPipeline.Configure
import ConanPipeline.Proofs.FileSystem.Readable
import ConanPipeline.Proofs.Machine.Action

/-! Edits of profile and descriptor files. Once a file has been read, an edit does what the
replacement of the file does (`run_updateProfile`, `run_updateDescriptor`). -/

namespace ConanPipeline

open FileSystem

variable {m : Machine} {file p : Path} {text attr value : String} {l e : Location}
variable {ts : List Path} {b : ByteArray} {mode : Nat}

theorem FileSystem.readText_eq_ok_iff {fs : FileSystem} {cwd : Location} :
    fs.readText cwd p = .ok text ↔
      ∃ b, fs.read cwd p = .ok b ∧ String.fromUTF8? b = some text := by
  rw [readText]
  constructor
  · intro h
    split at h
    · cases h
    · rename_i b hb
      split at h
      · rename_i htext
        cases h
        exact ⟨b, hb, htext⟩
      · cases h
  · rintro ⟨b, hb, htext⟩
    simp only [hb, htext]

namespace Action

variable {α : Type}

theorem run_get_bind (f : Machine → Action α) (m : Machine) :
    (get >>= f).run.run m = (f m).run.run m := rfl

theorem run_fileText (h : m.files.readText m.cwd file = .ok text) :
    (fileText file).run.run m = (.ok text, m) := by
  rw [fileText, run_get_bind, h]
  rfl

theorem run_fileText_of_error {c : Cause} (h : m.files.readText m.cwd file = .error c) :
    (fileText file).run.run m = (.error ((Failure.of c).inside (.readingFile file)), m) := by
  rw [fileText, run_get_bind, h]
  rfl

/-- What follows a replacement, and leaves the files alone, does not fail if it did not. -/
theorem run_replaceFile_bind {f : Unit → Action α} {a : α} (m : Machine) (p : Path)
    (contents : String) (hf : ∀ m : Machine, ∃ m', (f ()).run.run m = (.ok a, m') ∧
      m'.files = m.files ∧ m'.cwd = m.cwd) :
    ∃ m', (replaceFile p contents >>= f).run.run m =
        ((m.files.replace m.cwd p contents).1.map fun _ => a, m') ∧
      m'.files = (m.files.replace m.cwd p contents).2 ∧
      m'.cwd = (m.files.replace m.cwd p contents).2.seat m.cwd := by
  have hrun : (replaceFile p contents).run.run m = ((m.files.replace m.cwd p contents).1,
      m.withFiles (m.files.replace m.cwd p contents).2) := run_onFiles _ m
  cases hr : (m.files.replace m.cwd p contents).1 with
  | error e =>
    rw [hr] at hrun
    rw [run_bind_of_error hrun]
    exact ⟨_, rfl, rfl, rfl⟩
  | ok u =>
    rw [hr] at hrun
    rw [run_bind_of_ok hrun]
    exact hf _

end Action

theorem Machine.isFile_of_readText (h : m.files.readText m.cwd file = .ok text) :
    m.isFile file = true := by
  obtain ⟨b, hread, -⟩ := readText_eq_ok_iff.1 h
  obtain ⟨l, mode, hstatus, -⟩ := read_eq_ok_iff.1 hread
  exact isFile_iff.2 ⟨l, b, mode, hstatus⟩

/-- What an edit makes of a profile's text. -/
def edited (sec key : String) (value : Option String) (text : String) : String :=
  .ofList (Profile.set sec.toList key.toList (value.map String.toList) text.toList)

theorem run_updateProfile (h : m.files.readText m.cwd file = .ok text) (sec key : String)
    (value : Option String) :
    ∃ m', (updateProfile file sec key value).run.run m =
        ((m.files.replace m.cwd file (edited sec key value text)).1, m') ∧
      m'.files = (m.files.replace m.cwd file (edited sec key value text)).2 ∧
      m'.cwd = (m.files.replace m.cwd file (edited sec key value text)).2.seat m.cwd := by
  have hfile := Machine.isFile_of_readText h
  rw [updateProfile, Action.run_get_bind]
  simp only [hfile, Bool.not_true, Bool.false_eq_true, if_false]
  rw [Action.run_bind_of_ok (Action.run_fileText h)]
  have hmap (r : Except Failure Unit) : r.map (fun _ => ()) = r := by cases r <;> rfl
  rw [← hmap (m.files.replace m.cwd file (edited sec key value text)).1]
  exact Action.run_replaceFile_bind m file (edited sec key value text) fun _ => ⟨_, rfl, rfl, rfl⟩

/-- An edit of a file that cannot be read does nothing. -/
theorem run_updateProfile_of_error {c : Cause} (h : m.files.readText m.cwd file = .error c)
    (sec key : String) (value : Option String) :
    ∃ f, (updateProfile file sec key value).run.run m = (.error f, m) := by
  rw [updateProfile, Action.run_get_bind]
  cases hfile : m.isFile file with
  | false => exact ⟨_, rfl⟩
  | true =>
    simp only [Bool.not_true, Bool.false_eq_true, if_false]
    rw [Action.run_bind_of_error (Action.run_fileText_of_error h)]
    exact ⟨_, rfl⟩

/-- An edit in place of a descriptor that assigns the attribute. -/
theorem run_updateDescriptor (h : m.files.readText m.cwd file = .ok text) {new old : List Char}
    (hset : Descriptor.set? attr.toList value.toList text.toList = some (new, old)) :
    ∃ m', (updateDescriptor file attr value none).run.run m =
        ((m.files.replace m.cwd file (.ofList new)).1.map fun _ => some (.ofList old), m') ∧
      m'.files = (m.files.replace m.cwd file (.ofList new)).2 ∧
      m'.cwd = (m.files.replace m.cwd file (.ofList new)).2.seat m.cwd := by
  have hfile := Machine.isFile_of_readText h
  rw [updateDescriptor, Action.run_get_bind]
  simp only [hfile, Bool.not_true, Bool.false_eq_true, if_false]
  rw [Action.run_bind_of_ok (Action.run_fileText h)]
  simp only [hset]
  exact Action.run_replaceFile_bind m file (.ofList new) fun _ => ⟨_, rfl, rfl, rfl⟩

/-- A file that can be read, through whatever links, is replaced and edited exactly if it fits, that
is if fewer links lead to it than may be followed and the system takes all paths on the way, and if
the user may put a file where it stands. -/
theorem readable_replaceable_iff (hfs : m.files.WellFormed) (hcwd : m.files.IsSeat m.cwd)
    (hl : m.files.locate m.cwd false p = .ok l) (hc : m.files.Chain l ts e)
    (hp : m.files.status m.cwd p = .ok (e, .file b mode)) :
    let writable := m.files.Writable m.cwd (directoryOf (ts.foldl Path.following p)) e
    (Fits m.cwd p ts → ∃ q, m.files.endOfLinks m.cwd p = .ok q ∧
      m.files.linkStatus m.cwd q = .ok (e, .file b mode)) ∧
    (∀ contents, (m.files.replace m.cwd p contents).1 = .ok () ↔ Fits m.cwd p ts ∧ writable) ∧
    (∀ contents, Fits m.cwd p ts ∧ writable →
      m.files.Written e contents (m.files.replace m.cwd p contents).2) ∧
    ∀ text, m.files.readText m.cwd p = .ok text →
      (∀ sec key value, ((updateProfile p sec key value).run.run m).1 = .ok () ↔
        Fits m.cwd p ts ∧ writable) ∧
      ∀ attr value new old,
        Descriptor.set? attr.toList value.toList text.toList = some (new, old) →
        (((updateDescriptor p attr value none).run.run m).1 = .ok (some (.ofList old)) ↔
          Fits m.cwd p ts ∧ writable) := by
  intro writable
  have hreplace (contents : String) :
      (m.files.replace m.cwd p contents).1 = .ok () ↔ Fits m.cwd p ts ∧ writable :=
    replace_eq_ok_iff hfs hcwd hl hc hp contents
  refine ⟨fun h => ⟨_, h.endOfLinks hfs hcwd hl hc hp⟩, hreplace,
    fun contents h => written_of_chain hfs hcwd hl hc hp ((hreplace contents).2 h),
    fun text hread => ?_⟩
  refine ⟨fun sec key value => ?_, fun attr value new old hset => ?_⟩
  · obtain ⟨m', hrun, -⟩ := run_updateProfile hread sec key value
    rw [hrun]
    exact hreplace _
  · obtain ⟨m', hrun, -⟩ := run_updateDescriptor hread hset
    rw [hrun, ← hreplace (.ofList new)]
    dsimp only
    cases (m.files.replace m.cwd p (.ofList new)).1 with
    | error f => exact iff_of_false (fun h => nomatch h) fun h => nomatch h
    | ok u => exact iff_of_true rfl rfl

/-- A machine with nothing but files, seen from the top. -/
def Machine.ofEntries (entries : List (Location × Node)) : Machine :=
  { files := { entries }, env := ⟨[], "/root"⟩, cwd := [], programs := fun _ _ => .error .noEntry }

theorem readable_replaceable_two_links :
    let m := Machine.ofEntries [(["a"], .directory), (["a", "f"], .file "k=1".toUTF8 0o644),
      (["i"], .link ⟨"j"⟩), (["j"], .link ⟨"/a/f"⟩)]
    (m.files.replace m.cwd ⟨"i"⟩ "k=2").1 = .ok () := by
  intro m
  have hfs : m.files.WellFormed := wellFormed_of_entries (by decide)
  have hlink (i : String) (t : Path) (hi : IsName i) (hnode : m.files.node? [i] = some (.link t)) :
      m.files.Leads false [] [i] 0 ([] ++ [i]) :=
    .stop ⟨hi, rfl⟩ (by rw [List.nil_append, hnode]; rfl)
  have hfile : m.files.Leads false [] ["a", "f"] 0 ["a", "f"] :=
    .down ⟨by decide, rfl⟩ rfl (.stop ⟨by decide, rfl⟩ rfl)
  have hc : m.files.Chain ["i"] [⟨"j"⟩, ⟨"/a/f"⟩] ["a", "f"] :=
    .link (d := []) rfl (hlink "j" ⟨"/a/f"⟩ (by decide) rfl)
      (.link (d := []) rfl hfile (.stop fun _ h => by cases h))
  have hl : m.files.locate m.cwd false ⟨"i"⟩ = .ok ["i"] := by decide +kernel
  have hp : m.files.status m.cwd ⟨"i"⟩ = .ok (["a", "f"], .file "k=1".toUTF8 0o644) := by
    decide +kernel
  exact ((readable_replaceable_iff hfs isSeat_root hl hc hp).2.1 "k=2").2
    ⟨by decide +kernel, ⟨rfl, rfl, rfl, rfl, rfl⟩, rfl⟩

/-- A chain of as many links as may be followed, all with names of one letter. -/
def longChain : FileSystem :=
  let name (n : Nat) : String := .singleton (.ofNat ('A'.toNat + n))
  { entries := ([name 0], .file "k=1".toUTF8 0o644) ::
      (List.range linkLimit).map fun n => ([name (n + 1)], .link ⟨name n⟩) }

/-- The file at the end of the chain can be read but not replaced. -/
theorem read_not_replaced : longChain.WellFormed ∧
    longChain.read [] ⟨"i"⟩ = .ok "k=1".toUTF8 ∧
      (longChain.replace [] ⟨"i"⟩ "k=2").1 = .error (.of (.linkChain ⟨"i"⟩)) :=
  ⟨wellFormed_of_entries (by decide +kernel), by decide +kernel, by decide +kernel⟩

end ConanPipeline
