import ConanPipeline.Proofs.Configure.Update
import ConanPipeline.Proofs.Profile.Reach

/-! What an edit of a profile file leaves alone. If it fails, that is all that was there, and if
not, the file has the edited text (`updateProfile_edits`). Which other entries are then found as
before is up to the entry alone (`updateProfile_frame_iff`). -/

namespace ConanPipeline

open FileSystem

variable {m : Machine} {sec : String}

/-- A file that was there, kept with all directories and links, is read with the same text. -/
theorem FileSystem.readText_of_kept {fs fs' : FileSystem} {cwd : Location} {p : Path}
    {text : String} (h : ∀ l node, fs.node? l = some node → fs'.node? l = some node)
    (hr : fs'.refused = fs.refused) (hread : fs.readText cwd p = .ok text) :
    fs'.readText cwd p = .ok text := by
  have hways : fs.KeepsWays fs' := .of_refused hr fun l node _ => h l node
  obtain ⟨b, hb, htext⟩ := readText_eq_ok_iff.1 hread
  obtain ⟨e, mode, hstatus, hallowed⟩ := read_eq_ok_iff.1 hb
  have he := ((status_eq_ok_iff (by simp)).1 hstatus).2.2
  refine readText_eq_ok_iff.2 ⟨b, read_eq_ok_iff.2 ⟨e, mode, ?_, hways.read e hallowed⟩, htext⟩
  exact status_of_kept hways hstatus (h e _ he)

/-- The files are a tree, and the working directory is a place to be in. -/
structure Machine.IsSound (m : Machine) : Prop where
  tree : m.files.WellFormed
  seat : m.files.IsSeat m.cwd

/-- How an edit of a file ends. If it fails, all that was there is there, and the file is read as
before. If not, it was a file that can be read, and it is read with the new text from then on. -/
inductive Edits (m : Machine) (file : Path) (new : String → String) :
    Except Failure Unit × Machine → Prop
  | failed {f m'} (sound : m'.IsSound)
      (kept : ∀ l node, m.files.node? l = some node → m'.files.node? l = some node)
      (read : ∀ old, m.files.readText m.cwd file = .ok old →
        m'.files.readText m'.cwd file = .ok old) : Edits m file new (.error f, m')
  | done {old m'} (sound : m'.IsSound) (before : m.files.readText m.cwd file = .ok old)
      (after : m'.files.readText m'.cwd file = .ok (new old)) : Edits m file new (.ok (), m')

theorem updateProfile_edits (hm : m.IsSound) (file : Path) (sec key : String)
    (value : Option String) :
    Edits m file (edited sec key value) ((updateProfile file sec key value).run.run m) := by
  cases hread : m.files.readText m.cwd file with
  | error c =>
    obtain ⟨f, hrun⟩ := run_updateProfile_of_error hread sec key value
    rw [hrun]
    exact .failed hm (fun _ _ h => h) fun _ h => h
  | ok old =>
    obtain ⟨m', hrun, hfiles, hplace⟩ := run_updateProfile hread sec key value
    obtain ⟨b, hb, -⟩ := readText_eq_ok_iff.1 hread
    obtain ⟨e, mode, hstatus, hallowed⟩ := read_eq_ok_iff.1 hb
    have he := ((status_eq_ok_iff (by simp)).1 hstatus).2.2
    -- who edits stays where they are, as no directory is lost
    have hseat (hd : ∀ l, m.files.node? l = some .directory → m'.files.node? l = some .directory) :
        m'.IsSound ∧ m'.cwd = m.cwd := by
      have hstays : m'.cwd = m.cwd := by
        rw [hplace, ← hfiles, (hm.seat.of_kept hd).seat_eq]
      refine ⟨⟨?_, hstays ▸ hm.seat.of_kept hd⟩, hstays⟩
      rw [hfiles]
      exact hm.tree.replace m.cwd file _
    rw [hrun]
    cases hr : (m.files.replace m.cwd file (edited sec key value old)).1 with
    | error f =>
      have hkept := kept_of_replace_error hr
      rw [← hfiles] at hkept
      obtain ⟨hsound, hstays⟩ := hseat fun l => hkept l _
      refine .failed hsound hkept fun old hold => ?_
      rw [hstays]
      refine readText_of_kept hkept ?_ hold
      rw [hfiles]
      exact refused_of_replace ..
    | ok u =>
      have hw := written_of_replace hm.tree hm.seat hstatus hr
      rw [← hfiles] at hw
      have hways := hw.keepsWays he
      obtain ⟨mode', hnow, -⟩ := hw.now
      obtain ⟨hsound, hstays⟩ := hseat hways.directory
      refine .done hsound hread ?_
      rw [hstays]
      exact readText_eq_ok_iff.2 ⟨_, read_eq_ok_iff.2 ⟨e, mode',
        status_of_kept hways hstatus hnow, hways.read e hallowed⟩, Text.fromUTF8?_toUTF8 _⟩

/-- An edit either fails, and the file and all else are as they were, or the file has the edited
text. In that, whatever it was made of, all other entries are found as before exactly if the new
one is confined. -/
theorem updateProfile_frame_iff (hsec : Profile.IsSection sec.toList) (key : String)
    (value : Option String) :
    (∀ m : Machine, m.IsSound → ∀ file : Path,
      Edits m file (edited sec key value) ((updateProfile file sec key value).run.run m)) ∧
    ((∀ (old : String) (sec' key' : List Char), Profile.IsSection sec' → Profile.IsPlain key' →
        (sec', key') ≠ (sec.toList, key.toList) →
          Profile.get sec' key' (edited sec key value old).toList =
            Profile.get sec' key' old.toList) ↔
      Profile.Confined key.toList (value.map String.toList)) := by
  refine ⟨fun m hm file => updateProfile_edits hm file sec key value, ?_⟩
  rw [← Profile.get_set_iff hsec]
  constructor
  · intro h text sec' key' hsec' hkey' hne
    have hget := h (.ofList text) sec' key' hsec' hkey' hne
    rwa [edited, String.toList_ofList, String.toList_ofList] at hget
  · intro h old sec' key' hsec' hkey' hne
    rw [edited, String.toList_ofList]
    exact h old.toList sec' key' hsec' hkey' hne

theorem updateProfile_frame_one_line :
    let m := Machine.ofEntries [(["p"], .file "[s]\n\nb=2\n".toUTF8 0o644)]
    Edits m ⟨"p"⟩ (edited "s" "a" (some "1")) ((updateProfile ⟨"p"⟩ "s" "a" (some "1")).run.run m) ∧
      Profile.get "s".toList "b".toList (edited "s" "a" (some "1") "[s]\n\nb=2\n").toList =
        some "2".toList := by
  intro m
  have h := updateProfile_frame_iff (by decide : Profile.IsSection "s".toList) "a" (some "1")
  have hfs : m.files.WellFormed := wellFormed_of_entries (by decide)
  have hplain : Profile.IsPlain "b".toList := ⟨by decide, by decide, by decide, by decide⟩
  have hget := h.2.2 (by decide) "[s]\n\nb=2\n" "s".toList "b".toList (by decide) hplain (by decide)
  exact ⟨h.1 m ⟨hfs, isSeat_root⟩ ⟨"p"⟩, hget.trans (by decide)⟩

/-- A value with a line break in it puts a header above what follows in the section. -/
theorem updateProfile_reaches_other :
    let m := Machine.ofEntries [(["p"], .file "[s]\n\nb=2\n".toUTF8 0o644)]
    let r := (updateProfile ⟨"p"⟩ "s" "a" (some "1\n[t]")).run.run m
    r.1 = .ok () ∧ r.2.files.readText r.2.cwd ⟨"p"⟩ = .ok "[s]\na=1\n[t]\n\nb=2\n" ∧
      Profile.get "s".toList "b".toList "[s]\n\nb=2\n".toList = some "2".toList ∧
      Profile.get "s".toList "b".toList "[s]\na=1\n[t]\n\nb=2\n".toList = none := by
  decide +kernel

end ConanPipeline
