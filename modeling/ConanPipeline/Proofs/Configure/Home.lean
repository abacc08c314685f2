import ConanPipeline.Proofs.Configure.Frame
import ConanPipeline.Proofs.FileSystem.Remove
import ConanPipeline.Proofs.Path.Ancestors

/-! The home of the package manager, as it is when the package manager is first asked about it. A
fresh one is a directory, with nothing in it unless its path goes up from what is missing, and any
other one is a directory unless it is a file; all else is as it was, but for new directories on the
way (`initializeHome_prepares`). -/

namespace ConanPipeline

open FileSystem

/-- What is done to the home before the package manager is asked about it. -/
def prepareHome (home : Path) (fresh : Bool) : Action Unit := do
  if fresh then
    if ← removeDirectory home then
      log .info .configure ("removed existing conan home " ++ home.text)
  ensureDirectory home

/-- Asks the package manager about its home. -/
def askHome (conan : Conan) : Action Unit := do
  let output ← conan.run ["config", "home"] true
  log .debug .configure ("conan reports home " ++ Text.trimmed output.stdout)

/-- A directory to which a path leads, or one of those above the path. -/
def FileSystem.OnWay (fs : FileSystem) (cwd : Location) (p : Path) (l : Location) : Prop :=
  fs.node? l = some .directory ∧ ∃ q ∈ p.ancestors, ∃ k, fs.Enters (q.base cwd) q.steps k l

variable {fs fs' : FileSystem} {cwd l d e top : Location} {xs : List String} {n : Nat} {p : Path}
variable {m m' : Machine} {home : Path} {fresh : Bool}

namespace FileSystem

section Ensuring

/-- What a path leads to is no link: it would have been followed. -/
theorem WellFormed.not_link (hfs : fs.WellFormed) (hl : fs.IsSeat l) (h : fs.Leads true l xs n e)
    (t : Path) : fs.node? e ≠ some (.link t) := by
  induction h with
  | here l => exact fun he => nomatch hl.eq_directory hfs he
  | dot _ ih => exact ih hl
  | up _ _ ih => exact ih hl.dropLast
  | down _ hd _ ih => exact ih (hfs.isSeat hd)
  | stop _ he =>
    intro hlink
    rw [hlink] at he
    cases he
  | @follow _ _ target _ _ _ _ _ _ _ _ _ ih => exact ih (hl.base target)

/-- A path leads to a file or a directory, if anywhere. -/
theorem present_eq (hfs : fs.WellFormed) (hcwd : fs.IsSeat cwd) (p : Path) :
    fs.present cwd p = (fs.isFile cwd p || fs.isDirectory cwd p) := by
  rw [present, isFile, isDirectory]
  cases hstatus : fs.status cwd p with
  | error e => rfl
  | ok found =>
    obtain ⟨e, node⟩ := found
    cases node with
    | directory => rfl
    | file b mode => rfl
    | link t =>
      obtain ⟨-, ⟨k, -, hleads⟩, hlink⟩ := (status_eq_ok_iff (by simp)).1 hstatus
      exact absurd hlink (hfs.not_link (hcwd.base p) hleads t)

theorem usable_of_present (h : fs.present cwd p = true) : p.Usable := by
  rw [present] at h
  cases hstatus : fs.status cwd p with
  | error e =>
    rw [hstatus] at h
    cases h
  | ok found =>
    obtain ⟨m, hm, -⟩ := exists_of_bind_eq_ok hstatus
    exact (locate_eq_ok_iff.1 hm).1

/-- What was ensured is a directory afterwards, unless the path is empty or led to a file. -/
theorem isDirectory_of_ensureDirectory (hfs : fs.WellFormed) (hcwd : fs.IsSeat cwd)
    (h : fs.ensureDirectory cwd p = (.ok (), fs')) :
    fs'.isDirectory cwd p = true ↔ p.isEmpty = false ∧ fs.isFile cwd p = false := by
  have hne (h : fs'.isDirectory cwd p = true) : p.isEmpty = false :=
    (isDirectory_iff.1 h).1.not_empty
  have hpresent := present_eq hfs hcwd p
  rw [ensureDirectory] at h
  split at h
  · rename_i hthere
    cases h
    have hempty := (usable_of_present hthere).not_empty
    rw [hthere] at hpresent
    constructor
    · intro hdir
      refine ⟨hempty, ?_⟩
      rw [isFile]
      rw [isDirectory] at hdir
      split at hdir
      · rename_i hstatus
        rw [hstatus]
      · cases hdir
    · rintro ⟨-, hfile⟩
      rw [hfile, Bool.false_or] at hpresent
      exact hpresent.symm
  · rename_i hmissing
    rw [Bool.not_eq_true] at hmissing
    rw [hmissing] at hpresent
    have hfile := (Bool.or_eq_false_iff.1 hpresent.symm).1
    refine ⟨fun hdir => ⟨hne hdir, hfile⟩, ?_⟩
    rintro ⟨hempty, -⟩
    split at h
    · rename_i hmake
      cases h
      obtain ⟨ps, hps⟩ := p.ancestors_eq_cons
      rw [makeAll, hps] at hmake
      exact isDirectory_of_makeDirectories hempty hmake
    · cases h

/-- What is new once a directory was ensured are directories on the way to it. -/
theorem same_or_onWay_of_ensureDirectory (l : Location) :
    (fs.ensureDirectory cwd p).2.node? l = fs.node? l ∨
      fs.node? l = none ∧ (fs.ensureDirectory cwd p).2.OnWay cwd p l := by
  refine ensureDirectory_induction
    (motive := fun fs' => fs'.node? l = fs.node? l ∨ fs.node? l = none ∧ fs'.OnWay cwd p l)
    ?_ (.inl rfl)
  intro fs₁ fs₂ q hq hmake hstep
  obtain ⟨-, there, k, -, henters, hmissing, hnew⟩ := makeDirectory_new hmake
  by_cases hthere : l = there
  · subst hthere
    refine .inr ⟨hstep.elim (fun hsame => hsame.symm.trans hmissing) And.left, ?_⟩
    exact ⟨(hnew l).trans (if_pos rfl), q, hq, k, henters⟩
  · rw [hnew l, if_neg hthere]
    refine hstep.imp_right fun ⟨hnone, hdir, q', hq', k', henters'⟩ => ?_
    obtain ⟨_, _, _, _, -, -, -, hgrown, -⟩ := makeDirectory_ok hmake
    have hdir' := (hnew l).trans ((if_neg hthere).trans hdir)
    exact ⟨hnone, hdir', q', hq', k', hgrown.enters henters'⟩

/-- A directory that was missing is empty once it was ensured, on a path that is straight. -/
theorem empty_of_ensureDirectory (hfs : fs.WellFormed) (hcwd : fs.IsSeat cwd)
    (hmissing : fs.present cwd p = false) (hstraight : fs.Straight cwd p)
    (h : fs.ensureDirectory cwd p = (.ok (), fs'))
    (htop : fs'.status cwd p = .ok (top, .directory)) (hl : top <+: l) (hne : top ≠ l) :
    fs'.node? l = none := by
  have hmakes := ensureDirectory_makes hfs hcwd hstraight
  rw [h] at hmakes
  obtain ⟨hu, k, hk, henters⟩ := enters_of_status htop
  obtain ⟨_, -, hat⟩ := exists_of_bind_eq_ok htop
  obtain ⟨rfl, hnode⟩ := at?_eq_ok_iff.1 hat
  rcases hmakes with hsame | ⟨there, hnone, hgrown, hthere⟩
  · -- the directory would have been there before
    have hdir : fs.isDirectory cwd p = true := by
      refine isDirectory_iff.2 ⟨hu, top, k, hk, henters.enters_of_kept hsame.symm.keepsWays,
        at?_eq_ok_iff.2 ⟨rfl, ?_⟩⟩
      rwa [hsame.node] at hnode
    rw [present_eq hfs hcwd, hdir, Bool.or_true] at hmissing
    cases hmissing
  · obtain ⟨j, hj⟩ := hthere rfl
    rw [Walks.filter_iff, Path.filter_steps] at henters
    obtain ⟨rfl, -⟩ := hj.enters_unique henters
    by_contra hnode'
    obtain ⟨node, hnode'⟩ := Option.ne_none_iff_exists'.1 hnode'
    have hbelow := (hgrown.added l node (hfs.node?_eq_none hnone hl) hnode').2
    exact hne (hl.eq_of_length (Nat.le_antisymm hl.length_le hbelow.length_le))

end Ensuring

end FileSystem

section Preparing

/-- A place that is taken away before a fresh home is made: the home's own, or one below it. -/
def Machine.Clears (m : Machine) (home : Path) (fresh : Bool) (l : Location) : Prop :=
  fresh = true ∧ ∃ top node, m.files.linkStatus m.cwd home = .ok (top, node) ∧ top <+: l

/-- The files once what is at the home has been taken away, if it has to be. -/
def Machine.cleared (m : Machine) (home : Path) (fresh : Bool) : FileSystem :=
  if fresh then (m.files.removeIfPresent m.cwd home).2 else m.files

/-- What a preparation comes to, step by step. -/
theorem prepareHome_ok (h : (prepareHome home fresh).run.run m = (.ok (), m')) :
    (fresh = true → ∃ gone, m.files.removeIfPresent m.cwd home =
      (.ok gone, m.cleared home fresh)) ∧
    ∃ m₁ : Machine, m₁.files = m.cleared home fresh ∧
      m₁.cwd = (if fresh then (m.cleared home fresh).seat m.cwd else m.cwd) ∧
      m₁.files.ensureDirectory m₁.cwd home = (.ok (), m'.files) ∧
      m'.cwd = m'.files.seat m₁.cwd := by
  have hensure (m₁ : Machine) (h : (ensureDirectory home).run.run m₁ = (.ok (), m')) :
      m₁.files.ensureDirectory m₁.cwd home = (.ok (), m'.files) ∧
        m'.cwd = m'.files.seat m₁.cwd := by
    rw [ensureDirectory, Action.run_onFiles, Prod.mk.injEq] at h
    obtain ⟨hok, rfl⟩ := h
    exact ⟨Prod.ext hok rfl, rfl⟩
  cases fresh with
  | false => exact ⟨nofun, m, rfl, rfl, hensure m h⟩
  | true =>
    unfold prepareHome at h
    rw [if_pos rfl] at h
    have hremove := Action.run_onFiles (fun fs cwd => fs.removeIfPresent cwd home) m
    rcases hr : m.files.removeIfPresent m.cwd home with ⟨f | gone, fs₁⟩
    · rw [hr] at hremove
      rw [removeDirectory, Action.run_bind_of_error hremove] at h
      cases h
    · have hcleared : m.cleared home true = fs₁ := congrArg Prod.snd hr
      rw [hr] at hremove
      rw [hcleared]
      rw [removeDirectory, Action.run_bind_of_ok hremove] at h
      refine ⟨fun _ => ⟨gone, rfl⟩, ?_⟩
      cases gone with
      | false => exact ⟨m.withFiles fs₁, rfl, rfl, hensure _ h⟩
      | true =>
        rw [if_pos rfl, Action.run_lift_bind] at h
        exact ⟨_, rfl, rfl, hensure _ h⟩

variable (hm : m.IsSound)

include hm in
/-- What has been taken away is what may be, and a fresh home leads nowhere by then. -/
theorem cleared_of_prepareHome (h : (prepareHome home fresh).run.run m = (.ok (), m')) :
    (m.cleared home fresh).WellFormed ∧
      (fresh = true →
        (m.cleared home fresh).present ((m.cleared home fresh).seat m.cwd) home = false) ∧
      ∀ l, (m.cleared home fresh).node? l = m.files.node? l ∨
        (m.cleared home fresh).node? l = none ∧ m.Clears home fresh l := by
  cases fresh with
  | false => exact ⟨hm.tree, nofun, fun _ => .inl rfl⟩
  | true =>
    obtain ⟨gone, hremove⟩ := (prepareHome_ok h).1 rfl
    cases gone with
    | false =>
      obtain ⟨hsame, habsent⟩ := removeIfPresent_false hremove
      rw [hsame, hm.seat.seat_eq]
      exact ⟨hm.tree, fun _ => habsent, fun _ => .inl rfl⟩
    | true =>
      obtain ⟨top, node, hstatus, hpruned, habsent⟩ := removeIfPresent_ok hm.tree hm.seat hremove
      refine ⟨hpruned.wellFormed hm.tree, fun _ => habsent, fun l => ?_⟩
      by_cases hl : top <+: l
      · exact (hpruned.none_or_same l).symm.imp_right fun hnone =>
          ⟨hnone, rfl, top, node, hstatus, hl⟩
      · exact .inl (hpruned.apart l hl)

include hm in
/-- A preparation that succeeds has ensured the home where its path leads by then. -/
theorem ensured_of_prepareHome (h : (prepareHome home fresh).run.run m = (.ok (), m')) :
    (m.cleared home fresh).ensureDirectory ((m.cleared home fresh).seat m.cwd) home =
      (.ok (), m'.files) ∧ m'.cwd = (m.cleared home fresh).seat m.cwd := by
  obtain ⟨-, m₁, hfiles, hcwd, hensure, hplace⟩ := prepareHome_ok h
  have hstart : m₁.cwd = (m.cleared home fresh).seat m.cwd := by
    cases fresh with
    | false => exact hcwd.trans hm.seat.seat_eq.symm
    | true => exact hcwd
  rw [hfiles, hstart] at hensure
  -- nobody's place is lost while directories are made
  have hkept (l : Location) (hl : (m.cleared home fresh).node? l = some .directory) :
      ((m.cleared home fresh).ensureDirectory ((m.cleared home fresh).seat m.cwd) home).2.node? l =
        some .directory := ensureDirectory_kept l _ hl
  have hseat := (isSeat_seat (m.cleared home fresh) m.cwd).of_kept hkept
  rw [hensure] at hseat
  exact ⟨hensure, hplace.trans (by rw [hstart, hseat.seat_eq])⟩

include hm in
/-- The home that was prepared is a directory, unless its path is empty or a file passed for it. -/
theorem isDirectory_of_prepareHome (h : (prepareHome home fresh).run.run m = (.ok (), m')) :
    m'.isDirectory home = true ↔
      home.isEmpty = false ∧ (fresh = true ∨ m.isFile home = false) := by
  obtain ⟨htree, hmissing, -⟩ := cleared_of_prepareHome hm h
  obtain ⟨hensure, hcwd⟩ := ensured_of_prepareHome hm h
  have hseat := isSeat_seat (m.cleared home fresh) m.cwd
  rw [Machine.isDirectory, hcwd, isDirectory_of_ensureDirectory htree hseat hensure]
  refine and_congr_right fun _ => ?_
  cases fresh with
  | false =>
    rw [Machine.isFile, Machine.cleared, if_neg Bool.false_ne_true, hm.seat.seat_eq]
    simp
  | true =>
    have habsent := hmissing rfl
    rw [present_eq htree hseat, Bool.or_eq_false_iff] at habsent
    simp [habsent.1]

include hm in
/-- What a preparation has changed was missing or has been taken away, and is now missing or a
directory on the way to the home. -/
theorem changed_of_prepareHome (h : (prepareHome home fresh).run.run m = (.ok (), m'))
    (hl : m'.files.node? l ≠ m.files.node? l) :
    (m'.files.node? l = none ∨ m'.files.OnWay m'.cwd home l) ∧
      (m.files.node? l = none ∨ m.Clears home fresh l) := by
  obtain ⟨-, -, hframe⟩ := cleared_of_prepareHome hm h
  obtain ⟨hensure, hcwd⟩ := ensured_of_prepareHome hm h
  have hmade : ((m.cleared home fresh).ensureDirectory m'.cwd home).2 = m'.files := by
    rw [hcwd, hensure]
  rw [← hmade] at hl ⊢
  rcases same_or_onWay_of_ensureDirectory l with hsame | ⟨hnone, hway⟩
  · rcases hframe l with hkept | ⟨hgone, hclears⟩
    · exact absurd (hsame.trans hkept) hl
    · exact ⟨.inl (hsame.trans hgone), .inr hclears⟩
  · exact ⟨.inr hway, (hframe l).imp (fun hkept => hkept.symm.trans hnone) And.right⟩

/-- The home is prepared first, and then the package manager is asked about it. -/
theorem initializeHome_eq (conan : Conan) (fresh : Bool) :
    initializeHome conan fresh = (prepareHome conan.home fresh >>= fun _ => askHome conan) := by
  unfold initializeHome prepareHome
  cases fresh with
  | false => rfl
  | true =>
    rw [if_pos rfl, if_pos rfl, bind_assoc]
    refine congrArg (removeDirectory conan.home >>= ·) (funext fun gone => ?_)
    cases gone <;> rfl

include hm in
/-- When the package manager is asked about its home, the path of the home leads to a directory,
unless it is empty, or the home is not a fresh one and was a file. A fresh home is empty, if no `..`
in its path stands behind a directory that is missing. Whatever is not as it was is gone or a
directory on the way to the home, and it was missing, or a fresh home took its place. -/
theorem initializeHome_prepares (conan : Conan) (fresh : Bool) :
    initializeHome conan fresh = (prepareHome conan.home fresh >>= fun _ => askHome conan) ∧
    ∀ m', (prepareHome conan.home fresh).run.run m = (.ok (), m') →
      (m'.isDirectory conan.home = true ↔
        conan.home.isEmpty = false ∧ (fresh = true ∨ m.isFile conan.home = false)) ∧
      (fresh = true → (m.cleared conan.home fresh).Straight m'.cwd conan.home →
        ∀ top, m'.files.status m'.cwd conan.home = .ok (top, .directory) →
          ∀ l, top <+: l → top ≠ l → m'.files.node? l = none) ∧
      ∀ l, m'.files.node? l ≠ m.files.node? l →
        (m'.files.node? l = none ∨ m'.files.OnWay m'.cwd conan.home l) ∧
          (m.files.node? l = none ∨ m.Clears conan.home fresh l) := by
  refine ⟨initializeHome_eq conan fresh, fun m' h => ⟨isDirectory_of_prepareHome hm h, ?_,
    fun l hl => changed_of_prepareHome hm h hl⟩⟩
  intro hfresh hstraight top htop l hl hne
  obtain ⟨htree, hmissing, -⟩ := cleared_of_prepareHome hm h
  obtain ⟨hensure, hcwd⟩ := ensured_of_prepareHome hm h
  have hseat := isSeat_seat (m.cleared conan.home fresh) m.cwd
  rw [← hcwd] at hmissing hensure hseat
  exact empty_of_ensureDirectory htree hseat (hmissing hfresh) hstraight hensure htop hl hne

/-- The home was a link. The link goes, and what it led to stays. -/
theorem initializeHome_prepares_link :
    let m := Machine.ofEntries [(["d"], .directory), (["d", "f"], .file .empty 0o644),
      (["h"], .link ⟨"d"⟩)]
    let r := (prepareHome ⟨"h"⟩ true).run.run m
    m.IsSound ∧ r.1 = .ok () ∧ r.2.isDirectory ⟨"h"⟩ = true ∧
      (∀ l, ["h"] <+: l → ["h"] ≠ l → r.2.files.node? l = none) ∧
      r.2.files.node? ["d", "f"] = some (.file .empty 0o644) := by
  intro m r
  have hm : m.IsSound := ⟨wellFormed_of_entries (by decide), isSeat_root⟩
  have hok : r.1 = .ok () := by decide +kernel
  obtain ⟨hdir, hempty, hframe⟩ :=
    (initializeHome_prepares hm ⟨⟨"/bin/conan"⟩, ⟨"h"⟩⟩ true).2 r.2 (Prod.ext hok rfl)
  have hstraight : (m.cleared ⟨"h"⟩ true).Straight r.2.cwd ⟨"h"⟩ :=
    straight_of_no_up (by decide +kernel)
  have htop : r.2.files.status r.2.cwd ⟨"h"⟩ = .ok (["h"], .directory) := by decide +kernel
  refine ⟨hm, hok, hdir.2 ⟨rfl, .inl rfl⟩, hempty rfl hstraight _ htop, ?_⟩
  by_contra hf
  obtain ⟨-, hnone | ⟨-, top, node, hstatus, hpre⟩⟩ := hframe ["d", "f"] hf
  · cases hnone
  · have hlink : m.files.linkStatus m.cwd ⟨"h"⟩ = .ok (["h"], .link ⟨"d"⟩) := by decide +kernel
    rw [hlink] at hstatus
    cases hstatus
    exact absurd hpre (by decide)

/-- A file at the home passes for a home, and a fresh home with a missing directory before a `..`
in its path keeps what is in it. -/
theorem home_not_prepared :
    let tool : Location × Node := (["conan"], .file .empty 0o755)
    let start (entries : List (Location × Node)) : Machine :=
      { Machine.ofEntries (tool :: entries) with programs := fun fs _ => .ok { files := fs } }
    let r := (initializeHome ⟨⟨"/conan"⟩, ⟨"h"⟩⟩ false).run.run (start [(["h"], .file .empty 0o644)])
    let r' := (initializeHome ⟨⟨"/conan"⟩, ⟨"a/../h"⟩⟩ true).run.run
      (start [(["h"], .directory), (["h", "f"], .file .empty 0o644)])
    r.1 = .ok () ∧ r.2.isDirectory ⟨"h"⟩ = false ∧
      r'.1 = .ok () ∧ r'.2.files.status r'.2.cwd ⟨"a/../h"⟩ = .ok (["h"], .directory) ∧
        r'.2.files.node? ["h", "f"] = some (.file .empty 0o644) := by
  decide +kernel

end Preparing

end ConanPipeline
