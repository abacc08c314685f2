import ConanPipeline.Proofs.FileSystem.Write

/-! Replacing a file is all or nothing (`replace_all_or_nothing`). A failure leaves every entry as
it was, and a success changes the one file at the end of the links. -/

namespace ConanPipeline.FileSystem

/-- The file at a place, or a new one, has the contents. All that was there is there, and what is
new besides are directories over the place. -/
structure Replaces (fs : FileSystem) (place : Location) (contents : String) (fs' : FileSystem) :
    Prop where
  refused : fs'.refused = fs.refused
  was : fs.node? place = none ∨ ∃ b mode, fs.node? place = some (.file b mode)
  now : ∃ mode, fs'.node? place = some (.file contents.toUTF8 mode) ∧
    ∀ b mode', fs.node? place = some (.file b mode') → mode = mode'
  kept : ∀ l node, l ≠ place → fs.node? l = some node → fs'.node? l = some node
  added : ∀ l node, l ≠ place → fs.node? l = none → fs'.node? l = some node →
    node = .directory ∧ l <+: place

variable {fs fs' fs₁ : FileSystem} {cwd l d there place : Location} {s contents : String}
variable {n k : Nat} {p target dir : Path}

theorem ensureDirectory_makes (hfs : fs.WellFormed) (hcwd : fs.IsSeat cwd)
    (hstraight : fs.Straight cwd dir) : fs.Makes cwd dir (fs.ensureDirectory cwd dir) := by
  rw [ensureDirectory]
  split
  · exact Or.inl (.refl fs)
  · have hmakes := makeDirectories_makes hfs hcwd hstraight
    rw [← Path.ancestors, ← makeAll] at hmakes
    split
    · rename_i hok
      rw [hok] at hmakes
      exact hmakes.of_outcome fun _ => rfl
    · rename_i herror
      rw [herror] at hmakes
      exact hmakes.of_outcome fun h => nomatch h

theorem ensureDirectory_induction {motive : FileSystem → Prop} {dir : Path}
    (step : ∀ fs₁ fs₂, ∀ p ∈ dir.ancestors, fs₁.makeDirectory cwd p = .ok fs₂ → motive fs₁ →
      motive fs₂) (h : motive fs) : motive (fs.ensureDirectory cwd dir).2 := by
  rw [ensureDirectory]
  split
  · exact h
  · have hmade := makeDirectories_induction step h
    rw [← makeAll] at hmade
    split
    · rename_i hok
      rwa [hok] at hmade
    · rename_i herror
      rwa [herror] at hmade

theorem ensureDirectory_kept (l : Location) (node : Node) (hl : fs.node? l = some node) :
    (fs.ensureDirectory cwd dir).2.node? l = some node := by
  refine ensureDirectory_induction (motive := fun fs => fs.node? l = some node) ?_ hl
  intro fs₁ fs₂ p _ h hl
  obtain ⟨d, s, xs, k, -, -, -, hgrown, -⟩ := makeDirectory_ok h
  exact hgrown.kept l node hl

/-- Who may do what is not changed. -/
theorem refused_of_replace (fs : FileSystem) (cwd : Location) (p : Path) (contents : String) :
    (fs.replace cwd p contents).2.refused = fs.refused := by
  cases hend : fs.endOfLinks cwd p with
  | error f => rw [replace, hend]
  | ok target =>
    have hmade : (fs.ensureDirectory cwd (directoryOf target)).2.refused = fs.refused := by
      refine ensureDirectory_induction (motive := fun fs₁ => fs₁.refused = fs.refused) ?_ rfl
      intro fs₁ fs₂ p _ h hfs₁
      obtain ⟨d, s, xs, k, -, -, -, hgrown, -⟩ := makeDirectory_ok h
      exact hgrown.refused.trans hfs₁
    rcases replace_cases hend (Prod.eta _).symm contents with
      ⟨-, -, d, s, -, hwritten, -⟩ | ⟨-, hleaves, -⟩
    · exact hwritten.refused.trans hmade
    · exact hleaves.refused.trans hmade

/-- A failure leaves all that was there as it was, whatever the path. -/
theorem kept_of_replace_error {f : Failure} (h : (fs.replace cwd p contents).1 = .error f)
    (l : Location) (node : Node) (hl : fs.node? l = some node) :
    (fs.replace cwd p contents).2.node? l = some node := by
  cases hend : fs.endOfLinks cwd p with
  | error f =>
    rw [replace, hend]
    exact hl
  | ok target =>
    rcases replace_cases hend (Prod.eta _).symm contents with ⟨-, hok, -⟩ | ⟨-, hleaves, -⟩
    · rw [h] at hok
      cases hok
    · exact hleaves.kept (ensureDirectory_kept l node hl)

/-- Files are replaced in trees, and trees they remain. -/
theorem WellFormed.replace (hfs : fs.WellFormed) (cwd : Location) (p : Path) (contents : String) :
    (fs.replace cwd p contents).2.WellFormed := by
  cases hend : fs.endOfLinks cwd p with
  | error f =>
    rw [FileSystem.replace, hend]
    exact hfs
  | ok target =>
    have hmade : (fs.ensureDirectory cwd (directoryOf target)).2.WellFormed :=
      ensureDirectory_induction (fun _ _ _ _ h hfs => wellFormed_of_makeDirectory hfs h) hfs
    rcases replace_cases hend (Prod.eta _).symm contents with
      ⟨-, -, d, s, hreceives, hwritten, -⟩ | ⟨-, hleaves, -⟩
    · obtain ⟨-, hd, k, -, -, ds, hsteps, -⟩ := hreceives.named
      have hs : s ≠ "" := Path.ne_empty_of_mem_steps (hsteps ▸ List.mem_append_right ds (by simp))
      obtain ⟨mode, hnow, -⟩ := hwritten.now
      exact hmade.of_set hd hs hreceives.free hnow (by simp) hwritten.others
    · exact hmade.leaves hleaves

/-- Reading a path to a file fails only if there are too many links on the way, or the file may not
be read. -/
theorem read_of_leads (hp : p.Usable) (h : fs.Leads true (p.base cwd) p.steps k place)
    {b : ByteArray} {mode : Nat} (hplace : fs.node? place = some (.file b mode)) :
    fs.read cwd p = if k ≤ linkLimit then
      match fs.refused .read place with
      | none => .ok b
      | some r => .error r.errno
    else .error .linkLoop := by
  have hstatus : fs.status cwd p =
      if k ≤ linkLimit then .ok (place, .file b mode) else .error .linkLoop := by
    rw [status, locate, origin_of_usable hp]
    change fs.walk true linkLimit (p.base cwd) p.steps >>= fs.at? = _
    rw [walk_of_leads h]
    split
    · exact at?_eq_ok_iff.2 ⟨rfl, Or.inl hplace⟩
    · rfl
  rw [read, hstatus]
  by_cases hk : k ≤ linkLimit
  · rw [if_pos hk, if_pos hk]
    dsimp only
    cases fs.refused .read place <;> rfl
  · rw [if_neg hk, if_neg hk]

theorem Makes.grown {ε : Type} {r : Except ε Unit × FileSystem} (h : fs.Makes cwd dir r) :
    ∃ there, fs.Grown there r.2 := by
  rcases h with hsame | ⟨there, -, hgrown, -⟩
  · exact ⟨[], Grown.of_same hsame []⟩
  · exact ⟨there, hgrown⟩

/-- What was written once the directories were made was written in the place of a file, or of
nothing, and the directories are over it. -/
theorem Receives.replaces (hfs : fs.WellFormed)
    (htarget : fs.endOfLinks cwd p = .ok target) {r : Except Failure Unit} (hr : r = .ok ())
    (hmakes : fs.Makes cwd (directoryOf target) (r, fs₁)) (h : fs₁.Receives cwd target d s)
    (hw : fs₁.Written (d ++ [s]) contents fs') :
    fs.Replaces (d ++ [s]) contents fs' := by
  obtain ⟨hp, hd, k, hk, hreach⟩ := h.named
  rcases hmakes with hsame | ⟨there, hnone, hgrown, henters⟩
  · have hreach' : fs.Reaches cwd target k d s :=
      hreach.of_kept (SameAs.keepsWays (SameAs.symm hsame))
    obtain ⟨hsame, haccess⟩ := hsame
    refine ⟨hw.refused.trans haccess, ?_, ?_, fun l node hl hnode => ?_,
      fun l node hl hnode hnode' => ?_⟩
    · cases hplace : fs.node? (d ++ [s]) with
      | none => exact Or.inl rfl
      | some node =>
        cases node with
        | directory => exact absurd ((hsame _).trans hplace) h.free
        | file b mode => exact Or.inr ⟨b, mode, rfl⟩
        | link t =>
          -- the search for the end of the links would have gone on
          have hleads : fs.Leads false (target.base cwd) target.steps (k + 0) (d ++ [s]) :=
            hreach'.leads_iff.2 ⟨0, .stop hreach'.1 (by rw [hplace]; rfl), rfl⟩
          have hlink := (linkStatus_eq_ok_iff (by simp)).2 ⟨hp, ⟨k, hk, hleads⟩, hplace⟩
          exact absurd hlink (linkStatus_of_endOfLinks htarget _ _)
    · obtain ⟨mode, hnow, hmode⟩ := hw.now
      exact ⟨mode, hnow, fun b mode' hplace => hmode b mode' ((hsame _).trans hplace)⟩
    · rw [hw.others l hl, hsame, hnode]
    · rw [hw.others l hl, hsame, hnode] at hnode'
      cases hnode'
  · obtain ⟨j, henters⟩ := henters hr
    obtain ⟨rfl, -⟩ := henters.enters_unique hreach.enters_directoryOf
    have hplace := hfs.node?_eq_none hnone (List.prefix_append there [s])
    refine ⟨hw.refused.trans hgrown.refused, Or.inl hplace, ?_, fun l node hl hnode => ?_,
      fun l node hl hnode hnode' => ?_⟩
    · obtain ⟨mode, hnow, -⟩ := hw.now
      exact ⟨mode, hnow, fun b mode' h => by simp [hplace] at h⟩
    · rw [hw.others l hl, hgrown.kept l node hnode]
    · rw [hw.others l hl] at hnode'
      obtain ⟨hdir, hpre⟩ := hgrown.added l node hnode hnode'
      exact ⟨hdir, hpre.trans (List.prefix_append there [s])⟩

/-- No directory and no link is lost. -/
theorem Replaces.keepsWays (h : fs.Replaces place contents fs') : fs.KeepsWays fs' := by
  refine .of_refused h.refused fun l node hnode hl => h.kept l _ ?_ hl
  rintro rfl
  rcases h.was with hnone | ⟨b, mode, hfile⟩
  · rw [hnone] at hl
    cases hl
  · rw [hfile] at hl
    exact hnode b mode (Option.some.inj hl).symm

/-- After a success the path leads, through its links, to the file that was written. -/
theorem Receives.leads (hfs : fs.WellFormed) (hcwd : fs.IsSeat cwd)
    (htarget : fs.endOfLinks cwd p = .ok target) (h : fs₁.Receives cwd target d s)
    (hw : fs₁.Written (d ++ [s]) contents fs') (hr : fs.Replaces (d ++ [s]) contents fs')
    (hnew : ∀ l t, fs₁.node? l = some (.link t) → fs.node? l = some (.link t)) :
    p.Usable ∧ ∃ k, fs'.Leads true (p.base cwd) p.steps k (d ++ [s]) := by
  obtain ⟨hp, hd, k, hk, hreach⟩ := h.named
  have hways : fs₁.KeepsWays fs' := by
    refine .of_refused hw.refused fun l node hnode hl => ?_
    cases node with
    | file b mode => exact absurd rfl (hnode b mode)
    | link t => exact hr.keepsWays.link l t (hnew l t hl)
    | directory =>
      rw [hw.others l, hl]
      rintro rfl
      exact h.free hl
  have hreach' : fs'.Reaches cwd target k d s := hreach.of_kept hways
  obtain ⟨mode, hnow, -⟩ := hw.now
  have hleads : fs'.Leads true (target.base cwd) target.steps (k + 0) (d ++ [s]) :=
    hreach'.leads_iff.2 ⟨0, leads_single_file hreach'.1 hnow, rfl⟩
  exact ⟨usable_of_endOfLinks hfs hcwd htarget hp,
    leads_of_endOfLinks hfs hcwd hr.keepsWays htarget hleads⟩

theorem straight_of_endOfLinks (h : ((fs.endOfLinks cwd p).toOption.all fun target =>
      (directoryOf target).ancestors.all fun q => q.lastComponent? != some .parent) = true)
    (target : Path) (htarget : fs.endOfLinks cwd p = .ok target) :
    fs.Straight cwd (directoryOf target) := by
  rw [htarget, Except.toOption, Option.all_some] at h
  exact straight_of_no_up h

/-- Replacing a file either leaves all that was there as it was, or changes the one file that the
path leads to through its links. That file is then read by the path, unless the walk to it needs
more links than may be followed or the file may not be read. What is new besides are directories,
in the second case those over the file; in the first a temporary file is left if taking it away
again is refused. -/
theorem replace_all_or_nothing (hfs : fs.WellFormed) (hcwd : fs.IsSeat cwd) (p : Path)
    (hstraight : ∀ target, fs.endOfLinks cwd p = .ok target →
      fs.Straight cwd (directoryOf target)) (contents : String) :
    match fs.replace cwd p contents with
    | (.error _, fs') => ∃ there fs₁, fs.Grown there fs₁ ∧ fs₁.Leaves fs'
    | (.ok (), fs') => ∃ place k, fs.Replaces place contents fs' ∧
        fs'.Leads true (p.base cwd) p.steps k place ∧
        fs'.read cwd p = if k ≤ linkLimit then
          match fs.refused .read place with
          | none => .ok contents.toUTF8
          | some r => .error r.errno
        else .error .linkLoop := by
  cases htarget : fs.endOfLinks cwd p with
  | error f =>
    rw [replace, htarget]
    exact ⟨[], fs, Grown.of_same (.refl fs) [], .clean (.refl fs)⟩
  | ok target =>
    have hmakes := ensureDirectory_makes hfs hcwd (hstraight target htarget)
    obtain ⟨r, fs₁, hmake⟩ : ∃ r fs₁, fs.ensureDirectory cwd (directoryOf target) = (r, fs₁) :=
      ⟨_, _, rfl⟩
    rw [hmake] at hmakes
    obtain ⟨there, hgrown⟩ := hmakes.grown
    have hcases := replace_cases htarget hmake contents
    rcases hreplace : fs.replace cwd p contents with ⟨result, fs'⟩
    rw [hreplace] at hcases
    rcases hcases with ⟨hr, rfl, d, s, hreceives, hwritten, -⟩ | ⟨⟨f, rfl⟩, hleaves, -⟩
    · have hreplaces := hreceives.replaces hfs htarget hr hmakes hwritten
      have hnew (l : Location) (t : Path) (hl : fs₁.node? l = some (.link t)) :
          fs.node? l = some (.link t) := by
        cases hold : fs.node? l with
        | none => cases (hgrown.added l _ hold hl).1
        | some node => exact (hgrown.kept l node hold).symm.trans hl
      obtain ⟨hp, k, hleads⟩ := hreceives.leads hfs hcwd htarget hwritten hreplaces hnew
      obtain ⟨mode, hnow, -⟩ := hwritten.now
      refine ⟨d ++ [s], k, hreplaces, hleads, ?_⟩
      rw [read_of_leads hp hleads hnow, hreplaces.refused]
    · exact ⟨there, fs₁, hgrown, hleaves⟩

/-- A link to a file in directories that are still to be made. -/
def dangling : FileSystem := { entries := [(["a"], .directory), (["a", "l"], .link ⟨"b/c/f"⟩)] }

theorem replace_all_or_nothing_dangling :
    (dangling.replace [] ⟨"a/l"⟩ "new").1 = .ok () ∧ ∃ place k, k ≤ linkLimit ∧
      dangling.Replaces place "new" (dangling.replace [] ⟨"a/l"⟩ "new").2 ∧
      (dangling.replace [] ⟨"a/l"⟩ "new").2.Leads true [] ["a", "l"] k place ∧
      (dangling.replace [] ⟨"a/l"⟩ "new").2.read [] ⟨"a/l"⟩ = .ok "new".toUTF8 := by
  have hfs : dangling.WellFormed := wellFormed_of_entries (by decide)
  have hstraight : ∀ target, dangling.endOfLinks [] ⟨"a/l"⟩ = .ok target →
      dangling.Straight [] (directoryOf target) := straight_of_endOfLinks (by decide +kernel)
  have hok : (dangling.replace [] ⟨"a/l"⟩ "new").1 = .ok () := by decide +kernel
  have h := replace_all_or_nothing hfs isSeat_root ⟨"a/l"⟩ hstraight "new"
  have hfound : ((dangling.replace [] ⟨"a/l"⟩ "new").2.read [] ⟨"a/l"⟩).isOk = true := by
    decide +kernel
  rcases hreplace : dangling.replace [] ⟨"a/l"⟩ "new" with ⟨r, fs'⟩
  rw [hreplace] at h hok hfound
  obtain rfl : r = .ok () := hok
  obtain ⟨place, k, hplace, hleads, hread⟩ := h
  have hk : k ≤ linkLimit := by
    by_contra hk
    rw [hread, if_neg hk] at hfound
    cases hfound
  rw [if_pos hk] at hread
  exact ⟨rfl, place, k, hk, hplace, hleads, hread⟩

/-- A link to another one and that to a file, each by way of the twenty links from `T` to the
directory itself. -/
def detours : FileSystem :=
  let name (n : Nat) : String := .singleton (.ofNat ('A'.toNat + n))
  { entries := [(["l"], .link ⟨"T/m"⟩), (["m"], .link ⟨"T/f"⟩),
    (["f"], .file ByteArray.empty 0o644), (["A"], .link ⟨"."⟩)] ++
    (List.range 19).map fun n => ([name (n + 1)], .link ⟨name n⟩) }

/-- The two links are followed one at a time, but a reader meets more links than it may follow. -/
theorem replace_not_read_back : detours.WellFormed ∧ (detours.replace [] ⟨"l"⟩ "new").1 = .ok () ∧
    (detours.replace [] ⟨"l"⟩ "new").2.read [] ⟨"l"⟩ = .error .linkLoop :=
  ⟨wellFormed_of_entries (by decide +kernel), by decide +kernel, by decide +kernel⟩

end ConanPipeline.FileSystem
