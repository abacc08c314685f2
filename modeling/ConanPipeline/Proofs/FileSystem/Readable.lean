import ConanPipeline.Proofs.FileSystem.Replace

/-! When a file that can be read can be replaced. The links of its chain are followed one by one,
and each path on the way has to be one that the system takes (`Fits`). If then a file can be put
where the chain ends (`Writable`), the file there gets the new contents, and otherwise nothing is
replaced (`replace_eq_ok_iff`). -/

namespace ConanPipeline.FileSystem

/-- A path with the targets of the links on its chain for which the search for the end of the links
and the making of a temporary file go well. -/
structure Fits (cwd : Location) (p : Path) (ts : List Path) : Prop where
  links : ts.length < linkLimit
  paths : ∀ q ∈ ts.scanl Path.following p, q.Usable
  seat : isGone cwd = false ∨ (directoryOf (ts.foldl Path.following p)).isAbsolute = true
  temporary : (temporaryPath cwd (directoryOf (ts.foldl Path.following p))).Usable

instance (cwd : Location) (p : Path) (ts : List Path) : Decidable (Fits cwd p ts) :=
  decidable_of_iff (ts.length < linkLimit ∧ (∀ q ∈ ts.scanl Path.following p, q.Usable) ∧
      (isGone cwd = false ∨ (directoryOf (ts.foldl Path.following p)).isAbsolute = true) ∧
      (temporaryPath cwd (directoryOf (ts.foldl Path.following p))).Usable)
    ⟨fun ⟨h1, h2, h3, h4⟩ => ⟨h1, h2, h3, h4⟩, fun h => ⟨h.links, h.paths, h.seat, h.temporary⟩⟩

/-- A file can be put where one is, by way of a temporary one that gets its mode. -/
structure Writable (fs : FileSystem) (cwd : Location) (dir : Path) (place : Location) : Prop
    extends Accepts fs cwd dir place where
  setMode : fs.Allows .setMode (fs.temporaryPlace place)

variable {fs fs' fs₁ : FileSystem} {cwd l d e : Location} {s contents : String}
variable {n k : Nat} {p q : Path} {ts : List Path} {b : ByteArray} {mode : Nat}

/-- The directory of a file that is there need not be made. -/
theorem Reaches.ensureDirectory_eq (h : fs.Reaches cwd p k d s) (hp : p.Usable)
    (hk : k ≤ linkLimit) (hd : fs.node? d = some .directory) :
    fs.ensureDirectory cwd (directoryOf p) = (.ok (), fs) := by
  rw [ensureDirectory, present, h.status_directoryOf hp hk hd]
  rfl

section Chains

variable (hfs : fs.WellFormed) (hcwd : fs.IsSeat cwd) (hl : fs.locate cwd false p = .ok l)
variable (hc : fs.Chain l ts e) (hp : fs.status cwd p = .ok (e, .file b mode))

include hfs hcwd hl hc hp in
/-- The search for the end of the links finds a path that names the file. -/
theorem Fits.endOfLinks (h : Fits cwd p ts) :
    fs.endOfLinks cwd p = .ok (ts.foldl Path.following p) ∧
      fs.linkStatus cwd (ts.foldl Path.following p) = .ok (e, .file b mode) := by
  obtain ⟨-, k, hk, hleads⟩ := locate_eq_ok_iff.1 hl
  obtain ⟨hend, hq⟩ := (hc.endOfLinks_iff hfs hcwd hleads hp).2 ⟨h.links, h.paths, rfl⟩
  exact ⟨hend, linkStatus_of_status hfs hcwd (status_of_endOfLinks hfs hcwd hp hend hq)
    (linkStatus_of_endOfLinks hend)⟩

include hfs hcwd hl hc hp in
/-- Where the links end, the file is replaced if one can be put there. -/
theorem Fits.replace_cases (h : Fits cwd p ts) (contents : String) :
    (fs.replace cwd p contents).1 = .ok () ∧
        fs.Writable cwd (directoryOf (ts.foldl Path.following p)) e ∧
        fs.Written e contents (fs.replace cwd p contents).2 ∨
      (∃ f, (fs.replace cwd p contents).1 = .error f) ∧
        ¬ fs.Writable cwd (directoryOf (ts.foldl Path.following p)) e := by
  obtain ⟨hend, hlink⟩ := h.endOfLinks hfs hcwd hl hc hp
  obtain ⟨hq, ⟨k, hk, hleads⟩, hnode⟩ := (linkStatus_eq_ok_iff (by simp)).1 hlink
  obtain ⟨d, s, hreach, rfl⟩ := hfs.reaches hcwd hleads hnode (by simp)
  have hd := hfs.parent d s (by simp [hnode])
  rcases FileSystem.replace_cases hend (hreach.ensureDirectory_eq hq hk hd) contents with
    ⟨-, hok, d', s', hreceives, hwritten, hmode⟩ | ⟨herror, -, hnot⟩
  · obtain ⟨-, -, k', -, hreach'⟩ := hreceives.named
    obtain ⟨rfl, rfl⟩ := hreach.unique hreach'
    exact .inl ⟨hok, ⟨hreceives.accepts, hmode b mode hnode⟩, hwritten⟩
  · refine .inr ⟨herror, fun hw => hnot rfl d s ?_ hw.setMode⟩
    exact ⟨⟨hq, hd, k, hk, hreach⟩, by simp [hnode], h.seat, h.temporary,
      hfs.isGone_eq_false (by simp [hd]), hw.toAccepts⟩

include hfs hcwd hl hc hp in
theorem fits_of_replace (h : (fs.replace cwd p contents).1 = .ok ()) : Fits cwd p ts := by
  obtain ⟨-, k, hk, hleads⟩ := locate_eq_ok_iff.1 hl
  cases hend : fs.endOfLinks cwd p with
  | error f =>
    rw [replace, hend] at h
    cases h
  | ok q =>
    rcases FileSystem.replace_cases hend (Prod.eta _).symm contents with
      ⟨-, -, d, s, hreceives, -⟩ | ⟨⟨f, hf⟩, -⟩
    · obtain ⟨hlinks, hpaths, rfl⟩ :=
        (hc.endOfLinks_iff hfs hcwd hleads hp).1 ⟨hend, hreceives.named.1⟩
      exact ⟨hlinks, hpaths, hreceives.seat, hreceives.temporary⟩
    · rw [h] at hf
      cases hf

include hfs hcwd hl hc hp in
theorem replace_eq_ok_iff (contents : String) : (fs.replace cwd p contents).1 = .ok () ↔
    Fits cwd p ts ∧ fs.Writable cwd (directoryOf (ts.foldl Path.following p)) e := by
  constructor
  · intro hok
    have hfits := fits_of_replace hfs hcwd hl hc hp hok
    rcases hfits.replace_cases hfs hcwd hl hc hp contents with ⟨-, hw, -⟩ | ⟨⟨f, hf⟩, -⟩
    · exact ⟨hfits, hw⟩
    · rw [hok] at hf
      cases hf
  · rintro ⟨hfits, hw⟩
    rcases hfits.replace_cases hfs hcwd hl hc hp contents with ⟨hok, -⟩ | ⟨-, hnot⟩
    · exact hok
    · exact absurd hw hnot

include hfs hcwd hl hc hp in
theorem written_of_chain (h : (fs.replace cwd p contents).1 = .ok ()) :
    fs.Written e contents (fs.replace cwd p contents).2 := by
  rcases (fits_of_replace hfs hcwd hl hc hp h).replace_cases hfs hcwd hl hc hp contents with
    ⟨-, -, hwritten⟩ | ⟨⟨f, hf⟩, -⟩
  · exact hwritten
  · rw [h] at hf
    cases hf

end Chains

section Reading

variable (hfs : fs.WellFormed) (hcwd : fs.IsSeat cwd) (hp : fs.status cwd p = .ok (e, .file b mode))

include hfs hcwd hp in
/-- If a file that can be read is replaced, then where it stands. -/
theorem written_of_replace (h : (fs.replace cwd p contents).1 = .ok ()) :
    fs.Written e contents (fs.replace cwd p contents).2 := by
  obtain ⟨hu, ⟨n, hn, hleads⟩, he⟩ := (status_eq_ok_iff (by simp)).1 hp
  obtain ⟨k, l, ts, hk, hc, hle⟩ := exists_chain hfs (hcwd.base p) hleads he
  have hl := locate_eq_ok_iff.2 ⟨hu, k, by omega, hk⟩
  exact written_of_chain hfs hcwd hl hc hp h

end Reading

end ConanPipeline.FileSystem
