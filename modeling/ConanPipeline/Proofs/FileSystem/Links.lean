import ConanPipeline.Proofs.FileSystem.Tree

/-! Links followed path by path. A path that names a link in a directory leads where the link's
target leads from there (`Reaches.leads_link`), and so does the path that the link is followed to,
over fewer links (`Reaches.leads_following`). The search for the end of the links therefore stays
on paths that lead to one place (`leads_of_endOfLinks`), and it walks the links one by one
(`Chain.endOfLinks_iff`). -/

namespace ConanPipeline.FileSystem

/-- The path's last step is a name, and those before it lead into the directory `d`. -/
def Reaches (fs : FileSystem) (cwd : Location) (p : Path) (k : Nat) (d : Location) (s : String) :
    Prop :=
  fs.IsStep d s ∧ ∃ ds, p.steps = ds ++ [s] ∧ fs.Enters (p.base cwd) ds k d

/-- Links, one leading to the next and the last one to a place that is not a link. The paths are
their targets. -/
inductive Chain (fs : FileSystem) : Location → List Path → Location → Prop
  | stop {e} (he : ∀ t, fs.node? e ≠ some (.link t)) : Chain fs e [] e
  | link {d s t k l ts e} (hl : fs.node? (d ++ [s]) = some (.link t))
      (h : fs.Leads false (t.base d) t.steps k l) (hc : Chain fs l ts e) :
      Chain fs (d ++ [s]) (t :: ts) e

variable {fs fs' : FileSystem} {cwd l d e m : Location} {s : String} {xs : List String}
variable {n k c : Nat} {asked p q t : Path} {ts : List Path} {node : Node} {final : Bool}

section Single

theorem leads_single_link (hs : fs.IsStep d s) (hl : fs.node? (d ++ [s]) = some (.link t))
    (ht : t.isEmpty = false) : fs.Leads true d [s] n m ↔
      fs.Allows .read (d ++ [s]) ∧ ∃ i, fs.Leads true (t.base d) t.steps i m ∧ n = i + 1 := by
  constructor
  · intro h
    rcases h.single_cases with ⟨hdot, -⟩ | ⟨hup, -⟩ | ⟨-, -, -, hnode⟩ |
      ⟨t', i, -, hl', hk, -, -, hi, rfl⟩
    · exact absurd hdot hs.not_dot
    · exact absurd hup hs.not_up
    · rw [hl] at hnode
      rcases hnode with hnode | hnode <;> cases hnode
    · rw [hl] at hl'
      cases hl'
      exact ⟨hk, i, hi, rfl⟩
  · rintro ⟨hk, i, h, rfl⟩
    exact .follow hs hl hk (fun _ => rfl) ht (by rwa [List.append_nil])

theorem leads_single_file {b : ByteArray} {mode : Nat} (hs : fs.IsStep d s)
    (hl : fs.node? (d ++ [s]) = some (.file b mode)) : fs.Leads final d [s] 0 (d ++ [s]) :=
  .stop hs (by rw [hl]; rfl)

end Single

namespace Reaches

theorem unique {d' : Location} {s' : String} (h : fs.Reaches cwd p k d s)
    (h' : fs.Reaches cwd p n d' s') : d = d' ∧ s = s' := by
  obtain ⟨-, ds, hsteps, hd⟩ := h
  obtain ⟨-, ds', hsteps', hd'⟩ := h'
  obtain ⟨rfl, hs⟩ := List.append_inj' (hsteps.symm.trans hsteps') rfl
  exact ⟨(hd.enters_unique hd').1, (List.cons.inj hs).1⟩

/-- The path leads where its last name leads in the directory. -/
theorem leads_iff (h : fs.Reaches cwd p k d s) : fs.Leads final (p.base cwd) p.steps n m ↔
    ∃ i, fs.Leads final d [s] i m ∧ n = k + i := by
  obtain ⟨-, ds, hsteps, hd⟩ := h
  rw [hsteps]
  constructor
  · intro h
    obtain ⟨d', j, i, hd', hi, rfl⟩ := h.split fun hnil => nomatch hnil
    obtain ⟨rfl, rfl⟩ := hd.enters_unique hd'
    exact ⟨i, hi, rfl⟩
  · rintro ⟨i, hi, rfl⟩
    exact hd.append hi fun hnil => nomatch hnil

theorem leads_link (h : fs.Reaches cwd p k d s) (hl : fs.node? (d ++ [s]) = some (.link t))
    (ht : t.isEmpty = false) : fs.Leads true (p.base cwd) p.steps n m ↔
      fs.Allows .read (d ++ [s]) ∧ ∃ i, fs.Leads true (t.base d) t.steps i m ∧ n = k + i + 1 := by
  rw [h.leads_iff]
  constructor
  · rintro ⟨j, hj, rfl⟩
    obtain ⟨hk, i, hi, rfl⟩ := (leads_single_link h.1 hl ht).1 hj
    exact ⟨hk, i, hi, rfl⟩
  · rintro ⟨hk, i, hi, rfl⟩
    exact ⟨i + 1, (leads_single_link h.1 hl ht).2 ⟨hk, i, hi, rfl⟩, rfl⟩

/-- The path that a link is followed to starts from the same directory as the link's target does
where the link stands, but for `j` links on the way there. -/
theorem leads_following (h : fs.Reaches cwd p k d s) (ht : t.isEmpty = false) :
    ∃ j, j ≤ k ∧ ∀ final n m, fs.Leads final ((p.following t).base cwd) (p.following t).steps n m ↔
      ∃ i, fs.Leads final (t.base d) t.steps i m ∧ n = j + i := by
  obtain ⟨hs, ds, hsteps, hd⟩ := h
  cases habs : t.isAbsolute with
  | true =>
    refine ⟨0, Nat.zero_le k, fun final n m => ?_⟩
    have hbase : t.base cwd = t.base d := by simp [Path.base, habs]
    rw [Path.following_of_absolute habs, hbase]
    constructor
    · exact fun h => ⟨n, h, (Nat.zero_add n).symm⟩
    · rintro ⟨i, h, rfl⟩
      rwa [Nat.zero_add]
  | false =>
    obtain ⟨hroot, ws, hws, hfilter⟩ := Path.steps_following hsteps hs.not_dot habs ht
    have hbase : (p.following t).base cwd = p.base cwd := by rw [Path.base, Path.base, hroot]
    have hhere : t.base d = d := by simp [Path.base, habs]
    have hd' : fs.Enters (p.base cwd) ws k d := by
      rw [Walks.filter_iff, hfilter]
      exact Walks.filter_iff.1 hd
    have hne : t.steps ≠ [] := Path.steps_ne_nil habs ht
    refine ⟨k, Nat.le_refl k, fun final n m => ?_⟩
    rw [hbase, hws, hhere]
    constructor
    · intro h
      obtain ⟨d₂, j, i, hd₂, hi, rfl⟩ := h.split fun hnil => absurd hnil hne
      obtain ⟨rfl, rfl⟩ := hd'.enters_unique hd₂
      exact ⟨i, hi, rfl⟩
    · rintro ⟨i, hi, rfl⟩
      exact hd'.append hi fun hnil => absurd hnil hne

theorem of_kept (h : fs.Reaches cwd p k d s) (hfs : fs.KeepsWays fs') :
    fs'.Reaches cwd p k d s := by
  obtain ⟨hs, ds, hsteps, h⟩ := h
  exact ⟨⟨hs.toIsName, hfs.search d hs.search⟩, ds, hsteps, h.enters_of_kept hfs⟩

end Reaches

section Search

/-- A path that names a file or a link goes to a name in a directory. -/
theorem WellFormed.reaches (hfs : fs.WellFormed) (hcwd : fs.IsSeat cwd)
    (h : fs.Leads false (p.base cwd) p.steps k l) (hl : fs.node? l = some node)
    (hnode : node ≠ .directory) : ∃ d s, fs.Reaches cwd p k d s ∧ l = d ++ [s] := by
  obtain ⟨ds, s, d, hsteps, hs, hd, rfl, -⟩ := hfs.last_of_leads (hcwd.base p) h hl hnode
  exact ⟨d, s, ⟨hs, ds, hsteps, hd⟩, rfl⟩

theorem WellFormed.link_cases (hfs : fs.WellFormed) (hcwd : fs.IsSeat cwd)
    (h : fs.linkStatus cwd p = .ok (l, .link t)) :
    p.Usable ∧ t.isEmpty = false ∧ ∃ k d s, fs.Reaches cwd p k d s ∧ l = d ++ [s] ∧
      fs.node? (d ++ [s]) = some (.link t) := by
  obtain ⟨hp, ⟨k, -, hleads⟩, hl⟩ := (linkStatus_eq_ok_iff (by simp)).1 h
  obtain ⟨d, s, hr, rfl⟩ := hfs.reaches hcwd hleads hl (by simp)
  exact ⟨hp, hfs.target _ _ hl, k, d, s, hr, rfl, hl⟩

theorem endOfLinksWithin_of_link (h : fs.linkStatus cwd p = .ok (l, .link t))
    (hk : fs.Allows .read l) (c : Nat) : fs.endOfLinksWithin cwd asked (c + 1) p =
      fs.endOfLinksWithin cwd asked c (p.following t) := by
  rw [endOfLinksWithin, h]
  dsimp only
  rw [hk]
  rfl

theorem endOfLinksWithin_of_stop (h : ∀ l t, fs.linkStatus cwd p ≠ .ok (l, .link t)) (c : Nat) :
    fs.endOfLinksWithin cwd asked (c + 1) p = .ok p := by
  rw [endOfLinksWithin]
  split
  · rename_i l t hlink
    exact absurd hlink (h l t)
  · rfl

/-- The search for the end of the links ends at a path, after one step to each path before it. -/
theorem endOfLinksWithin_induction {motive : Path → Prop}
    (stop : (∀ l t, fs.linkStatus cwd q ≠ .ok (l, .link t)) → motive q)
    (link : ∀ p l t, fs.linkStatus cwd p = .ok (l, .link t) → fs.Allows .read l →
      motive (p.following t) → motive p)
    (h : fs.endOfLinksWithin cwd asked c p = .ok q) : motive p := by
  induction c generalizing p with
  | zero => cases h
  | succ c ih =>
    by_cases hlink : ∃ l t, fs.linkStatus cwd p = .ok (l, .link t)
    · obtain ⟨l, t, hlink⟩ := hlink
      cases hk : fs.refused .read l with
      | none =>
        rw [endOfLinksWithin_of_link hlink hk] at h
        exact link p l t hlink hk (ih h)
      | some r =>
        rw [endOfLinksWithin, hlink] at h
        dsimp only at h
        rw [hk] at h
        cases h
    · have hstop : ∀ l t, fs.linkStatus cwd p ≠ .ok (l, .link t) := by simpa using hlink
      rw [endOfLinksWithin_of_stop hstop] at h
      cases h
      exact stop hstop

theorem linkStatus_of_endOfLinks (h : fs.endOfLinksWithin cwd asked c p = .ok q) (l : Location)
    (t : Path) : fs.linkStatus cwd q ≠ .ok (l, .link t) := by
  refine endOfLinksWithin_induction (motive := fun _ => fs.linkStatus cwd q ≠ .ok (l, .link t))
    (fun hstop => hstop l t) (fun _ _ _ _ _ hq => hq) h

theorem usable_of_endOfLinks (hfs : fs.WellFormed) (hcwd : fs.IsSeat cwd)
    (h : fs.endOfLinksWithin cwd asked c p = .ok q) (hq : q.Usable) : p.Usable :=
  endOfLinksWithin_induction (fun _ => hq) (fun _ _ _ hlink _ _ => (hfs.link_cases hcwd hlink).1) h

/-- Wherever the path at the end of the links leads, the first path leads there too. -/
theorem leads_of_endOfLinks (hfs : fs.WellFormed) (hcwd : fs.IsSeat cwd) (hways : fs.KeepsWays fs')
    (h : fs.endOfLinksWithin cwd asked c p = .ok q)
    (hq : fs'.Leads true (q.base cwd) q.steps n m) :
    ∃ n, fs'.Leads true (p.base cwd) p.steps n m := by
  refine endOfLinksWithin_induction (motive := fun p => ∃ n,
    fs'.Leads true (p.base cwd) p.steps n m) (fun _ => ⟨n, hq⟩) (fun p l t hlink hk hnext => ?_) h
  obtain ⟨n, hn⟩ := hnext
  obtain ⟨-, ht, k, d, s, hr, rfl, hnode⟩ := hfs.link_cases hcwd hlink
  have hr' := hr.of_kept hways
  obtain ⟨j, -, hfollow⟩ := hr'.leads_following ht
  obtain ⟨i, hi, -⟩ := (hfollow true n m).1 hn
  exact ⟨k + i + 1,
    (hr'.leads_link (hways.link _ _ hnode) ht).2 ⟨hways.read _ hk, i, hi, rfl⟩⟩

end Search

section Chains

/-- What can be reached through links is at the end of a chain, which is no longer than the number
of links that were followed. -/
theorem exists_chain (hfs : fs.WellFormed) (hl : fs.IsSeat l) (h : fs.Leads true l xs n e)
    {b : ByteArray} {mode : Nat} (he : fs.node? e = some (.file b mode)) :
    ∃ k m ts, fs.Leads false l xs k m ∧ fs.Chain m ts e ∧ k + ts.length ≤ n := by
  induction n using Nat.strongRecOn generalizing l xs with
  | ind n ih =>
    rcases List.eq_nil_or_concat xs with rfl | ⟨ds, s, rfl⟩
    · cases h
      cases hl.eq_directory hfs he
    · rw [List.concat_eq_append] at h ⊢
      obtain ⟨d, j, i, hd, hlast, rfl⟩ := h.split fun hnil => nomatch hnil
      have hseat := hl.enters hd
      have hnil : [s] = [] → ∀ t, endsAt false (some (.link t)) = false := fun hnil => nomatch hnil
      rcases hlast.single_cases with ⟨-, rfl, -⟩ | ⟨-, rfl, -⟩ | ⟨hs, rfl, rfl, -⟩ |
        ⟨t, i, hs, hlink, -, -, ht, hi, rfl⟩
      · cases hseat.eq_directory hfs he
      · cases hseat.dropLast.eq_directory hfs he
      · refine ⟨j + 0, d ++ [s], [], hd.append (leads_single_file hs he) hnil, ?_, by simp⟩
        exact .stop fun t ht => by simp [he] at ht
      · obtain ⟨k, m, ts, hk, hc, hle⟩ := ih i (by omega) (hseat.base t) hi
        refine ⟨j + 0, d ++ [s], t :: ts, hd.append (.stop hs ?_) hnil, .link hlink hk hc, ?_⟩
        · rw [hlink]
          rfl
        · rw [List.length_cons]
          omega

variable {b : ByteArray} {mode : Nat}

theorem limit_of_status (hfs : fs.WellFormed) (hcwd : fs.IsSeat cwd)
    (hp : fs.status cwd p = .ok (e, .file b mode)) (hl : fs.Leads false (p.base cwd) p.steps k l) :
    k ≤ linkLimit := by
  obtain ⟨-, ⟨n, hn, h⟩, he⟩ := (status_eq_ok_iff (by simp)).1 hp
  obtain ⟨j, m, ts, hj, -, hle⟩ := exists_chain hfs (hcwd.base p) h he
  obtain ⟨-, rfl⟩ := hl.unique hj
  omega

/-- The first link of a path to a file, followed, leaves a path to the same file. -/
theorem status_following (hfs : fs.WellFormed) (hcwd : fs.IsSeat cwd)
    (hp : fs.status cwd p = .ok (e, .file b mode)) (hl : fs.linkStatus cwd p = .ok (l, .link t))
    (ht : (p.following t).Usable) : fs.status cwd (p.following t) = .ok (e, .file b mode) := by
  obtain ⟨-, ⟨n, hn, h⟩, he⟩ := (status_eq_ok_iff (by simp)).1 hp
  obtain ⟨-, hne, k, d, s, hr, -, hnode⟩ := hfs.link_cases hcwd hl
  obtain ⟨-, i, hi, rfl⟩ := (hr.leads_link hnode hne).1 h
  obtain ⟨j, hj, hfollow⟩ := hr.leads_following hne
  exact (status_eq_ok_iff (by simp)).2 ⟨ht, ⟨j + i, by omega, (hfollow ..).2 ⟨i, hi, rfl⟩⟩, he⟩

/-- A link on the way to a file can be read. -/
theorem allows_read_of_status (hfs : fs.WellFormed) (hcwd : fs.IsSeat cwd)
    (hp : fs.status cwd p = .ok (e, .file b mode)) (hl : fs.linkStatus cwd p = .ok (l, .link t)) :
    fs.Allows .read l := by
  obtain ⟨-, ⟨n, -, h⟩, -⟩ := (status_eq_ok_iff (by simp)).1 hp
  obtain ⟨-, hne, k, d, s, hr, rfl, hnode⟩ := hfs.link_cases hcwd hl
  exact ((hr.leads_link hnode hne).1 h).1

theorem status_of_endOfLinks (hfs : fs.WellFormed) (hcwd : fs.IsSeat cwd)
    (hp : fs.status cwd p = .ok (e, .file b mode))
    (h : fs.endOfLinksWithin cwd asked c p = .ok q) (hq : q.Usable) :
    fs.status cwd q = .ok (e, .file b mode) := by
  refine (endOfLinksWithin_induction (motive := fun p => p.Usable ∧
    (fs.status cwd p = .ok (e, .file b mode) → fs.status cwd q = .ok (e, .file b mode)))
    (fun _ => ⟨hq, id⟩) (fun p l t hlink _ hnext => ?_) h).2 hp
  exact ⟨(hfs.link_cases hcwd hlink).1,
    fun hp => hnext.2 (status_following hfs hcwd hp hlink hnext.1)⟩

/-- The path at the end of the links names the file itself. -/
theorem linkStatus_of_status (hfs : fs.WellFormed) (hcwd : fs.IsSeat cwd)
    (hp : fs.status cwd p = .ok (e, .file b mode))
    (hstop : ∀ l t, fs.linkStatus cwd p ≠ .ok (l, .link t)) :
    fs.linkStatus cwd p = .ok (e, .file b mode) := by
  obtain ⟨hu, ⟨n, hn, h⟩, he⟩ := (status_eq_ok_iff (by simp)).1 hp
  obtain ⟨k, m, ts, hk, hc, hle⟩ := exists_chain hfs (hcwd.base p) h he
  cases hc with
  | stop => exact (linkStatus_eq_ok_iff (by simp)).2 ⟨hu, ⟨k, by omega, hk⟩, he⟩
  | link hl =>
    have hlink := (linkStatus_eq_ok_iff (by simp)).2 ⟨hu, ⟨k, by omega, hk⟩, hl⟩
    exact absurd hlink (hstop _ _)

/-- The search comes to a path that the system takes exactly if it takes all paths on the way and
the chain is short enough. -/
theorem Chain.endOfLinks_iff (hfs : fs.WellFormed) (hcwd : fs.IsSeat cwd) (hc : fs.Chain l ts e)
    (hl : fs.Leads false (p.base cwd) p.steps k l) (hp : fs.status cwd p = .ok (e, .file b mode)) :
    fs.endOfLinksWithin cwd asked c p = .ok q ∧ q.Usable ↔
      ts.length < c ∧ (∀ x ∈ ts.scanl Path.following p, x.Usable) ∧
        q = ts.foldl Path.following p := by
  have hu := ((status_eq_ok_iff (by simp)).1 hp).1
  induction hc generalizing p k c with
  | stop he =>
    cases c with
    | zero => exact iff_of_false (fun h => nomatch h.1) (fun h => nomatch h.1)
    | succ c =>
      have hstop (l : Location) (t : Path) : fs.linkStatus cwd p ≠ .ok (l, .link t) := by
        intro hlink
        obtain ⟨-, ⟨k', -, hl'⟩, hnode⟩ := (linkStatus_eq_ok_iff (by simp)).1 hlink
        obtain ⟨rfl, -⟩ := hl.unique hl'
        exact absurd hnode (he t)
      rw [endOfLinksWithin_of_stop hstop]
      simp only [Except.ok.injEq, List.length_nil, Nat.zero_lt_succ, List.scanl_nil,
        List.mem_singleton, forall_eq, List.foldl_nil, true_and, hu]
      exact ⟨fun h => h.1.symm, fun h => ⟨h.symm, h ▸ hu⟩⟩
  | @link d s t i m ts e hnode ht hc ih =>
    cases c with
    | zero => exact iff_of_false (fun h => nomatch h.1) (fun h => nomatch h.1)
    | succ c =>
      have hlink : fs.linkStatus cwd p = .ok (d ++ [s], .link t) :=
        (linkStatus_eq_ok_iff (by simp)).2 ⟨hu, ⟨k, limit_of_status hfs hcwd hp hl, hl⟩, hnode⟩
      rw [endOfLinksWithin_of_link hlink (allows_read_of_status hfs hcwd hp hlink)]
      simp only [List.length_cons, Nat.succ_lt_succ_iff, List.scanl_cons, List.forall_mem_cons,
        List.foldl_cons, hu, true_and]
      by_cases hf : (p.following t).Usable
      · obtain ⟨-, hne, k', d', s', hr, hl', -⟩ := hfs.link_cases hcwd hlink
        obtain ⟨rfl, -⟩ := List.append_inj' hl' rfl
        obtain ⟨j, -, hfollow⟩ := hr.leads_following hne
        exact ih ((hfollow ..).2 ⟨i, ht, rfl⟩) (status_following hfs hcwd hp hlink hf) hf
      · -- the search stops at a path that is not taken
        refine iff_of_false (fun h => ?_) fun h => ?_
        · cases c with
          | zero => cases h.1
          | succ c =>
            have hstop (l : Location) (u : Path) :
                fs.linkStatus cwd (p.following t) ≠ .ok (l, .link u) := fun hlink =>
              hf ((linkStatus_eq_ok_iff (by simp)).1 hlink).1
            rw [endOfLinksWithin_of_stop hstop] at h
            obtain ⟨heq, hq⟩ := h
            cases heq
            exact hf hq
        · refine hf (h.2.1 _ ?_)
          cases ts <;> simp

end Chains

end ConanPipeline.FileSystem
