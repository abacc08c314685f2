import Mathlib.Data.List.Nodup
import Mathlib.Data.List.Perm.Subperm
import ConanPipeline.Proofs.FileSystem.Directories

/-! What each stage of replacing a file does. The temporary file has a name that was free
(`node?_freeName`), so the file system without it is the one from before, and with it moved over
its target only the target is changed (`replace_cases`). -/

namespace ConanPipeline.FileSystem

/-- The file at a place has the contents, with the mode that it had, and all else is as it was. -/
structure Written (fs : FileSystem) (place : Location) (contents : String) (fs' : FileSystem) :
    Prop where
  refused : fs'.refused = fs.refused
  now : ∃ mode, fs'.node? place = some (.file contents.toUTF8 mode) ∧
    ∀ b mode', fs.node? place = some (.file b mode') → mode = mode'
  others : ∀ l, l ≠ place → fs'.node? l = fs.node? l

variable {fs fs' fs₁ fs₂ : FileSystem} {cwd l d place : Location} {s contents : String}
variable {n k : Nat} {p target dir : Path}

section Stages

theorem repr_injective : Function.Injective Nat.repr := by
  intro i j h
  rw [Nat.repr_eq_ofList_toDigits, Nat.repr_eq_ofList_toDigits, String.ofList_inj] at h
  have hvalue := congrArg (fun ds => Nat.ofDigitChars 10 ds 0) h
  simpa using hvalue

theorem temporaryName_injective : Function.Injective temporaryName := by
  intro i j h
  have htail : (if i = 0 then "" else i.repr) = if j = 0 then "" else j.repr := by
    have hlist := String.toList_inj.2 h
    rw [temporaryName, temporaryName, String.toList_append, String.toList_append,
      List.append_cancel_left_eq, String.toList_inj] at hlist
    exact hlist
  split at htail <;> split at htail
  · omega
  · exact absurd htail.symm Nat.repr_ne_empty
  · exact absurd htail Nat.repr_ne_empty
  · exact repr_injective htail

/-- There are more temporary names than entries, so one of them is free. -/
theorem node?_freeName (fs : FileSystem) (d : Location) :
    fs.node? (d ++ [fs.freeName d]) = none := by
  rw [freeName]
  generalize hfound : (List.range (fs.entries.length + 1)).find? (fun n =>
    (fs.node? (d ++ [temporaryName n])).isNone) = found
  cases found with
  | some n => simpa using List.find?_some hfound
  | none =>
    have htaken : (List.range (fs.entries.length + 1)).map (fun n => d ++ [temporaryName n]) ⊆
        fs.entries.map Prod.fst := by
      intro l hl
      obtain ⟨n, hn, rfl⟩ := List.mem_map.1 hl
      have htaken := List.find?_eq_none.1 hfound n hn
      obtain ⟨node, hnode⟩ := Option.ne_none_iff_exists'.1 (by simpa using htaken)
      exact List.mem_map_of_mem (f := Prod.fst) (mem_entries_of_node? (by simp) hnode)
    have hnodup : ((List.range (fs.entries.length + 1)).map
        fun n => d ++ [temporaryName n]).Nodup := by
      refine List.Nodup.map (fun i j h => temporaryName_injective ?_) List.nodup_range
      simpa using h
    have hlength := (hnodup.subperm htaken).length_le
    simp only [List.length_map, List.length_range] at hlength
    omega

theorem eq_ok_of_mapError {ε ε' α : Type} {f : ε → ε'} {x : Except ε α} {a : α}
    (h : x.mapError f = .ok a) : x = .ok a := by
  cases x with
  | error e => cases h
  | ok b => exact congrArg Except.ok (Except.ok.inj h)

theorem createTemporary_eq_ok_iff : fs.createTemporary cwd dir = .ok (l, fs') ↔
    (isGone cwd = false ∨ dir.isAbsolute = true) ∧ (temporaryPath cwd dir).Usable ∧
      fs.barred (if dir.isAbsolute then [] else cwd) = none ∧
      ∃ d, fs.status cwd dir = .ok (d, .directory) ∧ isGone d = false ∧ fs.Allows .search d ∧
        fs.Allows .create (d ++ [fs.freeName d]) ∧
        l = d ++ [fs.freeName d] ∧ fs' = fs.put l (.file ByteArray.empty privateMode) := by
  rw [createTemporary]
  split
  · rename_i hgone
    refine iff_of_false (fun h => nomatch h) fun h => ?_
    rcases h.1 with h | h <;> simp [h] at hgone
  · rename_i hgone
    have hplace : isGone cwd = false ∨ dir.isAbsolute = true := by
      cases h : isGone cwd with
      | false => exact Or.inl rfl
      | true => simpa [h] using hgone
    simp only [hplace, true_and]
    constructor
    · intro h
      obtain ⟨start, hstart, hmade⟩ := exists_of_bind_eq_ok (eq_ok_of_mapError h)
      split at hmade
      · cases hmade
      · rename_i habove
        obtain ⟨⟨d, node⟩, hd, hmade⟩ := exists_of_bind_eq_ok hmade
        refine ⟨(origin_eq_ok_iff.1 hstart).1, habove, d, ?_⟩
        rw [createIn, hd] at hmade
        cases node with
        | directory =>
          dsimp only at hmade
          split at hmade
          · cases hmade
          · rename_i hfree
            split at hmade
            · rename_i hsearch hcreate
              cases hmade
              exact ⟨hd, by simpa using hfree, hsearch, hcreate, rfl, rfl⟩
            · cases hmade
            · cases hmade
        | file _ _ => cases hmade
        | link _ => cases hmade
    · rintro ⟨hp, habove, d, hd, hgone, hsearch, hcreate, rfl, rfl⟩
      rw [origin_of_usable hp]
      simp only [habove, hd, createIn, hgone, hsearch, hcreate, bind, Except.bind]
      rfl

/-- The directory of a path that goes to a name is the one that the name is looked up in. -/
theorem Reaches.enters_directoryOf (h : fs.Reaches cwd p k d s) :
    fs.Enters ((directoryOf p).base cwd) (Path.names (directoryOf p).chars) k d := by
  obtain ⟨hs, ds, hsteps, he⟩ := h
  have hnames : Path.names p.chars = ds.filter (· != ".") ++ [s] := by
    rw [← Path.filter_steps, hsteps, List.filter_append]
    simp [hs.not_dot]
  obtain ⟨q, hq⟩ := Path.exists_parent (p := p) (by simp [hnames])
  rcases Path.parent_cases hq with ⟨-, hnil⟩ | ⟨⟨s', hs'⟩, -, hroot⟩
  · simp [hnames] at hnil
  · have hds := (List.append_inj' (hnames.symm.trans hs') rfl).1
    have hdir : Path.names (directoryOf p).chars = Path.names q.chars ∧
        (directoryOf p).isAbsolute = q.isAbsolute := by
      rw [directoryOf, hq]
      dsimp only
      split
      · rename_i hempty
        rw [Path.isEmpty, List.isEmpty_iff] at hempty
        rw [Path.isAbsolute, Path.isAbsolute, hempty]
        exact ⟨by decide, by decide⟩
      · exact ⟨rfl, rfl⟩
    rw [hdir.1, ← hds, Path.base, hdir.2, hroot]
    exact Walks.filter_iff.1 he

theorem usable_directoryOf (hp : p.Usable) : (directoryOf p).Usable := by
  have hdot : (Path.mk ".").Usable := by decide
  rw [directoryOf]
  split
  · rename_i q hq
    split
    · exact hdot
    · rename_i hne
      rcases Path.parent_cases hq with ⟨hnil, -⟩ | ⟨-, hpre, -⟩
      · simp [Path.isEmpty, hnil] at hne
      · exact hp.of_prefix hpre (by simpa using hne)
  · exact hdot

theorem Reaches.status_directoryOf (h : fs.Reaches cwd p k d s) (hp : p.Usable)
    (hk : k ≤ linkLimit) (hd : fs.node? d = some .directory) :
    fs.status cwd (directoryOf p) = .ok (d, .directory) := by
  have henters := h.enters_directoryOf
  rw [← Path.filter_steps, ← Walks.filter_iff] at henters
  have hlocate := locate_eq_ok_iff.2 ⟨usable_directoryOf hp, k, hk, henters.of_enters⟩
  rw [status, hlocate]
  exact at?_eq_ok_iff.2 ⟨rfl, Or.inl hd⟩

theorem parentAndName_iff_reaches :
    fs.parentAndName cwd p = .ok (some (d, s)) ∧ p.endsWithSlash = false ↔
      p.Usable ∧ fs.node? d = some .directory ∧ ∃ k, k ≤ linkLimit ∧ fs.Reaches cwd p k d s := by
  rw [parentAndName_eq_some_iff]
  constructor
  · rintro ⟨⟨hp, hd, ds, k, hsteps, hs, hk, he⟩, hslash⟩
    rw [Path.withoutSlash_of_endsWithSlash hslash] at hsteps
    exact ⟨hp, hd, k, hk, hs, ds, hsteps, he⟩
  · rintro ⟨hp, hd, k, hk, hs, ds, hsteps, he⟩
    have hslash := (Path.words_of_steps hsteps hs.not_dot).2
    refine ⟨⟨hp, hd, ds, k, ?_, hs, hk, he⟩, hslash⟩
    rwa [Path.withoutSlash_of_endsWithSlash hslash]

theorem renameFile_eq_ok_iff : fs.renameFile cwd l target = .ok fs' ↔
    ∃ d s, (fs.parentAndName cwd target = .ok (some (d, s)) ∧ target.endsWithSlash = false) ∧
      fs.Allows .replace (d ++ [s]) ∧ fs.node? (d ++ [s]) ≠ some .directory ∧
        ∃ node, fs.node? l = some node ∧ fs' = (fs.drop l).put (d ++ [s]) node := by
  rw [renameFile]
  constructor
  · intro h
    split at h
    · cases h
    · obtain ⟨place, hplace, h⟩ := exists_of_bind_eq_ok h
      split at h
      · cases h
      · rename_i d s
        dsimp only at h
        split at h
        · cases h
        · rename_i hslash
          refine ⟨d, s, ⟨hplace, by simpa using hslash⟩, ?_⟩
          split at h
          · cases h
          · cases h
          · cases h
          · rename_i node hnode hreplace hdir
            cases h
            exact ⟨hreplace, hdir, node, hnode, rfl⟩
  · rintro ⟨d, s, ⟨hplace, hslash⟩, hreplace, hdir, node, hnode, rfl⟩
    have hend := (parentAndName_eq_some_iff.1 hplace).1.no_end
    rw [if_neg (by simpa using hend), hplace]
    change (if target.endsWithSlash = true then _ else _) = _
    rw [hslash, if_neg Bool.false_ne_true, hnode, hreplace]
    dsimp only [pure, Except.pure, bind, Except.bind]
    cases hplaced : fs.node? (d ++ [s]) with
    | none => rfl
    | some old =>
      cases old with
      | directory => exact absurd hplaced hdir
      | file _ _ => rfl
      | link _ => rfl

end Stages

section Extra

/-- A file system with one file more. -/
structure Extra (fs : FileSystem) (l : Location) (b : ByteArray) (mode : Nat) (fs' : FileSystem) :
    Prop where
  refused : fs'.refused = fs.refused
  free : fs.node? l = none
  node?_eq : ∀ m, fs'.node? m = if m = l then some (.file b mode) else fs.node? m

variable {b b' : ByteArray} {mode mode' : Nat}

theorem ne_nil_of_node? (h : fs.node? l = none) : l ≠ [] := by
  rintro rfl
  cases h

theorem extra_put (h : fs.node? l = none) (b : ByteArray) (mode : Nat) :
    fs.Extra l b mode (fs.put l (.file b mode)) := ⟨rfl, h, fun _ => node?_put (ne_nil_of_node? h)⟩

namespace Extra

theorem put (h : fs.Extra l b mode fs') (b' : ByteArray) (mode' : Nat) :
    fs.Extra l b' mode' (fs'.put l (.file b' mode')) := by
  refine ⟨h.refused, h.free, fun m => ?_⟩
  rw [node?_put (ne_nil_of_node? h.free), h.node?_eq]
  split <;> rfl

theorem drop (h : fs.Extra l b mode fs') : fs.SameAs (fs'.drop l) := by
  refine ⟨fun m => ?_, h.refused⟩
  rw [node?_drop (ne_nil_of_node? h.free), h.node?_eq]
  split
  · rename_i hm
    rw [hm, h.free]
  · rfl

theorem node?_of_ne_file (h : fs.Extra l b mode fs') {node : Node} (hnode : ∀ b m, node ≠ .file b m)
    (m : Location) : fs'.node? m = some node ↔ fs.node? m = some node := by
  rw [h.node?_eq]
  split
  · rename_i hm
    rw [hm, h.free]
    exact iff_of_false (fun heq => hnode _ _ (Option.some.inj heq).symm) (fun heq => nomatch heq)
  · exact Iff.rfl

theorem reaches_iff (h : fs.Extra l b mode fs') :
    fs'.Reaches cwd p k d s ↔ fs.Reaches cwd p k d s := by
  have hback : fs'.KeepsWays fs :=
    .of_refused h.refused.symm fun m _ hnode => (h.node?_of_ne_file hnode m).1
  have hways : fs.KeepsWays fs' :=
    .of_refused h.refused fun m _ hnode => (h.node?_of_ne_file hnode m).2
  exact ⟨fun hr => hr.of_kept hback, fun hr => hr.of_kept hways⟩

end Extra

/-- The file that a path names is what it leads to. -/
theorem status_of_reaches (h : fs.Reaches cwd p k d s) (hp : p.Usable) (hk : k ≤ linkLimit)
    (hnode : fs.node? (d ++ [s]) = some (.file b mode)) :
    fs.status cwd p = .ok (d ++ [s], .file b mode) :=
  (status_eq_ok_iff (by simp)).2
    ⟨hp, ⟨k, hk, h.leads_iff.2 ⟨0, leads_single_file h.1 hnode, rfl⟩⟩, hnode⟩

/-- The file that is to be replaced is found as before once there is a temporary file. -/
theorem Extra.status_eq (h : fs.Extra l b mode fs') (hr : fs.Reaches cwd p k d s) (hp : p.Usable)
    (hk : k ≤ linkLimit) (hnode : fs.node? (d ++ [s]) = some (.file b' mode')) :
    fs'.status cwd p = .ok (d ++ [s], .file b' mode') := by
  have hne : d ++ [s] ≠ l := by
    rintro rfl
    rw [h.free] at hnode
    cases hnode
  refine status_of_reaches (h.reaches_iff.2 hr) hp hk ?_
  rw [h.node?_eq, if_neg hne, hnode]

end Extra

section Filling

variable {b : ByteArray} {mode : Nat} {f : Failure}

/-- Getting a file to the disk changes nothing. -/
theorem flush_ok (h : fs.flush l p = (.ok (), fs')) : fs.Allows .flush l ∧ fs' = fs := by
  rw [flush] at h
  split at h
  · cases h
  · rename_i hflush
    cases h
    exact ⟨hflush, rfl⟩

theorem flush_error (h : fs.flush l p = (.error f, fs')) :
    fs' = fs ∧ ¬ fs.Allows .flush l := by
  rw [flush] at h
  split at h
  · rename_i hflush
    cases h
    exact ⟨rfl, by simp [hflush]⟩
  · cases h

/-- What was written into a temporary file and got to the disk has the mode of the file that it is
to replace. -/
theorem fill_ok (h : fs.fill cwd l p target contents = (.ok (), fs')) :
    fs.Allows .write l ∧ fs.Allows .flush l ∧
      ∃ mode, fs' = fs.put l (.file contents.toUTF8 mode) ∧ ∀ m b mode',
        fs.status cwd target = .ok (m, .file b mode') → mode = mode' ∧ fs.Allows .setMode l := by
  rw [fill] at h
  split at h
  · cases h
  · rename_i hwrite
    refine ⟨hwrite, ?_⟩
    dsimp only at h
    split at h
    · rename_i hstatus
      obtain ⟨hflush, rfl⟩ := flush_ok h
      exact ⟨hflush, _, rfl, fun m b mode' hok => by rw [hstatus] at hok; cases hok⟩
    · cases h
    · rename_i m b mode' hstatus hmode
      obtain ⟨hflush, rfl⟩ := flush_ok h
      refine ⟨hflush, _, rfl, fun m' b' mode'' hok => ?_⟩
      rw [hstatus] at hok
      cases hok
      exact ⟨rfl, hmode⟩
    · rename_i found hother hstatus hmode
      obtain ⟨hflush, rfl⟩ := flush_ok h
      refine ⟨hflush, _, rfl, fun m' b' mode'' hok => ?_⟩
      rw [hstatus] at hok
      cases hok
      exact absurd rfl (hother _ _ _)

/-- A temporary file is filled unless something is refused, and is all that is touched. -/
theorem fill_error (h : fs.fill cwd l p target contents = (.error f, fs')) :
    (fs' = fs ∨ ∃ mode, fs' = fs.put l (.file contents.toUTF8 mode)) ∧
      ¬(fs.Allows .write l ∧ fs.Allows .flush l ∧ fs.Allows .setMode l) := by
  rw [fill] at h
  split at h
  · rename_i r hr
    cases h
    refine ⟨.inl rfl, fun hall => ?_⟩
    rw [hall.1] at hr
    cases hr
  · dsimp only at h
    split at h
    · obtain ⟨rfl, hflush⟩ := flush_error h
      exact ⟨.inr ⟨_, rfl⟩, fun hall => hflush hall.2.1⟩
    · rename_i r _ hr
      cases h
      refine ⟨.inr ⟨_, rfl⟩, fun hall => ?_⟩
      rw [hall.2.2] at hr
      cases hr
    · obtain ⟨rfl, hflush⟩ := flush_error h
      exact ⟨.inr ⟨_, rfl⟩, fun hall => hflush hall.2.1⟩
    · obtain ⟨rfl, hflush⟩ := flush_error h
      exact ⟨.inr ⟨_, rfl⟩, fun hall => hflush hall.2.1⟩

/-- What there is once a temporary file was discarded: what there was without it, or the file too
if it was refused to take it away. -/
inductive Leaves (fs fs' : FileSystem) : Prop
  | clean (h : fs.SameAs fs') : Leaves fs fs'
  | temporary (d : Location) (b : ByteArray) (mode : Nat) (hd : fs.node? d = some .directory)
      (h : fs.Extra (d ++ [fs.freeName d]) b mode fs')
      (hr : ¬ fs.Allows .remove (d ++ [fs.freeName d])) : Leaves fs fs'

theorem Extra.leaves (h : fs.Extra (d ++ [fs.freeName d]) b mode fs')
    (hd : fs.node? d = some .directory) : fs.Leaves (fs'.discard (d ++ [fs.freeName d])) := by
  rw [discard, remove, h.refused]
  split
  · rename_i r hr
    exact .temporary d b mode hd h (by simp [hr])
  · exact .clean h.drop

theorem Leaves.refused (h : fs.Leaves fs') : fs'.refused = fs.refused := by
  cases h with
  | clean h => exact h.refused
  | temporary _ _ _ _ h => exact h.refused

theorem Leaves.kept (h : fs.Leaves fs') {node : Node} (hl : fs.node? place = some node) :
    fs'.node? place = some node := by
  cases h with
  | clean h => exact (h.node place).trans hl
  | temporary d _ _ _ h =>
    rw [h.node?_eq, if_neg, hl]
    rintro rfl
    rw [h.free] at hl
    cases hl

theorem freeName_ne_empty (fs : FileSystem) (d : Location) : fs.freeName d ≠ "" := by
  intro h
  rw [freeName, temporaryName, ← String.toList_inj, String.toList_append,
    String.toList_empty, List.append_eq_nil_iff] at h
  exact absurd h.1 (by decide)

theorem WellFormed.leaves (hfs : fs.WellFormed) (h : fs.Leaves fs') : fs'.WellFormed := by
  cases h with
  | clean h => exact hfs.of_same h
  | temporary d b mode hd h =>
    refine hfs.of_set hd (fs.freeName_ne_empty d) (by simp [h.free])
      ((h.node?_eq _).trans (if_pos rfl)) (by simp) fun l hl => ?_
    rw [h.node?_eq, if_neg hl]

end Filling

section Replacing

/-- What is written over a file costs no directory and no link. -/
theorem Written.keepsWays {b : ByteArray} {mode : Nat} (h : fs.Written place contents fs')
    (hplace : fs.node? place = some (.file b mode)) : fs.KeepsWays fs' := by
  refine .of_refused h.refused fun l node hnode hl => ?_
  rw [h.others l, hl]
  rintro rfl
  rw [hplace] at hl
  exact hnode b mode (Option.some.inj hl).symm

/-- Where the temporary file is made whose contents are to go to a place. -/
def temporaryPlace (fs : FileSystem) (place : Location) : Location :=
  place.dropLast ++ [fs.freeName place.dropLast]

/-- Nothing keeps the user from making a file beside a place, by way of a directory's path, and from
putting it there. -/
structure Accepts (fs : FileSystem) (cwd : Location) (dir : Path) (place : Location) : Prop where
  above : fs.barred (if dir.isAbsolute then [] else cwd) = none
  create : fs.Allows .create (fs.temporaryPlace place)
  write : fs.Allows .write (fs.temporaryPlace place)
  flush : fs.Allows .flush (fs.temporaryPlace place)
  replace : fs.Allows .replace place

/-- What it takes to put a file in the place of what a path names, once its directory is made. -/
structure Receives (fs : FileSystem) (cwd : Location) (target : Path) (d : Location) (s : String) :
    Prop where
  named : target.Usable ∧ fs.node? d = some .directory ∧
    ∃ k, k ≤ linkLimit ∧ fs.Reaches cwd target k d s
  free : fs.node? (d ++ [s]) ≠ some .directory
  seat : isGone cwd = false ∨ (directoryOf target).isAbsolute = true
  temporary : (temporaryPath cwd (directoryOf target)).Usable
  gone : isGone d = false
  accepts : fs.Accepts cwd (directoryOf target) (d ++ [s])

theorem temporaryPlace_concat (fs : FileSystem) (d : Location) (s : String) :
    fs.temporaryPlace (d ++ [s]) = d ++ [fs.freeName d] := by
  rw [temporaryPlace, List.dropLast_concat]

/-- Where a file is received, a temporary one can be made. -/
theorem Receives.createTemporary_eq (h : fs.Receives cwd target d s) :
    fs.createTemporary cwd (directoryOf target) = .ok (fs.temporaryPlace (d ++ [s]),
      fs.put (fs.temporaryPlace (d ++ [s])) (.file ByteArray.empty privateMode)) := by
  obtain ⟨hp, hd, k, hk, hr⟩ := h.named
  have hcreate := h.accepts.create
  rw [temporaryPlace_concat] at hcreate ⊢
  exact createTemporary_eq_ok_iff.2 ⟨h.seat, h.temporary, h.accepts.above, d,
    hr.status_directoryOf hp hk hd, h.gone, hr.1.search, hcreate, rfl, rfl⟩

theorem Receives.temporaryPlace_eq (h : fs.Receives cwd target d s)
    (htemp : fs.createTemporary cwd (directoryOf target) = .ok (l, fs')) :
    fs.temporaryPlace (d ++ [s]) = l := by
  have hok := h.createTemporary_eq
  rw [htemp] at hok
  exact (congrArg Prod.fst (Except.ok.inj hok)).symm

/-- What there is once a temporary file was made: the directory by whose path it was made, and the
file in it. -/
structure Temporary (fs : FileSystem) (cwd : Location) (dir : Path) (d : Location)
    (fs' : FileSystem) : Prop where
  seat : isGone cwd = false ∨ dir.isAbsolute = true
  path : (temporaryPath cwd dir).Usable
  above : fs.barred (if dir.isAbsolute then [] else cwd) = none
  status : fs.status cwd dir = .ok (d, .directory)
  there : fs.node? d = some .directory
  gone : isGone d = false
  create : fs.Allows .create (d ++ [fs.freeName d])
  extra : fs.Extra (d ++ [fs.freeName d]) ByteArray.empty privateMode fs'

theorem temporary_of_createTemporary (h : fs.createTemporary cwd dir = .ok (l, fs')) :
    ∃ d, l = d ++ [fs.freeName d] ∧ fs.Temporary cwd dir d fs' := by
  obtain ⟨hseat, hpath, habove, d, hd, hgone, -, hcreate, rfl, rfl⟩ :=
    createTemporary_eq_ok_iff.1 h
  refine ⟨d, rfl, hseat, hpath, habove, hd, ?_, hgone, hcreate,
    extra_put (node?_freeName fs d) ByteArray.empty privateMode⟩
  obtain ⟨m, -, hat⟩ := exists_of_bind_eq_ok hd
  obtain ⟨rfl, hdir | ⟨-, hlast, -⟩⟩ := at?_eq_ok_iff.1 hat
  · exact hdir
  · obtain ⟨a, rfl⟩ := List.getLast?_eq_some_iff.1 hlast
    simp [isGone] at hgone

namespace Temporary

variable {b : ByteArray} {mode : Nat} {f : Failure}

/-- Giving a temporary file up after it could not be filled. -/
theorem leaves_of_fill_error (h : fs.Temporary cwd dir d fs₁)
    (hfill : fs₁.fill cwd (d ++ [fs.freeName d]) p target contents = (.error f, fs')) :
    fs.Leaves (fs'.discard (d ++ [fs.freeName d])) := by
  rcases (fill_error hfill).1 with rfl | ⟨mode, rfl⟩
  · exact h.extra.leaves h.there
  · exact (h.extra.put _ _).leaves h.there

/-- The temporary file stands in the directory that the target is looked up in, so moving it there
writes what is in it. -/
theorem written_of_renameFile (h : fs.Temporary cwd (directoryOf target) d fs₁)
    (hx : fs.Extra (d ++ [fs.freeName d]) contents.toUTF8 mode fs₂)
    (hmode : ∀ m b mode', fs₁.status cwd target = .ok (m, .file b mode') → mode = mode')
    (hrename : fs₂.renameFile cwd (d ++ [fs.freeName d]) target = .ok fs') :
    ∃ s, fs.node? (d ++ [s]) ≠ some .directory ∧ fs.Allows .replace (d ++ [s]) ∧
      (target.Usable ∧ fs.node? d = some .directory ∧
        ∃ k, k ≤ linkLimit ∧ fs.Reaches cwd target k d s) ∧
      fs.Written (d ++ [s]) contents fs' := by
  have hdirectory (m : Location) :
      fs₂.node? m = some .directory ↔ fs.node? m = some .directory :=
    hx.node?_of_ne_file (fun _ _ => by simp) m
  obtain ⟨e, s, hplace, hreplace, hfree, node, hnode, rfl⟩ := renameFile_eq_ok_iff.1 hrename
  obtain ⟨hp, he, k, hk, hr⟩ := parentAndName_iff_reaches.1 hplace
  have hr := hx.reaches_iff.1 hr
  have he := (hdirectory e).1 he
  obtain rfl : e = d := by
    have hstatus := hr.status_directoryOf hp hk he
    rw [h.status] at hstatus
    cases hstatus
    rfl
  rw [hx.node?_eq, if_pos rfl] at hnode
  obtain rfl := Option.some.inj hnode
  rw [Allows, hx.refused] at hreplace
  refine ⟨s, fun hd => hfree ((hdirectory _).2 hd), hreplace, ⟨hp, he, k, hk, hr⟩, hx.refused,
    ⟨mode, ?_, fun b mode' hplaced => ?_⟩, fun m hm => ?_⟩
  · exact (node?_put (by simp)).trans (if_pos rfl)
  · exact hmode _ _ _ (h.extra.status_eq hr hp hk hplaced)
  · exact (node?_put (by simp)).trans ((if_neg hm).trans (hx.drop.node m))

end Temporary

/-- Where a file is received, a temporary one can be filled if its mode may be set. -/
theorem Receives.not_fill_error {f : Failure} (h : fs.Receives cwd target d s)
    (hmode : fs.Allows .setMode (fs.temporaryPlace (d ++ [s]))) (hsame : fs₁.refused = fs.refused) :
    fs₁.fill cwd (fs.temporaryPlace (d ++ [s])) p target contents ≠ (.error f, fs') := by
  intro hfill
  refine (fill_error hfill).2 ?_
  simp only [Allows, hsame]
  exact ⟨h.accepts.write, h.accepts.flush, hmode⟩

/-- Where a file is received, another one can be moved. -/
theorem Receives.exists_renameFile {b : ByteArray} {mode : Nat} (h : fs.Receives cwd target d s)
    (hx : fs.Extra l b mode fs') : ∃ fs'', fs'.renameFile cwd l target = .ok fs'' := by
  obtain ⟨hp, hd, k, hk, hr⟩ := h.named
  have hdirectory (m : Location) :
      fs'.node? m = some .directory ↔ fs.node? m = some .directory :=
    hx.node?_of_ne_file (fun _ _ => by simp) m
  have hplace := parentAndName_iff_reaches.2 ⟨hp, (hdirectory d).2 hd, k, hk, hx.reaches_iff.2 hr⟩
  have hreplace : fs'.Allows .replace (d ++ [s]) := by
    rw [Allows, hx.refused]
    exact h.accepts.replace
  have hfile : fs'.node? l = some (.file b mode) := (hx.node?_eq l).trans (if_pos rfl)
  exact ⟨_, renameFile_eq_ok_iff.2
    ⟨d, s, hplace, hreplace, fun hd => h.free ((hdirectory _).1 hd), _, hfile, rfl⟩⟩

/-- Either the target receives the contents, and nothing else is changed once the directories are
made, or nothing is changed by then but for a temporary file that was not taken away. The mode of a
file that is replaced has to be copied. -/
theorem replace_cases {r : Except Failure Unit} (htarget : fs.endOfLinks cwd p = .ok target)
    (hmake : fs.ensureDirectory cwd (directoryOf target) = (r, fs₁)) (contents : String) :
    (r = .ok () ∧ (fs.replace cwd p contents).1 = .ok () ∧ ∃ d s, fs₁.Receives cwd target d s ∧
      fs₁.Written (d ++ [s]) contents (fs.replace cwd p contents).2 ∧
      ∀ b mode, fs₁.node? (d ++ [s]) = some (.file b mode) →
        fs₁.Allows .setMode (fs₁.temporaryPlace (d ++ [s]))) ∨
    ((∃ f, (fs.replace cwd p contents).1 = .error f) ∧ fs₁.Leaves (fs.replace cwd p contents).2 ∧
      (r = .ok () → ∀ d s, fs₁.Receives cwd target d s →
        ¬ fs₁.Allows .setMode (fs₁.temporaryPlace (d ++ [s])))) := by
  rw [replace, htarget]
  dsimp only
  rw [hmake]
  cases r with
  | error f => exact Or.inr ⟨⟨f, rfl⟩, .clean (.refl fs₁), nofun⟩
  | ok _ =>
    dsimp only
    cases hcreate : fs₁.createTemporary cwd (directoryOf target) with
    | error c =>
      refine Or.inr ⟨⟨_, rfl⟩, .clean (.refl fs₁), fun _ d s h => ?_⟩
      have hok := h.createTemporary_eq
      rw [hcreate] at hok
      cases hok
    | ok made =>
      obtain ⟨l, fs₂⟩ := made
      obtain ⟨e, rfl, htemp⟩ := temporary_of_createTemporary hcreate
      dsimp only
      rcases hfill : fs₂.fill cwd (e ++ [fs₁.freeName e]) p target contents with ⟨f | _, fs₃⟩
      · refine Or.inr ⟨⟨_, rfl⟩, htemp.leaves_of_fill_error hfill, fun _ d s h hmode => ?_⟩
        rw [← h.temporaryPlace_eq hcreate] at hfill
        exact h.not_fill_error hmode htemp.extra.refused hfill
      · obtain ⟨hwrite, hflush, mode, rfl, hmode⟩ := fill_ok hfill
        simp only [Allows, htemp.extra.refused] at hwrite hflush hmode
        have hextra := htemp.extra.put contents.toUTF8 mode
        dsimp only
        cases hrename : (fs₂.put (e ++ [fs₁.freeName e]) (.file contents.toUTF8 mode)).renameFile
            cwd (e ++ [fs₁.freeName e]) target with
        | error c =>
          refine Or.inr ⟨⟨_, rfl⟩, hextra.leaves htemp.there, fun _ d s h => ?_⟩
          obtain ⟨fs₄, hok⟩ := h.exists_renameFile hextra
          rw [hrename] at hok
          cases hok
        | ok fs₄ =>
          obtain ⟨s, hfree, hreplace, hnamed, hwritten⟩ := htemp.written_of_renameFile hextra
            (fun m b mode' h => (hmode m b mode' h).1) hrename
          have haccepts : fs₁.Accepts cwd (directoryOf target) (e ++ [s]) := by
            refine ⟨htemp.above, ?_, ?_, ?_, hreplace⟩
            all_goals rw [temporaryPlace_concat]
            exacts [htemp.create, hwrite, hflush]
          have hreceives : fs₁.Receives cwd target e s :=
            ⟨hnamed, hfree, htemp.seat, htemp.path, htemp.gone, haccepts⟩
          refine Or.inl ⟨rfl, rfl, e, s, hreceives, hwritten, fun b mode' hplaced => ?_⟩
          obtain ⟨hp, -, k, hk, hr⟩ := hnamed
          rw [temporaryPlace_concat]
          exact (hmode _ _ _ (htemp.extra.status_eq hr hp hk hplaced)).2

end Replacing

end ConanPipeline.FileSystem
