import ConanPipeline.Proofs.FileSystem.Directories
import ConanPipeline.Proofs.FileSystem.Emptying

/-! Taking a tree away by its path. Nothing goes but what is at the tree's place or below it. If
all goes well nothing is left below the place (`Pruned`), and the path leads nowhere afterwards, not
even for somebody who was in the tree (`removeIfPresent_ok`). If not, part of the tree may be gone,
but only when something in it is refused (`Unhindered.removeIfPresent_error`). -/

namespace ConanPipeline.FileSystem

/-- Nothing is left below a place, what is at the place is left or gone, and all else is as it
was. -/
structure Pruned (fs : FileSystem) (top : Location) (fs' : FileSystem) : Prop
    extends Thinned fs top fs' where
  below : ∀ l, top <+: l → top ≠ l → fs'.node? l = none

/-- Nothing that taking a tree away asks for is refused, and nobody is kept from leaving a directory
that is gone. -/
structure Unhindered (fs : FileSystem) (top : Location) : Prop extends Removable fs top where
  gone : ∀ l, isGone l = true → fs.Allows .search l

/-- Where somebody is who was in a directory: still there, or where a name once was that is gone. -/
inductive Sits : Location → Location → Prop
  | same (l : Location) : Sits l l
  | gone {l' l : Location} {s : String} (h : Sits l' l) : Sits (l' ++ [""]) (l ++ [s])

variable {fs fs' : FileSystem} {cwd top l l' d e : Location} {s : String} {xs ds : List String}
variable {n k : Nat} {p : Path} {node : Node}

section Seats

namespace Sits

theorem append_gone (h : Sits l' l) (x : Location) : Sits (l' ++ x.map fun _ => "") (l ++ x) := by
  induction x generalizing l' l with
  | nil => simpa using h
  | cons s x ih =>
    have hrest := ih (h.gone (s := s))
    rwa [List.append_assoc, List.append_assoc] at hrest

theorem dropLast (h : Sits l' l) : Sits l'.dropLast l.dropLast := by
  cases h with
  | same => exact .same _
  | gone h => rwa [List.dropLast_concat, List.dropLast_concat]

theorem eq_or_isGone (h : Sits l' l) : l' = l ∨ isGone l' = true := by
  cases h with
  | same => exact .inl rfl
  | gone => exact .inr (by simp [isGone])

/-- Only who is still there finds something. -/
theorem eq_of_node? (h : Sits l' l) (hgone : ∀ m, isGone m = true → fs.node? m = none)
    (hnode : fs.node? (l' ++ [s]) ≠ none) : l' = l :=
  h.eq_or_isGone.resolve_right fun hl => hnode (hgone _ (by
    have hmem : "" ∈ l' := by simpa [isGone] using hl
    simp [isGone, hmem]))

/-- The steps that led somewhere from a directory lead, from where somebody is then who was in it,
to where somebody is who was there. -/
theorem enters (h : Sits l' l) (hkept : ∀ m node, fs'.node? m = some node → fs.node? m = some node)
    (hgone : ∀ m, isGone m = true → fs'.node? m = none) (he : fs'.Enters l' xs n e)
    (hd : fs.Enters l xs k d) : Sits e d := by
  induction he generalizing l k with
  | here =>
    cases hd
    exact h
  | dot _ ih => exact ih h (Walks.enters_of_dot hd)
  | up _ _ ih => exact ih h.dropLast (Walks.enters_of_up hd)
  | down hs hnode _ ih =>
    obtain rfl := h.eq_of_node? hgone (by rw [hnode]; exact nofun)
    have hnode' := hkept _ _ hnode
    cases hd with
    | dot => exact absurd rfl hs.not_dot
    | up => exact absurd rfl hs.not_up
    | down _ _ hd => exact ih (.same _) hd
    | stop _ hend => cases hend
    | follow _ hl =>
      rw [hnode'] at hl
      cases hl
  | stop _ hend => cases hend
  | follow hs hnode _ _ _ _ ih =>
    obtain rfl := h.eq_of_node? hgone (by rw [hnode]; exact nofun)
    have hnode' := hkept _ _ hnode
    cases hd with
    | dot => exact absurd rfl hs.not_dot
    | up => exact absurd rfl hs.not_up
    | down _ hdir =>
      rw [hnode'] at hdir
      cases hdir
    | stop _ hend => cases hend
    | follow _ hl _ _ _ hd =>
      rw [hnode'] at hl
      cases hl
      exact ih (.same _) hd

end Sits

theorem sits_seatWithin (fs : FileSystem) (above l : Location) :
    Sits (above ++ fs.seatWithin above l) (above ++ l) := by
  induction l generalizing above with
  | nil => exact .same _
  | cons s l ih =>
    rw [seatWithin]
    split
    · have hrest := ih (above ++ [s])
      rwa [List.append_assoc, List.append_assoc] at hrest
    · exact (Sits.same above).append_gone (s :: l)

theorem sits_seat (fs : FileSystem) (l : Location) : Sits (fs.seat l) l := fs.sits_seatWithin [] l

theorem sits_base (fs : FileSystem) (p : Path) (cwd : Location) :
    Sits (p.base (fs.seat cwd)) (p.base cwd) := by
  rw [Path.base, Path.base]
  split
  · exact .same []
  · exact fs.sits_seat cwd

end Seats

section Pruning

namespace Thinned

/-- From where somebody is who was in a directory, steps lead where they led from there, or break
off. -/
theorem enters_or_breaks (h : fs.Thinned top fs') (hfs : fs.WellFormed)
    (hx : ∀ l, isGone l = true → fs.Allows .search l) (hsits : Sits l' l)
    (hxs : ∀ x ∈ xs, x ≠ "") (he : fs.Enters l xs n d) :
    (∃ e, fs'.Enters l' xs n e ∧ Sits e d) ∨ ∃ k, k ≤ n ∧ fs'.Breaks l' xs k := by
  -- who is in a directory that is gone finds nothing there
  have hmissing {l' l : Location} (hsits : Sits l' l) (s : String) :
      fs'.node? (l' ++ [s]) = none ∨ l' = l ∧ fs'.node? (l ++ [s]) = fs.node? (l ++ [s]) := by
    rcases hsits.eq_or_isGone with rfl | hgone
    · exact (h.none_or_same _).imp_right fun hsame => ⟨rfl, hsame⟩
    · have hmem : "" ∈ l' := by simpa [isGone] using hgone
      exact .inl (h.isGone_eq_none hfs _ (by simp [isGone, hmem]))
  have hsearch {l' l : Location} (hsits : Sits l' l) (hl : fs.Allows .search l) :
      fs'.Allows .search l' := by
    rw [Allows, h.refused]
    exact hsits.eq_or_isGone.elim (fun heq => heq ▸ hl) (hx l')
  have hstep {l' l : Location} {s : String} (hsits : Sits l' l) (hs : fs.IsStep l s) :
      fs'.IsStep l' s := ⟨hs.toIsName, hsearch hsits hs.search⟩
  induction he generalizing l' with
  | here l => exact .inl ⟨l', .here l', hsits⟩
  | dot _ ih =>
    rcases ih hsits (List.forall_mem_cons.1 hxs).2 with ⟨e, he, hed⟩ | ⟨k, hk, hb⟩
    · exact .inl ⟨e, .dot he, hed⟩
    · exact .inr ⟨k, hk, .dot hb⟩
  | up hup _ ih =>
    have hup' := hsearch hsits hup
    rcases ih hsits.dropLast (List.forall_mem_cons.1 hxs).2 with ⟨e, he, hed⟩ | ⟨k, hk, hb⟩
    · exact .inl ⟨e, .up hup' he, hed⟩
    · exact .inr ⟨k, hk, .up hup' hb⟩
  | @down l s _ _ _ hs hd _ ih =>
    rw [List.forall_mem_cons] at hxs
    have hs' := hstep hsits hs
    rcases hmissing hsits s with hnone | ⟨rfl, hsame⟩
    · exact .inr ⟨0, Nat.zero_le _, .missing hs' hxs.1 hnone⟩
    · rcases ih (.same _) hxs.2 with ⟨e, he, hed⟩ | ⟨k, hk, hb⟩
      · exact .inl ⟨e, .down hs' (hsame.trans hd) he, hed⟩
      · exact .inr ⟨k, hk, .down hs' (hsame.trans hd) hb⟩
  | stop _ he => cases he
  | @follow l s t rest _ _ hs hl hread hr ht _ ih =>
    rw [List.forall_mem_cons] at hxs
    have hs' := hstep hsits hs
    have hsteps : ∀ x ∈ t.steps ++ rest, x ≠ "" := fun x hx =>
      (List.mem_append.1 hx).elim Path.ne_empty_of_mem_steps (hxs.2 x)
    rcases hmissing hsits s with hnone | ⟨rfl, hsame⟩
    · exact .inr ⟨0, Nat.zero_le _, .missing hs' hxs.1 hnone⟩
    · have hread' : fs'.Allows .read (l' ++ [s]) := by
        rw [Allows, h.refused]
        exact hread
      rcases ih (.same _) hsteps with ⟨e, he, hed⟩ | ⟨k, hk, hb⟩
      · exact .inl ⟨e, .follow hs' (hsame.trans hl) hread' hr ht he, hed⟩
      · exact .inr ⟨k + 1, Nat.succ_le_succ hk, .follow hs' (hsame.trans hl) hread' ht hb⟩

end Thinned

theorem Pruned.drop (h : fs.Pruned top fs') (hne : top ≠ []) : fs.Pruned top (fs'.drop top) where
  toThinned := h.toThinned.trans (thinned_drop hne h.below)
  below l hl htop := by rw [node?_drop hne, if_neg (Ne.symm htop), h.below l hl htop]

theorem WellFormed.pruned_self (hfs : fs.WellFormed) (htop : fs.node? top ≠ some .directory) :
    fs.Pruned top fs where
  toThinned := .refl fs top
  below _ hl hne := hfs.node?_below htop hl hne

/-- A directory that was emptied holds nothing. -/
theorem Empties.pruned {r : Changed Unit} (h : fs.Empties top r) (hr : r.1 = .ok ()) :
    fs.Pruned top r.2 := ⟨h.toThinned, h.below hr⟩

end Pruning

section Removing

/-- What a path names whose last step is a name stands in a directory, under that name. -/
theorem place_of_linkStatus (hp : p.steps = ds ++ [s]) (hs : IsName s)
    (h : fs.linkStatus cwd p = .ok (l, node)) : p.Usable ∧ fs.node? l = some node ∧
      ∃ d k, l = d ++ [s] ∧ k ≤ linkLimit ∧ fs.Enters (p.base cwd) ds k d ∧ fs.IsStep d s := by
  have hne : s ≠ "" := Path.ne_empty_of_mem_steps (hp ▸ List.mem_append_right ds (by simp))
  obtain ⟨m, hm, hat⟩ := exists_of_bind_eq_ok h
  obtain ⟨hu, k, hk, hleads⟩ := locate_eq_ok_iff.1 hm
  obtain ⟨rfl, hnode⟩ := at?_eq_ok_iff.1 hat
  rw [hp] at hleads
  obtain ⟨d, j, i, hd, hlast, rfl⟩ := hleads.split fun hnil => nomatch hnil
  rcases hlast.single_cases with
    ⟨hdot, -⟩ | ⟨hup, -⟩ | ⟨hstep, rfl, rfl, -⟩ | ⟨t, _, -, -, -, hend, -⟩
  · exact absurd hdot hs.not_dot
  · exact absurd hup hs.not_up
  · refine ⟨hu, ?_, d, j, rfl, hk, hd, hstep⟩
    rcases hnode with hnode | ⟨-, hlast, -⟩
    · exact hnode
    · rw [List.getLast?_concat, Option.some.injEq] at hlast
      exact absurd hlast hne
  · cases hend

/-- A path leads nowhere if its last name is missing wherever the steps before it lead. -/
theorem present_eq_false (hp : Path.words p.chars = ds ++ [s]) (hdot : s ≠ ".") (hup : s ≠ "..")
    (h : ∀ d k, fs.Enters (p.base cwd) ds k d → fs.node? (d ++ [s]) = none) :
    fs.present cwd p = false := by
  have hne : s ≠ "" := by
    rw [← Path.steps_withoutSlash] at hp
    exact Path.ne_empty_of_mem_steps (hp ▸ List.mem_append_right ds (List.mem_singleton.2 rfl))
  rw [present]
  cases hstatus : fs.status cwd p with
  | error e => rfl
  | ok found =>
    obtain ⟨m, node⟩ := found
    obtain ⟨m, hm, hat⟩ := exists_of_bind_eq_ok hstatus
    obtain ⟨-, k, -, hleads⟩ := locate_eq_ok_iff.1 hm
    obtain ⟨dots, hsteps⟩ : ∃ dots, p.steps = ds ++ ([s] ++ dots) :=
      ⟨_, by rw [Path.steps_eq, hp, List.append_assoc]⟩
    rw [hsteps] at hleads
    obtain ⟨d, j, i, hd, hlast, -⟩ := hleads.split fun hnil => nomatch hnil
    have hnone := h d j hd
    cases hlast with
    | dot => exact absurd rfl hdot
    | up => exact absurd rfl hup
    | down _ hdir => rw [hnone] at hdir; cases hdir
    | stop => rw [at?, hnone] at hat; simp [hne] at hat
    | follow _ hlink => rw [hnone] at hlink; cases hlink

/-- A last step that is a name is looked up where the steps before it lead. -/
theorem parentAndName_of_name (hu : p.Usable) (hp : p.steps = ds ++ [s]) (hs : IsName s) :
    fs.parentAndName cwd p = fs.walk true linkLimit (p.base cwd) ds >>= fun dir =>
      match fs.node? dir with
      | none => .error .noEntry
      | some .directory =>
        match fs.refused .search dir with
        | some r => .error r.errno
        | none => .ok (some (dir, s))
      | some _ => .error .notDirectory := by
  have hdots : (decide (s = ".") || decide (s = "..")) = false := by simp [hs.not_dot, hs.not_up]
  rw [parentAndName, origin_of_usable hu,
    Path.withoutSlash_of_endsWithSlash (Path.words_of_steps hp hs.not_dot).2]
  dsimp only [bind, Except.bind]
  rw [hp, List.getLast?_concat, List.dropLast_concat]
  cases fs.walk true linkLimit (p.base cwd) ds with
  | error e => rfl
  | ok dir =>
    dsimp only
    rw [hdots, Bool.and_false, if_neg Bool.false_ne_true, if_neg Bool.false_ne_true,
      if_neg (Nat.not_lt.2 hs.short)]
    rfl

/-- If the place that the last name of a path is looked up in is missing, the path leads nowhere. -/
theorem present_of_parentAndName_error (hfs : fs.WellFormed) (hcwd : fs.IsSeat cwd)
    (h : fs.parentAndName cwd p = .error .noEntry) : fs.present cwd p = false := by
  cases hempty : p.isEmpty with
  | true =>
    have horigin (l : Location) : origin cwd p ≠ .ok l := fun hl => by
      have hne := (origin_eq_ok_iff.1 hl).1.not_empty
      rw [hempty] at hne
      cases hne
    rw [present, status, locate]
    cases horig : origin cwd p with
    | error e => rfl
    | ok l => exact absurd horig (horigin l)
  | false =>
    obtain ⟨hu, ds, s, hds, hdots⟩ := walk_of_parentAndName h hempty
    have hwords : Path.words p.chars = ds ++ [s] := (Path.steps_withoutSlash p).symm.trans hds
    have hne : ∀ x ∈ ds, x ≠ "" := fun x hx =>
      Path.ne_empty_of_mem_steps (p := p.withoutSlash) (hds ▸ List.mem_append_left _ hx)
    by_cases hs : s = "." ∨ s = ".."
    · obtain ⟨k, hk, hb⟩ := breaks_of_walk hfs (hcwd.base p) hne (hdots hs)
      have hsteps : fs.Breaks (p.base cwd) p.steps k := by
        rw [Path.steps_eq, hwords, List.append_assoc]
        exact hb.append _
      rw [present, status_of_breaks hu hsteps hk]
      rfl
    · rw [not_or] at hs
      refine present_eq_false hwords hs.1 hs.2 fun d k hd => ?_
      by_contra hnode
      have hdir := hfs.parent d s hnode
      have hwalk := walk_of_leads (Walks.of_enters hd) linkLimit
      rw [parentAndName, origin_of_usable hu] at h
      dsimp only [bind, Except.bind] at h
      rw [hds, List.getLast?_concat, List.dropLast_concat] at h
      dsimp only at h
      split at hwalk
      · rw [hwalk] at h
        dsimp only at h
        rw [hdir] at h
        dsimp only at h
        split at h
        · rename_i r _
          exact r.errno_ne_noEntry (Except.error.inj h)
        · rw [if_neg (by simpa using hs)] at h
          split at h <;> cases h
      · rw [hwalk] at h
        cases h

/-- If there is nothing by the last name of a path in the place that it is looked up in, the path
leads nowhere. -/
theorem present_of_parentAndName_none (h : fs.parentAndName cwd p = .ok (some (d, s)))
    (hnone : fs.node? (d ++ [s]) = none) : fs.present cwd p = false := by
  obtain ⟨-, -, ds, k, hds, hs, -, hd⟩ := parentAndName_eq_some_iff.1 h
  rw [Path.steps_withoutSlash] at hds
  refine present_eq_false hds hs.not_dot hs.not_up fun e j he => ?_
  obtain ⟨rfl, -⟩ := hd.enters_unique he
  exact hnone

/-- Once a tree is taken away its path leads nowhere, from wherever somebody is then who was in the
directory that it was taken away from. -/
theorem Pruned.present_seat (h : fs.Pruned (d ++ [s]) fs') (hfs : fs.WellFormed)
    (hp : Path.words p.chars = ds ++ [s]) (hs : IsName s) (hd : fs.Enters (p.base cwd) ds k d)
    (hgone : fs'.node? (d ++ [s]) = none) : fs'.present (fs'.seat cwd) p = false := by
  have hnone := h.isGone_eq_none hfs
  refine present_eq_false hp hs.not_dot hs.not_up fun e j he => ?_
  have hsits := (fs'.sits_base p cwd).enters (fun _ _ => h.kept) hnone he hd
  by_contra hnode
  exact hnode (hsits.eq_of_node? hnone hnode ▸ hgone)

/-- What comes of taking away an empty directory: all stays, and if that is no failure the path led
nowhere; or all but the directory stays. -/
theorem removeEmpty_cases (hfs : fs.WellFormed) (hcwd : fs.IsSeat cwd) (p : Path) :
    let r := fs.removeEmpty cwd p
    (r.2 = fs ∧ (r.1 = .ok () → fs.present cwd p = false)) ∨
      r.1 = .ok () ∧ ∃ d s, fs.parentAndName cwd p = .ok (some (d, s)) ∧
        fs.node? (d ++ [s]) = some .directory ∧ r.2 = fs.drop (d ++ [s]) := by
  dsimp only
  rw [removeEmpty]
  split
  · rename_i hplace
    exact .inl ⟨rfl, fun _ => present_of_parentAndName_error hfs hcwd hplace⟩
  · exact .inl ⟨rfl, by simp⟩
  · split <;> exact .inl ⟨rfl, by simp⟩
  · rename_i d s hplace
    split
    · rename_i hnone
      exact .inl ⟨rfl, fun _ => present_of_parentAndName_none hplace hnone⟩
    · rename_i hdir
      rw [remove]
      split
      · exact .inl ⟨rfl, by simp⟩
      · exact .inr ⟨rfl, d, s, hplace, hdir, rfl⟩
    · exact .inl ⟨rfl, by simp⟩

/-- The directory that a path leads to once a tree has been emptied is the one that was emptied. -/
theorem Pruned.place_eq (h : fs.Pruned l fs') (hfs : fs.WellFormed)
    (hstatus : fs.linkStatus cwd p = .ok (l, .directory))
    (hplace : fs'.parentAndName (fs'.seat cwd) p = .ok (some (d, s)))
    (hdir : fs'.node? (d ++ [s]) = some .directory) :
    l = d ++ [s] ∧ ∃ ds k, Path.words p.chars = ds ++ [s] ∧ IsName s ∧
      fs.Enters (p.base cwd) ds k d := by
  have hgone := h.isGone_eq_none hfs
  obtain ⟨-, -, ds, k, hds, hs, -, he⟩ := parentAndName_eq_some_iff.1 hplace
  rw [Path.steps_withoutSlash] at hds
  obtain ⟨-, j, -, hl⟩ := enters_of_locate hstatus
  rw [Walks.filter_iff, Path.filter_steps, ← Path.filter_words, ← Walks.filter_iff, hds] at hl
  obtain ⟨d₂, i, _, hd₂, hlast, -⟩ := hl.split fun _ _ => rfl
  have hsits := (fs'.sits_base p cwd).enters (fun _ _ => h.kept) hgone he hd₂
  obtain rfl := hsits.eq_of_node? hgone (by rw [hdir]; exact nofun)
  rcases hlast.single_cases with ⟨hdot, -⟩ | ⟨hup, -⟩ | ⟨-, rfl, -⟩ | ⟨t, -, -, hlink, -⟩
  · exact absurd hdot hs.not_dot
  · exact absurd hup hs.not_up
  · exact ⟨rfl, ds, i, hds, hs.toIsName, hd₂⟩
  · rw [h.kept hdir] at hlink
    cases hlink

/-- What is left after a tree was to be taken away: part of it at most is gone. If all went well
nothing of it is left, and its path leads nowhere. -/
theorem removeAll_spec (hfs : fs.WellFormed) (hcwd : fs.IsSeat cwd) :
    let r := fs.removeAll cwd p
    (∀ e, fs.linkStatus cwd p = .error e → r = (.error e, fs)) ∧
      ∀ top node, fs.linkStatus cwd p = .ok (top, node) → fs.Thinned top r.2 ∧
        (r.1 = .ok () → fs.Pruned top r.2 ∧ r.2.present (r.2.seat cwd) p = false) := by
  dsimp only
  rw [removeAll]
  refine ⟨fun e he => by rw [he], fun top node hstatus => ?_⟩
  rw [hstatus]
  cases node with
  | file b mode => exact ⟨.refl fs top, nofun⟩
  | link t =>
    obtain ⟨-, -, k, d, s, ⟨hs, ds, hds, hd⟩, rfl, hnode⟩ := hfs.link_cases hcwd hstatus
    have hpruned : fs.Pruned (d ++ [s]) fs := hfs.pruned_self (by rw [hnode]; exact nofun)
    have hremove := takesAway_remove hpruned.below
    refine ⟨hremove.toThinned, fun hok => ?_⟩
    have hgone := hremove.gone hok (d ++ [s]) (List.prefix_refl _)
    have hpruned' : fs.Pruned (d ++ [s]) (fs.remove (d ++ [s])).2 :=
      ⟨hremove.toThinned, fun l hl _ => hremove.gone hok l hl⟩
    exact ⟨hpruned',
      hpruned'.present_seat hfs (Path.words_of_steps hds hs.not_dot).1 hs.toIsName hd hgone⟩
  | directory =>
    have hempties := emptyWithin_depth hfs top
    dsimp only
    split
    · rename_i fs₁ hempty
      rw [hempty] at hempties
      have hpruned : fs.Pruned top fs₁ := hempties.pruned rfl
      rcases removeEmpty_cases (hpruned.wellFormed hfs) (isSeat_seat fs₁ cwd) p with
        ⟨hsame, habsent⟩ | ⟨-, d, s, hplace, hdir, hdrop⟩
      · rw [hsame]
        exact ⟨hpruned.toThinned, fun hok => ⟨hpruned, habsent hok⟩⟩
      · obtain ⟨rfl, ds, k, hds, hs, hd⟩ := hpruned.place_eq hfs hstatus hplace hdir
        have hgone : (fs₁.drop (d ++ [s])).node? (d ++ [s]) = none :=
          (node?_drop (by simp)).trans (if_pos rfl)
        have hpruned' := hpruned.drop (by simp)
        rw [hdrop]
        exact ⟨hpruned'.toThinned,
          fun _ => ⟨hpruned', hpruned'.present_seat hfs hds hs hd hgone⟩⟩
    · rename_i e fs₁ hempty
      rw [hempty] at hempties
      exact ⟨hempties.toThinned, nofun⟩

theorem removeIfPresent_ok (hfs : fs.WellFormed) (hcwd : fs.IsSeat cwd)
    (h : fs.removeIfPresent cwd p = (.ok true, fs')) :
    ∃ top node, fs.linkStatus cwd p = .ok (top, node) ∧ fs.Pruned top fs' ∧
      fs'.present (fs'.seat cwd) p = false := by
  rw [removeIfPresent] at h
  split at h
  · obtain ⟨hmissing, hthere⟩ := removeAll_spec (p := p) hfs hcwd
    split at h
    · rename_i hremove
      cases h
      rw [hremove] at hmissing hthere
      cases hstatus : fs.linkStatus cwd p with
      | error e => exact nomatch hmissing e hstatus
      | ok found =>
        obtain ⟨top, node⟩ := found
        obtain ⟨hpruned, habsent⟩ := (hthere top node hstatus).2 rfl
        exact ⟨top, node, rfl, hpruned, habsent⟩
    · cases h
  · cases h

theorem removeIfPresent_false (h : fs.removeIfPresent cwd p = (.ok false, fs')) :
    fs' = fs ∧ fs.present cwd p = false := by
  rw [removeIfPresent] at h
  split at h
  · split at h <;> cases h
  · rename_i habsent
    cases h
    exact ⟨rfl, by simpa using habsent⟩

/-- A directory that a name leads to can be taken away once it is empty, if nothing is refused. -/
theorem Unhindered.removeEmpty_ok (hun : fs.Unhindered (d ++ [s]))
    (h : fs.Pruned (d ++ [s]) fs') (hempty : fs'.node? (d ++ [s]) = some .directory)
    (hfs : fs.WellFormed) (hu : p.Usable) (hp : p.steps = ds ++ [s]) (hs : fs.IsStep d s)
    (hk : k ≤ linkLimit) (hd : fs.Enters (p.base cwd) ds k d) :
    (fs'.removeEmpty (fs'.seat cwd) p).1 = .ok () := by
  have hsteps (x : String) (hx : x ∈ ds) : x ≠ "" :=
    Path.ne_empty_of_mem_steps (hp ▸ List.mem_append_left [s] hx)
  rw [removeEmpty, parentAndName_of_name hu hp hs.toIsName]
  rcases h.enters_or_breaks hfs hun.gone (fs'.sits_base p cwd) hsteps hd with
    ⟨e, he, hsits⟩ | ⟨j, hj, hb⟩
  · have hwalk := walk_of_leads (Walks.of_enters he) linkLimit
    rw [hwalk, if_pos hk]
    rcases hsits.eq_or_isGone with rfl | hgone
    · have hdir := (h.wellFormed hfs).parent e s (by rw [hempty]; exact nofun)
      dsimp only [bind, Except.bind]
      rw [hdir, h.refused, hs.search]
      dsimp only
      rw [hempty]
      dsimp only
      rw [remove, h.refused, hun.remove _ (List.prefix_refl _)]
    · dsimp only [bind, Except.bind]
      rw [h.isGone_eq_none hfs e hgone]
  · rcases cases_of_bind_eq_error (walk_of_breaks hb (Nat.le_trans hj hk)) with
      hwalk | ⟨e, hwalk, hat⟩
    · rw [hwalk]
      rfl
    · rw [hwalk]
      dsimp only [bind, Except.bind]
      rw [at?] at hat
      split at hat
      · cases hat
      · rename_i hnone
        rw [hnone]

/-- If nothing is refused, all of a tree goes, or nothing. -/
theorem Unhindered.removeAll_error (hun : fs.Unhindered top) (hfs : fs.WellFormed)
    (hp : p.steps = ds ++ [s]) (hs : IsName s) {node : Node} {e : Errno}
    (hstatus : fs.linkStatus cwd p = .ok (top, node)) (h : fs.removeAll cwd p = (.error e, fs')) :
    fs' = fs := by
  rw [removeAll, hstatus] at h
  cases node with
  | file b mode =>
    cases h
    rfl
  | link t =>
    dsimp only at h
    rw [remove, hun.remove _ (List.prefix_refl _)] at h
    cases h
  | directory =>
    obtain ⟨hu, hnode, d, k, rfl, hk, hd, hstep⟩ := place_of_linkStatus hp hs hstatus
    have hempties := emptyWithin_depth hfs (d ++ [s])
    have hok := hempties.ok hun.toRemovable
    dsimp only at h
    split at h
    · rename_i fs₁ hempty
      rw [hempty] at hempties
      have hremove := hun.removeEmpty_ok (hempties.pruned rfl) (hempties.stays.trans hnode) hfs hu
        hp hstep hk hd
      rw [h] at hremove
      cases hremove
    · rename_i e' fs₁ hempty
      rw [hempty] at hok
      cases hok

theorem removeIfPresent_eq (fs : FileSystem) (cwd : Location) (p : Path) :
    (fs.removeIfPresent cwd p).2 = fs ∨
      (fs.removeIfPresent cwd p).2 = (fs.removeAll cwd p).2 := by
  rw [removeIfPresent]
  split
  · right
    split
    · rename_i hremove
      rw [hremove]
    · rename_i hremove
      rw [hremove]
      rfl
  · exact .inl rfl

/-- However it ends, nothing goes but what is at the place that the path names or below it. -/
theorem removeIfPresent_thinned (hfs : fs.WellFormed) (hcwd : fs.IsSeat cwd) :
    (∀ e, fs.linkStatus cwd p = .error e → (fs.removeIfPresent cwd p).2 = fs) ∧
      ∀ top node, fs.linkStatus cwd p = .ok (top, node) →
        fs.Thinned top (fs.removeIfPresent cwd p).2 := by
  obtain ⟨hmissing, hthere⟩ := removeAll_spec (p := p) hfs hcwd
  rcases fs.removeIfPresent_eq cwd p with hsame | hremoved
  · rw [hsame]
    exact ⟨fun _ _ => rfl, fun top _ _ => .refl fs top⟩
  · rw [hremoved]
    exact ⟨fun e he => congrArg Prod.snd (hmissing e he),
      fun top node hstatus => (hthere top node hstatus).1⟩

/-- A failure leaves all of the tree unless something in it is refused. -/
theorem Unhindered.removeIfPresent_error {f : Failure} (hun : fs.Unhindered top)
    (hfs : fs.WellFormed) (hp : p.steps = ds ++ [s]) (hs : IsName s)
    (hstatus : fs.linkStatus cwd p = .ok (top, node))
    (h : fs.removeIfPresent cwd p = (.error f, fs')) : fs' = fs := by
  rw [removeIfPresent] at h
  split at h
  · split at h
    · cases h
    · rename_i hremove
      cases h
      exact hun.removeAll_error hfs hp hs hstatus hremove
  · cases h

end Removing

end ConanPipeline.FileSystem
