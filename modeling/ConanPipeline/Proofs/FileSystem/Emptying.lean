import ConanPipeline.Proofs.FileSystem.Tree

/-! Emptying a directory. Entry by entry, what is in it goes, and nothing else changes; whatever has
something in it is still there (`Thinned`). If nothing is refused on the way, all of it goes
(`emptyWithin_empties`). -/

namespace ConanPipeline.FileSystem

/-- Something at a place or below it may be gone, and all else is as it was. What has something in
it is there. -/
structure Thinned (fs : FileSystem) (top : Location) (fs' : FileSystem) : Prop where
  refused : fs'.refused = fs.refused
  apart : ∀ l, ¬ top <+: l → fs'.node? l = fs.node? l
  none_or_same : ∀ l, fs'.node? l = none ∨ fs'.node? l = fs.node? l
  parent : ∀ l s, fs'.node? (l ++ [s]) ≠ none → fs'.node? l = fs.node? l

/-- The user may do at a place and below it all that taking a tree away asks for. -/
structure Removable (fs : FileSystem) (top : Location) : Prop where
  search : ∀ l, top <+: l → fs.Allows .search l
  read : ∀ l, top <+: l → fs.Allows .read l
  remove : ∀ l, top <+: l → fs.Allows .remove l

/-- What comes of emptying a directory: it stays, and all that is in it goes unless there is a
failure, for which something in it has to be refused. -/
structure Empties (fs : FileSystem) (dir : Location) (r : Changed Unit) : Prop
    extends Thinned fs dir r.2 where
  stays : r.2.node? dir = fs.node? dir
  below : r.1 = .ok () → ∀ l, dir <+: l → dir ≠ l → r.2.node? l = none
  ok : fs.Removable dir → r.1 = .ok ()

/-- What comes of taking away the entry of a directory that has a name. -/
structure TakesAway (fs : FileSystem) (dir : Location) (s : String) (r : Changed Unit) : Prop
    extends Thinned fs (dir ++ [s]) r.2 where
  gone : r.1 = .ok () → ∀ l, dir ++ [s] <+: l → r.2.node? l = none
  ok : fs.Removable dir → r.1 = .ok ()

variable {fs fs' fs₁ fs₂ : FileSystem} {top dir l d e : Location} {s : String} {xs : List String}
variable {k n : Nat} {node : Node}

namespace Thinned

theorem refl (fs : FileSystem) (top : Location) : fs.Thinned top fs :=
  ⟨rfl, fun _ _ => rfl, fun _ => .inr rfl, fun _ _ _ => rfl⟩

theorem kept (h : fs.Thinned top fs') (hl : fs'.node? l = some node) : fs.node? l = some node := by
  rcases h.none_or_same l with hnone | hsame
  · rw [hnone] at hl
    cases hl
  · exact hsame.symm.trans hl

theorem node?_eq_none (h : fs.Thinned top fs') (hl : fs.node? l = none) : fs'.node? l = none :=
  (h.none_or_same l).elim id fun hsame => hsame.trans hl

theorem trans (h : fs.Thinned top fs₁) (h' : fs₁.Thinned top fs₂) : fs.Thinned top fs₂ where
  refused := h'.refused.trans h.refused
  apart l hl := (h'.apart l hl).trans (h.apart l hl)
  none_or_same l := by
    rcases h'.none_or_same l with hnone | hsame
    · exact .inl hnone
    · rw [hsame]
      exact h.none_or_same l
  parent l s hl := (h'.parent l s hl).trans (h.parent l s fun hnone => hl (h'.node?_eq_none hnone))

theorem of_prefix (h : fs.Thinned l fs') (htop : top <+: l) : fs.Thinned top fs' where
  refused := h.refused
  apart m hm := h.apart m fun hl => hm (htop.trans hl)
  none_or_same := h.none_or_same
  parent := h.parent

/-- Ways that are left were there. -/
theorem keepsWays (h : fs.Thinned top fs') : fs'.KeepsWays fs :=
  .of_refused h.refused.symm fun _ _ _ hl => h.kept hl

theorem wellFormed (h : fs.Thinned top fs') (hfs : fs.WellFormed) : fs'.WellFormed where
  parent l s hl := by
    rw [h.parent l s hl]
    exact hfs.parent l s fun hnone => hl (h.node?_eq_none hnone)
  named l := h.node?_eq_none (hfs.named l)
  target l t hl := hfs.target l t (h.kept hl)

theorem within (h : fs.Thinned top fs') (hn : fs.Within n) : fs'.Within n :=
  fun l hl => hn l fun hnone => hl (h.node?_eq_none hnone)

theorem removable (h : fs.Thinned top fs') (hdir : fs.Removable dir) : fs'.Removable dir := by
  refine ⟨fun l hl => ?_, fun l hl => ?_, fun l hl => ?_⟩ <;> rw [Allows, h.refused]
  · exact hdir.search l hl
  · exact hdir.read l hl
  · exact hdir.remove l hl

theorem isGone_eq_none (h : fs.Thinned top fs') (hfs : fs.WellFormed) (l : Location)
    (hl : isGone l = true) : fs'.node? l = none := by
  by_contra hnode
  have hgone := hfs.isGone_eq_false fun hnone => hnode (h.node?_eq_none hnone)
  rw [hl] at hgone
  cases hgone

end Thinned

theorem Removable.of_prefix (h : fs.Removable top) (hl : top <+: l) : fs.Removable l :=
  ⟨fun m hm => h.search m (hl.trans hm), fun m hm => h.read m (hl.trans hm),
    fun m hm => h.remove m (hl.trans hm)⟩

/-- What has nothing in it can go by itself. -/
theorem thinned_drop (hne : top ≠ []) (hbelow : ∀ l, top <+: l → top ≠ l → fs.node? l = none) :
    fs.Thinned top (fs.drop top) where
  refused := rfl
  apart l hl := by
    have hother : l ≠ top := fun heq => hl (heq ▸ List.prefix_refl l)
    rw [node?_drop hne, if_neg hother]
  none_or_same l := by
    rw [node?_drop hne]
    split
    · exact .inl rfl
    · exact .inr rfl
  parent l s hl := by
    rw [node?_drop hne] at hl ⊢
    rw [if_neg]
    rintro rfl
    split at hl
    · exact hl rfl
    · exact hl (hbelow _ (List.prefix_append l [s]) (by simp))

theorem takesAway_remove
    (hbelow : ∀ l, dir ++ [s] <+: l → dir ++ [s] ≠ l → fs.node? l = none) :
    fs.TakesAway dir s (fs.remove (dir ++ [s])) := by
  rw [remove]
  split
  · rename_i r hr
    refine ⟨.refl fs _, nofun, fun hok => ?_⟩
    rw [hok.remove _ (List.prefix_append dir [s])] at hr
    cases hr
  · refine ⟨thinned_drop (by simp) hbelow, fun _ l hl => ?_, fun _ => rfl⟩
    rw [node?_drop (by simp)]
    split
    · rfl
    · rename_i hother
      exact hbelow l hl (Ne.symm hother)

/-- There is nothing below what is not a directory. -/
theorem WellFormed.node?_below (hfs : fs.WellFormed) (hd : fs.node? d ≠ some .directory)
    (hl : d <+: l) (hne : d ≠ l) : fs.node? l = none := by
  by_contra hnode
  exact hd (hfs.directory_of_prefix hnode hl hne)

/-- What is in a directory is at one of its names or below it. -/
theorem WellFormed.name_of_below (hfs : fs.WellFormed) (h : fs.node? l ≠ none) (hl : dir <+: l)
    (hne : dir ≠ l) : ∃ s ∈ fs.names dir, dir ++ [s] <+: l := by
  obtain ⟨x, rfl⟩ := hl
  obtain ⟨s, x, rfl⟩ := List.exists_cons_of_ne_nil (l := x) fun hnil => hne (by simp [hnil])
  have hs : dir ++ [s] <+: dir ++ s :: x := ⟨x, by simp⟩
  refine ⟨s, mem_names fun hnone => h (hfs.node?_eq_none hnone hs), hs⟩

/-- Names taken away one after the other: what is at them is gone, and the directory stays. -/
theorem inTurn_spec {f : FileSystem → String → Changed Unit} (ns : List String)
    (hf : ∀ fs', fs.Thinned dir fs' → ∀ s, fs'.TakesAway dir s (f fs' s)) :
    let r := inTurn f fs ns
    fs.Thinned dir r.2 ∧ r.2.node? dir = fs.node? dir ∧
      (r.1 = .ok () → ∀ s ∈ ns, ∀ l, dir ++ [s] <+: l → r.2.node? l = none) ∧
      (fs.Removable dir → r.1 = .ok ()) := by
  induction ns generalizing fs with
  | nil => exact ⟨.refl fs dir, rfl, fun _ s hs => absurd hs List.not_mem_nil, fun _ => rfl⟩
  | cons s ns ih =>
    have hs := hf fs (.refl fs dir) s
    have hthin := hs.of_prefix (List.prefix_append dir [s])
    have hstays : (f fs s).2.node? dir = fs.node? dir := hs.apart dir fun hpre => by
      have hlength := hpre.length_le
      rw [List.length_append, List.length_singleton] at hlength
      omega
    dsimp only
    rw [inTurn]
    split
    · rename_i fs₁ hfirst
      rw [hfirst] at hs hthin hstays
      obtain ⟨hrest, hdir, hgone, hok⟩ := ih fun fs' hfs' => hf fs' (hthin.trans hfs')
      refine ⟨hthin.trans hrest, hdir.trans hstays, fun hdone => ?_, fun hall => ?_⟩
      · rw [List.forall_mem_cons]
        exact ⟨fun l hl => hrest.node?_eq_none (hs.gone rfl l hl), hgone hdone⟩
      · exact hok (hthin.removable hall)
    · rename_i e fs₁ hfirst
      rw [hfirst] at hs hthin hstays
      refine ⟨hthin, hstays, fun hok => ?_, fun hall => ?_⟩
      · cases hok
      · cases hs.ok hall

/-- An entry goes once what is in it can be taken away. -/
theorem takesAway_takeAway {empty : FileSystem → Location → Changed Unit} (hfs : fs.WellFormed)
    (hempty : fs.Empties (dir ++ [s]) (empty fs (dir ++ [s]))) :
    fs.TakesAway dir s (takeAway empty dir fs s) := by
  rw [takeAway]
  split
  · rename_i r hr
    refine ⟨.refl fs _, by simp, fun hall => ?_⟩
    rw [hall.search dir (List.prefix_refl dir)] at hr
    cases hr
  · split
    · rename_i hnone
      exact ⟨.refl fs _, fun _ l hl => hfs.node?_eq_none hnone hl, fun _ => rfl⟩
    · rename_i hdir
      split
      · rename_i fs₁ hinside
        rw [hinside] at hempty
        have hremove := takesAway_remove (hempty.below rfl)
        refine ⟨hempty.toThinned.trans hremove.toThinned, hremove.gone, fun hall => ?_⟩
        exact hremove.ok (hempty.removable hall)
      · rename_i e fs₁ hinside
        rw [hinside] at hempty
        refine ⟨hempty.toThinned, by simp, fun hall => ?_⟩
        cases hempty.ok (hall.of_prefix (List.prefix_append dir [s]))
    · rename_i node hother hnode
      refine takesAway_remove fun l hl hne => hfs.node?_below (fun hd => ?_) hl hne
      exact hother (Option.some.inj (hnode.symm.trans hd))

/-- Emptying a directory does what it should, if it may go as deep as there is something. -/
theorem emptyWithin_empties (hfs : fs.WellFormed) (hn : fs.Within (dir.length + n)) :
    fs.Empties dir (emptyWithin n fs dir) := by
  induction n generalizing fs dir with
  | zero =>
    refine ⟨.refl fs dir, rfl, fun _ l hl hne => ?_, fun _ => rfl⟩
    by_contra hnode
    exact absurd hl.length_le (Nat.not_le.2 (hn l hnode))
  | succ n ih =>
    rw [emptyWithin]
    split
    · rename_i r hr
      refine ⟨.refl fs dir, rfl, nofun, fun hall => ?_⟩
      rw [hall.read dir (List.prefix_refl dir)] at hr
      cases hr
    · have hf (fs' : FileSystem) (h : fs.Thinned dir fs') (s : String) :
          fs'.TakesAway dir s (takeAway (emptyWithin n) dir fs' s) := by
        refine takesAway_takeAway (h.wellFormed hfs) (ih (h.wellFormed hfs) ?_)
        rw [List.length_append, List.length_singleton, Nat.add_assoc, Nat.add_comm 1 n]
        exact h.within hn
      obtain ⟨hthin, hstays, hgone, hok⟩ := inTurn_spec (fs.names dir) hf
      refine ⟨hthin, hstays, fun hdone l hl hne => ?_, hok⟩
      by_contra hnode
      obtain ⟨s, hs, hpre⟩ :=
        hfs.name_of_below (fun hnone => hnode (hthin.node?_eq_none hnone)) hl hne
      exact hnode (hgone hdone s hs l hpre)

theorem emptyWithin_depth (hfs : fs.WellFormed) (dir : Location) :
    fs.Empties dir (emptyWithin fs.depth fs dir) :=
  emptyWithin_empties hfs fun l hl =>
    Nat.lt_of_lt_of_le (fs.within_depth l hl) (Nat.le_add_left _ _)

end ConanPipeline.FileSystem
