import ConanPipeline.Proofs.FileSystem.Names

/-! Walks through a file system as a relation that counts links. A walk that may follow `n` links
finds a place exactly when the relation leads there over no more than `n` (`walk_eq_ok_iff`), and
it fails for its links alone when the relation needs more (`walk_of_leads`). Walks are put together
and taken apart at any directory on their way (`Walks.append`, `Walks.split`). -/

namespace ConanPipeline

/-- The directory that a path starts from. -/
def Path.base (p : Path) (cwd : Location) : Location := if p.isAbsolute then [] else cwd

namespace FileSystem

/-- A step that goes down from a directory. -/
structure IsName (s : String) : Prop where
  not_dot : s ≠ "."
  not_up : s ≠ ".."
  short : s.utf8ByteSize ≤ nameLimit

instance (s : String) : Decidable (IsName s) :=
  decidable_of_iff (s ≠ "." ∧ s ≠ ".." ∧ s.utf8ByteSize ≤ nameLimit)
    ⟨fun ⟨h1, h2, h3⟩ => ⟨h1, h2, h3⟩, fun h => ⟨h.not_dot, h.not_up, h.short⟩⟩

/-- A name that can be looked up in a directory. -/
structure IsStep (fs : FileSystem) (l : Location) (s : String) : Prop extends IsName s where
  search : fs.Allows .search l

instance (fs : FileSystem) (l : Location) (s : String) : Decidable (fs.IsStep l s) :=
  decidable_of_iff (IsName s ∧ fs.Allows .search l) ⟨fun ⟨h, hx⟩ => ⟨h, hx⟩, fun h => ⟨h.1, h.2⟩⟩

/-- The steps lead from a directory to a place, over `n` links. `ends` tells at which nodes the
last step may stop short of a directory; a link where it may not is followed. -/
inductive Walks (fs : FileSystem) (ends : Option Node → Bool) :
    Location → List String → Nat → Location → Prop
  | here (l : Location) : Walks fs ends l [] 0 l
  | dot {l rest n m} (h : Walks fs ends l rest n m) : Walks fs ends l ("." :: rest) n m
  | up {l rest n m} (hx : fs.Allows .search l) (h : Walks fs ends l.dropLast rest n m) :
      Walks fs ends l (".." :: rest) n m
  | down {l s rest n m} (hs : fs.IsStep l s) (hd : fs.node? (l ++ [s]) = some .directory)
      (h : Walks fs ends (l ++ [s]) rest n m) : Walks fs ends l (s :: rest) n m
  | stop {l s} (hs : fs.IsStep l s) (he : ends (fs.node? (l ++ [s])) = true) :
      Walks fs ends l [s] 0 (l ++ [s])
  | follow {l s t rest n m} (hs : fs.IsStep l s) (hl : fs.node? (l ++ [s]) = some (.link t))
      (hk : fs.Allows .read (l ++ [s])) (hr : rest = [] → ends (some (.link t)) = false)
      (ht : t.isEmpty = false) (h : Walks fs ends (t.base l) (t.steps ++ rest) n m) :
      Walks fs ends l (s :: rest) (n + 1) m

/-- Where a walk may end other than in a directory. -/
def endsAt (final : Bool) : Option Node → Bool
  | none => true
  | some (.file ..) => true
  | some (.link _) => !final
  | some .directory => false

/-- The steps lead into a directory, over `n` links. -/
abbrev Enters (fs : FileSystem) : Location → List String → Nat → Location → Prop :=
  fs.Walks fun _ => false

/-- The steps lead to a place, which may be missing, over `n` links. A link at the end counts only
if `final` is set, and is then followed. -/
abbrev Leads (fs : FileSystem) (final : Bool) : Location → List String → Nat → Location → Prop :=
  fs.Walks (endsAt final)

/-- All directories and links are there as before, and so is the way into and through them. -/
structure KeepsWays (fs fs' : FileSystem) : Prop where
  directory : ∀ l, fs.node? l = some .directory → fs'.node? l = some .directory
  link : ∀ l t, fs.node? l = some (.link t) → fs'.node? l = some (.link t)
  search : ∀ l, fs.Allows .search l → fs'.Allows .search l
  read : ∀ l, fs.Allows .read l → fs'.Allows .read l

variable {fs fs' : FileSystem} {ends : Option Node → Bool} {final : Bool}
variable {l d m m' : Location} {s : String} {rest xs ys : List String} {n k : Nat}

namespace Walks

/-- Steps into a directory go before any others. -/
theorem append (h : fs.Enters l xs n d) (h' : fs.Walks ends d ys k m)
    (hy : ys = [] → ∀ t, ends (some (.link t)) = false) :
    fs.Walks ends l (xs ++ ys) (n + k) m := by
  induction h with
  | here l => simpa using h'
  | dot _ ih => exact .dot (ih h')
  | up hx _ ih => exact .up hx (ih h')
  | down hs hd _ ih => exact .down hs hd (ih h')
  | stop _ he => cases he
  | @follow l s t rest n m hs hl hk _ ht _ ih =>
    have h := ih h'
    rw [List.append_assoc] at h
    rw [Nat.add_right_comm]
    refine .follow hs hl hk (fun hnil => ?_) ht h
    exact hy (List.append_eq_nil_iff.1 hnil).2 t

/-- A walk that goes on after some of its steps has led into a directory by then. -/
theorem split (h : fs.Walks ends l (xs ++ ys) n m)
    (hy : ys = [] → ∀ node, ends node = false) :
    ∃ d j k, fs.Enters l xs j d ∧ fs.Walks ends d ys k m ∧ n = j + k := by
  generalize hsteps : xs ++ ys = steps at h
  induction h generalizing xs with
  | here l =>
    obtain ⟨rfl, rfl⟩ := List.append_eq_nil_iff.1 hsteps
    exact ⟨l, 0, 0, .here l, .here l, rfl⟩
  | @dot l rest n m h ih =>
    rcases List.append_eq_cons_iff.1 hsteps with ⟨rfl, rfl⟩ | ⟨xs, rfl, hrest⟩
    · exact ⟨l, 0, n, .here l, .dot h, by omega⟩
    · obtain ⟨d, j, k, hd, hk, hn⟩ := ih hrest.symm
      exact ⟨d, j, k, .dot hd, hk, hn⟩
  | @up l rest n m hx h ih =>
    rcases List.append_eq_cons_iff.1 hsteps with ⟨rfl, rfl⟩ | ⟨xs, rfl, hrest⟩
    · exact ⟨l, 0, n, .here l, .up hx h, by omega⟩
    · obtain ⟨d, j, k, hd, hk, hn⟩ := ih hrest.symm
      exact ⟨d, j, k, .up hx hd, hk, hn⟩
  | @down l s rest n m hs hd h ih =>
    rcases List.append_eq_cons_iff.1 hsteps with ⟨rfl, rfl⟩ | ⟨xs, rfl, hrest⟩
    · exact ⟨l, 0, n, .here l, .down hs hd h, by omega⟩
    · obtain ⟨d, j, k, hj, hk, hn⟩ := ih hrest.symm
      exact ⟨d, j, k, .down hs hd hj, hk, hn⟩
  | @stop l s hs he =>
    rcases List.append_eq_cons_iff.1 hsteps with ⟨rfl, rfl⟩ | ⟨xs, rfl, hrest⟩
    · exact ⟨l, 0, 0, .here l, .stop hs he, rfl⟩
    · rw [hy (List.append_eq_nil_iff.1 hrest.symm).2] at he
      cases he
  | @follow l s t rest n m hs hl hread hr ht h ih =>
    rcases List.append_eq_cons_iff.1 hsteps with ⟨rfl, rfl⟩ | ⟨xs, rfl, hrest⟩
    · exact ⟨l, 0, n + 1, .here l, .follow hs hl hread hr ht h, by omega⟩
    · have hsteps : (t.steps ++ xs) ++ ys = t.steps ++ rest := by rw [hrest, List.append_assoc]
      obtain ⟨d, j, k, hj, hk, hn⟩ := ih hsteps
      exact ⟨d, j + 1, k, .follow hs hl hread (fun _ => rfl) ht hj, hk, by omega⟩

theorem of_enters (h : fs.Enters l xs n m) : fs.Leads true l xs n m := by
  have happ := append h (here m : fs.Leads true m [] 0 m) fun _ _ => rfl
  simpa using happ

/-- It makes no difference whether a link at the end is followed if there is none. -/
theorem followed (h : fs.Leads false l xs n m) (hm : ∀ t, fs.node? m ≠ some (.link t)) :
    fs.Leads true l xs n m := by
  induction h with
  | here l => exact .here l
  | dot _ ih => exact .dot (ih hm)
  | up hx _ ih => exact .up hx (ih hm)
  | down hs hd _ ih => exact .down hs hd (ih hm)
  | @stop l s hs he =>
    refine .stop hs ?_
    cases hnode : fs.node? (l ++ [s]) with
    | none => rfl
    | some node =>
      cases node with
      | directory => rwa [hnode] at he
      | file b mode => rfl
      | link t => exact absurd hnode (hm t)
  | follow hs hl hk _ ht _ ih => exact .follow hs hl hk (fun _ => rfl) ht (ih hm)

/-- What a single step can do. -/
theorem single_cases (h : fs.Walks ends d [s] k m) :
    (s = "." ∧ m = d ∧ k = 0) ∨ (s = ".." ∧ m = d.dropLast ∧ k = 0) ∨
      (fs.IsStep d s ∧ m = d ++ [s] ∧ k = 0 ∧
        (fs.node? (d ++ [s]) = some .directory ∨ ends (fs.node? (d ++ [s])) = true)) ∨
      ∃ t j, fs.IsStep d s ∧ fs.node? (d ++ [s]) = some (.link t) ∧ fs.Allows .read (d ++ [s]) ∧
        ends (some (.link t)) = false ∧ t.isEmpty = false ∧
          fs.Walks ends (t.base d) t.steps j m ∧ k = j + 1 := by
  cases h with
  | dot h => cases h; exact Or.inl ⟨rfl, rfl, rfl⟩
  | up _ h => cases h; exact Or.inr (Or.inl ⟨rfl, rfl, rfl⟩)
  | down hs hd h => cases h; exact Or.inr (Or.inr (Or.inl ⟨hs, rfl, rfl, Or.inl hd⟩))
  | stop hs he => exact Or.inr (Or.inr (Or.inl ⟨hs, rfl, rfl, Or.inr he⟩))
  | follow hs hl hk hr ht h =>
    rw [List.append_nil] at h
    exact Or.inr (Or.inr (Or.inr ⟨_, _, hs, hl, hk, hr rfl, ht, h, rfl⟩))

theorem enters_cons_iff : fs.Enters l (s :: xs) n m ↔
    ∃ d j k, fs.Enters l [s] j d ∧ fs.Enters d xs k m ∧ n = j + k := by
  constructor
  · intro h
    have h' : fs.Enters l ([s] ++ xs) n m := h
    exact h'.split fun _ _ => rfl
  · rintro ⟨d, j, k, hd, hk, rfl⟩
    exact append hd hk fun _ _ => rfl

theorem enters_of_dot (h : fs.Enters l ("." :: xs) n m) : fs.Enters l xs n m := by
  obtain ⟨d, j, k, hd, hk, rfl⟩ := enters_cons_iff.1 h
  rcases single_cases hd with ⟨-, rfl, rfl⟩ | ⟨hup, -⟩ | ⟨hs, -⟩ | ⟨_, _, hs, -⟩
  · rwa [Nat.zero_add]
  · exact absurd hup (by decide)
  · exact absurd rfl hs.not_dot
  · exact absurd rfl hs.not_dot

theorem enters_of_up (h : fs.Enters l (".." :: xs) n m) : fs.Enters l.dropLast xs n m := by
  obtain ⟨d, j, k, hd, hk, rfl⟩ := enters_cons_iff.1 h
  rcases single_cases hd with ⟨hdot, -⟩ | ⟨-, rfl, rfl⟩ | ⟨hs, -⟩ | ⟨_, _, hs, -⟩
  · exact absurd hdot (by decide)
  · rwa [Nat.zero_add]
  · exact absurd rfl hs.not_up
  · exact absurd rfl hs.not_up

/-- Dots on the way make no difference. -/
theorem filter_iff : fs.Enters l xs n m ↔ fs.Enters l (xs.filter (· != ".")) n m := by
  induction xs generalizing l n with
  | nil => exact Iff.rfl
  | cons x xs ih =>
    by_cases hx : x = "."
    · subst hx
      rw [List.filter_cons_of_neg (by simp), ← ih]
      exact ⟨enters_of_dot, .dot⟩
    · rw [List.filter_cons_of_pos (by simpa using hx), enters_cons_iff, enters_cons_iff]
      simp only [ih]

/-- Steps lead to the same place wherever all ways are kept, if they may still end there. -/
theorem of_kept (hfs : fs.KeepsWays fs') (h : fs.Walks ends l xs n m)
    (he : ends (fs.node? m) = true → ends (fs'.node? m) = true) : fs'.Walks ends l xs n m := by
  have hstep {l : Location} {s : String} (hs : fs.IsStep l s) : fs'.IsStep l s :=
    ⟨hs.toIsName, hfs.search l hs.search⟩
  induction h with
  | here l => exact .here l
  | dot _ ih => exact .dot (ih he)
  | up hx _ ih => exact .up (hfs.search _ hx) (ih he)
  | down hs h _ ih => exact .down (hstep hs) (hfs.directory _ h) (ih he)
  | stop hs h => exact .stop (hstep hs) (he h)
  | follow hs h hk hr ht _ ih =>
    exact .follow (hstep hs) (hfs.link _ _ h) (hfs.read _ hk) hr ht (ih he)

theorem enters_of_kept (hfs : fs.KeepsWays fs') (h : fs.Enters l xs n m) : fs'.Enters l xs n m :=
  of_kept hfs h fun he => nomatch he

end Walks

/-! The walk of a file system and the relation. -/

theorem walk_nil (final : Bool) (n : Nat) (l : Location) : fs.walk final n l [] = .ok l := by
  cases n <;> rfl

theorem walk_dot : fs.walk final n l ("." :: rest) = fs.walk final n l rest := by
  cases n <;> rw [walk, walkWith, if_pos rfl]

theorem walk_refused {r : Refusal} (hs : s ≠ ".") (h : fs.refused .search l = some r) :
    fs.walk final n l (s :: rest) = .error r.errno := by
  cases n <;> rw [walk, walkWith, if_neg hs, h]

theorem walk_up (hx : fs.Allows .search l) :
    fs.walk final n l (".." :: rest) = fs.walk final n l.dropLast rest := by
  have hne : ".." ≠ "." := by decide
  cases n <;> rw [walk, walkWith, if_neg hne, hx] <;> dsimp only <;> rw [if_pos rfl]

/-- What becomes of a walk at a link that it follows. -/
def follow (fs : FileSystem) (final : Bool) (n : Nat) (l : Location) (s : String) (t : Path)
    (rest : List String) : Except Errno Location :=
  match n with
  | 0 => .error .linkLoop
  | n + 1 =>
    match fs.refused .read (l ++ [s]) with
    | some r => .error r.errno
    | none => if t.isEmpty then .error .noEntry else fs.walk final n (t.base l) (t.steps ++ rest)

theorem walk_name (hs : fs.IsStep l s) : fs.walk final n l (s :: rest) =
    match fs.node? (l ++ [s]) with
    | none => if rest.isEmpty then .ok (l ++ [s]) else .error .noEntry
    | some (.file ..) => if rest.isEmpty then .ok (l ++ [s]) else .error .notDirectory
    | some .directory => fs.walk final n (l ++ [s]) rest
    | some (.link t) =>
      if rest.isEmpty && !final then .ok (l ++ [s]) else fs.follow final n l s t rest := by
  have hshort := Nat.not_lt.2 hs.short
  cases n <;> rw [walk, walkWith, if_neg hs.not_dot, hs.search] <;> dsimp only <;>
    rw [if_neg hs.not_up, if_neg hshort] <;> rfl

theorem walk_long (hdot : s ≠ ".") (hup : s ≠ "..") (hx : fs.Allows .search l)
    (h : nameLimit < s.utf8ByteSize) : fs.walk final n l (s :: rest) = .error .nameTooLong := by
  cases n <;> rw [walk, walkWith, if_neg hdot, hx] <;> dsimp only <;> rw [if_neg hup, if_pos h]

/-- The cases of a walk that may follow `n` links. Behind a name it goes on below a directory with
the rest of the steps, and at a link with more of them, but fewer links. -/
theorem walk_induction (fs : FileSystem) {motive : Nat → Location → List String → Prop}
    (nil : ∀ n l, motive n l [])
    (dot : ∀ n l rest, motive n l rest → motive n l ("." :: rest))
    (refused : ∀ n l s rest r, s ≠ "." → fs.refused .search l = some r → motive n l (s :: rest))
    (up : ∀ n l rest, fs.Allows .search l → motive n l.dropLast rest → motive n l (".." :: rest))
    (long : ∀ n l s rest, s ≠ "." → s ≠ ".." → fs.Allows .search l → nameLimit < s.utf8ByteSize →
      motive n l (s :: rest))
    (name : ∀ n l s rest, fs.IsStep l s →
      (fs.node? (l ++ [s]) = some .directory → motive n (l ++ [s]) rest) →
      (∀ t k, fs.node? (l ++ [s]) = some (.link t) → k < n →
        motive k (t.base l) (t.steps ++ rest)) → motive n l (s :: rest))
    (n : Nat) (l : Location) (xs : List String) : motive n l xs := by
  -- on the links that may be followed, and for each number of them on the steps
  induction n using Nat.strongRecOn generalizing l xs with
  | ind n ihn =>
    induction xs generalizing l with
    | nil => exact nil n l
    | cons s rest ih =>
      by_cases hdot : s = "."
      · subst hdot
        exact dot n l rest (ih l)
      cases hx : fs.refused .search l with
      | some r => exact refused n l s rest r hdot hx
      | none =>
        by_cases hup : s = ".."
        · subst hup
          exact up n l rest hx (ih l.dropLast)
        by_cases hlong : nameLimit < s.utf8ByteSize
        · exact long n l s rest hdot hup hx hlong
        exact name n l s rest ⟨⟨hdot, hup, Nat.not_lt.1 hlong⟩, hx⟩ (fun _ => ih (l ++ [s]))
          fun t k _ hk => ihn k hk (t.base l) (t.steps ++ rest)

theorem leads_of_walk (h : fs.walk final n l xs = .ok m) :
    ∃ k, k ≤ n ∧ fs.Leads final l xs k m := by
  induction n, l, xs using walk_induction fs with
  | nil n l =>
    rw [walk_nil] at h
    cases h
    exact ⟨0, Nat.zero_le n, .here _⟩
  | dot n l rest ih =>
    obtain ⟨k, hk, h⟩ := ih (walk_dot.symm.trans h)
    exact ⟨k, hk, .dot h⟩
  | refused n l s rest r hdot hr =>
    rw [walk_refused hdot hr] at h
    cases h
  | up n l rest hx ih =>
    obtain ⟨k, hk, h⟩ := ih ((walk_up hx).symm.trans h)
    exact ⟨k, hk, .up hx h⟩
  | long n l s rest hdot hup hx hlong =>
    rw [walk_long hdot hup hx hlong] at h
    cases h
  | name n l s rest hs ih ihn =>
    rw [walk_name hs] at h
    cases hnode : fs.node? (l ++ [s]) with
    | none =>
      rw [hnode] at h
      cases rest with
      | nil => cases h; exact ⟨0, Nat.zero_le n, .stop hs (by rw [hnode]; rfl)⟩
      | cons _ _ => cases h
    | some node =>
      rw [hnode] at h
      cases node with
      | directory =>
        obtain ⟨k, hk, h⟩ := ih hnode h
        exact ⟨k, hk, .down hs hnode h⟩
      | file bytes mode =>
        cases rest with
        | nil => cases h; exact ⟨0, Nat.zero_le n, .stop hs (by rw [hnode]; rfl)⟩
        | cons _ _ => cases h
      | link t =>
        dsimp only at h
        split at h
        · rename_i hlast
          obtain ⟨hnil, hfinal⟩ := Bool.and_eq_true_iff.1 hlast
          rw [List.isEmpty_iff] at hnil
          subst hnil
          cases h
          exact ⟨0, Nat.zero_le n, .stop hs (by rw [hnode]; exact hfinal)⟩
        · rename_i hlast
          cases n with
          | zero => cases h
          | succ n =>
            rw [follow] at h
            split at h
            · cases h
            · rename_i hread
              split at h
              · cases h
              · rename_i ht
                obtain ⟨k, hk, h⟩ := ihn t n hnode (Nat.lt_succ_self n) h
                refine ⟨k + 1, Nat.succ_le_succ hk,
                  .follow hs hnode hread (fun hnil => ?_) (by simpa using ht) h⟩
                simpa [hnil, endsAt] using hlast

/-- A walk gets where its steps lead if it may follow that many links, and otherwise that is what
it fails for. -/
theorem walk_of_leads (h : fs.Leads final l xs k m) (n : Nat) :
    fs.walk final n l xs = if k ≤ n then .ok m else .error .linkLoop := by
  induction h generalizing n with
  | here l => rw [walk_nil, if_pos (Nat.zero_le n)]
  | dot _ ih => rw [walk_dot, ih]
  | up hx _ ih => rw [walk_up hx, ih]
  | down hs hd _ ih => rw [walk_name hs, hd, ← ih]
  | @stop l s hs he =>
    rw [walk_name hs, if_pos (Nat.zero_le n)]
    cases hnode : fs.node? (l ++ [s]) with
    | none => rfl
    | some node =>
      rw [hnode] at he
      cases node with
      | directory => cases he
      | file _ _ => rfl
      | link t => exact if_pos he
  | @follow l s t rest k m hs hl hread hr ht h ih =>
    have hgo : (rest.isEmpty && !final) = false := by
      cases rest with
      | nil => simpa [endsAt] using hr rfl
      | cons _ _ => rfl
    rw [walk_name hs, hl]
    dsimp only
    rw [hgo]
    cases n with
    | zero => rfl
    | succ n => simp [follow, hread, ht, ih]

theorem walk_eq_ok_iff : fs.walk final n l xs = .ok m ↔ ∃ k, k ≤ n ∧ fs.Leads final l xs k m := by
  constructor
  · exact leads_of_walk
  · rintro ⟨k, hk, h⟩
    rw [walk_of_leads h, if_pos hk]

/-- Steps lead to one place only, over one number of links. -/
theorem Walks.unique {n' : Nat} (h : fs.Leads final l xs n m) (h' : fs.Leads final l xs n' m') :
    m = m' ∧ n = n' := by
  have hle {j k : Nat} {d e : Location} (hj : fs.Leads final l xs j d)
      (hk : fs.Leads final l xs k e) : k ≤ j := by
    have hsame := (walk_of_leads hj j).symm.trans (walk_of_leads hk j)
    rw [if_pos (Nat.le_refl j)] at hsame
    by_contra hlt
    rw [if_neg hlt] at hsame
    cases hsame
  obtain rfl : n = n' := Nat.le_antisymm (hle h' h) (hle h h')
  have hsame := (walk_of_leads h n).symm.trans (walk_of_leads h' n)
  rw [if_pos (Nat.le_refl n), if_pos (Nat.le_refl n)] at hsame
  exact ⟨Except.ok.inj hsame, rfl⟩

theorem Walks.enters_unique {n' : Nat} (h : fs.Enters l xs n m) (h' : fs.Enters l xs n' m') :
    m = m' ∧ n = n' :=
  (of_enters h).unique (of_enters h')

end FileSystem

end ConanPipeline
