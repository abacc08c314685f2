import ConanPipeline.Proofs.Configure.Update
import ConanPipeline.Proofs.Profile.ReadBack

/-! A profile with a project's entries in it. The entries go to slots of their own, so the compiler
is what it was, and the standard that is read back, if one is, is the project's. A profile is
therefore refused for its compiler alone (`validateProfile_withEntries`). -/

namespace ConanPipeline.Profile

variable {standard : String} {text : List Char} {m : Machine} {file : Path}

/-- A profile's text after entries were set in it, one after the other. -/
def withEntries (entries : List (String × String × String)) (text : List Char) : List Char :=
  entries.foldl (fun t e => set e.1.toList e.2.1.toList (some e.2.2.toList) t) text

section Entries

/-- The slot of a key in the settings. -/
def settingSlot (key : String) (h : IsKey key.toList := by decide) : Slot :=
  ⟨"settings".toList, key.toList, h⟩

def standardUpdate (standard : String) (h : '\n' ∉ standard.toList) : Update where
  toSlot := settingSlot "compiler.cppstd"
  value := some standard.toList
  value_ok v hv := by
    cases hv
    exact h

def linkageUpdate (shared : Bool) : Update where
  sec := "options".toList
  key := "*:shared".toList
  value := some (if shared then "True" else "False").toList
  value_ok := by cases shared <;> decide

def libraryUpdate : Update where
  toSlot := settingSlot "compiler.libcxx"
  value := some "libstdc++11".toList

theorem withEntries_profileSettings (h : '\n' ∉ standard.toList) (shared : Bool)
    (platform : Platform) (text : List Char) :
    withEntries (profileSettings standard shared platform) text =
      (if platform = .linux then [libraryUpdate] else []).foldl (fun t u => u.apply t)
        ((linkageUpdate shared).apply ((standardUpdate standard h).apply text)) := by
  cases platform <;> rfl

/-- The entries after the first do not show at another slot of the settings. -/
theorem get_library_linkage {k : Slot} (hk : IsSection k.sec) (hlinkage : k.sec ≠ "options".toList)
    (hlibrary : k.key ≠ "compiler.libcxx".toList) (shared : Bool) (platform : Platform)
    (text : List Char) :
    get k.sec k.key ((if platform = .linux then [libraryUpdate] else []).foldl
      (fun t u => u.apply t) ((linkageUpdate shared).apply text)) = get k.sec k.key text := by
  have hlink : k.Distinct (linkageUpdate shared).toSlot :=
    ⟨fun h => hlinkage (congrArg Slot.sec h), hk, (by decide : IsSection "options".toList)⟩
  have hlib : k.Distinct libraryUpdate.toSlot :=
    ⟨fun h => hlibrary (congrArg Slot.key h), hk, (by decide : IsSection "settings".toList)⟩
  split
  · rw [List.foldl_cons, List.foldl_nil, get_apply_of_distinct _ hlib,
      get_apply_of_distinct _ hlink]
  · rw [List.foldl_nil, get_apply_of_distinct _ hlink]

variable (h : '\n' ∉ standard.toList) (shared : Bool) (platform : Platform)

include h in
/-- The compiler and its version are left as they were. -/
theorem setting_withEntries (text : List Char) {key : String} (hkey : IsKey key.toList)
    (hstandard : key ≠ "compiler.cppstd") (hlibrary : key ≠ "compiler.libcxx") :
    setting key (withEntries (profileSettings standard shared platform) text) =
      setting key text := by
  have hother : ∀ s : String, key ≠ s → key.toList ≠ s.toList := fun s hs he =>
    hs (String.toList_inj.1 he)
  rw [withEntries_profileSettings h]
  refine (get_library_linkage (k := settingSlot key hkey) (by decide : IsSection "settings".toList)
    (by decide : "settings".toList ≠ "options".toList) (hother _ hlibrary) shared platform _).trans ?_
  exact get_apply_of_distinct _ ⟨fun he => hother _ hstandard (congrArg Slot.key he),
    (by decide : IsSection "settings".toList), (by decide : IsSection "settings".toList)⟩ text

include h in
/-- The standard is the project's, or is not found at all. -/
theorem standard_withEntries (text : List Char) :
    setting "compiler.cppstd" (withEntries (profileSettings standard shared platform) text) = none ∨
      setting "compiler.cppstd" (withEntries (profileSettings standard shared platform) text) =
        some (Text.trim standard.toList) := by
  have hself := get_apply_self (standardUpdate standard h)
    (by decide : '\n' ∉ "settings".toList) text
  have hread : setting "compiler.cppstd" (withEntries (profileSettings standard shared platform) text) =
      get "settings".toList "compiler.cppstd".toList ((standardUpdate standard h).apply text) := by
    rw [withEntries_profileSettings h]
    exact get_library_linkage (k := settingSlot "compiler.cppstd")
      (by decide : IsSection "settings".toList) (by decide : "settings".toList ≠ "options".toList)
      (by decide : "compiler.cppstd".toList ≠ "compiler.libcxx".toList) shared platform _
  rw [hread]
  have hcases := hself
  split at hcases
  · exact Or.inl hcases
  · exact Or.inr hcases

theorem standardYear?_trim (value : List Char) :
    standardYear? (Text.trim value) = standardYear? value := by
  rw [standardYear?, standardYear?, Text.trim_trim]

/-- A standard is never older than itself. -/
theorem standardFault_self {actual : Option (List Char)} {required : List Char}
    (h : actual = none ∨ actual = some (Text.trim required)) : standardFault actual required = none := by
  rcases h with rfl | rfl
  · rfl
  · rw [standardFault, standardYear?_trim]
    cases standardYear? required with
    | none => rfl
    | some year => exact if_neg (Nat.lt_irrefl year)

theorem compilerFault_ne_none_iff (compiler version : Option (List Char)) :
    compilerFault compiler version ≠ none ↔ compiler = some "gcc".toList ∧
      ∃ v, version >>= Version.lenient? = some v ∧ v.major < minGccMajor := by
  rw [compilerFault]
  split
  · rename_i hgcc
    split
    · rename_i v hv
      split
      · rename_i hold
        exact iff_of_true (by simp) ⟨hgcc, v, hv, hold⟩
      · rename_i hnew
        refine iff_of_false (by simp) fun ⟨_, w, hw, hold⟩ => hnew ?_
        rw [hv] at hw
        cases hw
        exact hold
    · rename_i hnone
      exact iff_of_false (by simp) fun ⟨_, w, hw, _⟩ => by simp [hnone] at hw
  · rename_i hother
    exact iff_of_false (by simp) fun h => hother h.1

end Entries

theorem run_validateProfile {text : String} (h : m.files.readText m.cwd file = .ok text)
    (standard : String) : (validateProfile file standard).run.run m =
      (match shortcoming? text.toList standard.toList with
        | none => .ok ()
        | some s => .error (.of (.badConfiguration s.text)), m) := by
  have hfile := Machine.isFile_of_readText h
  have hread : (readProfile file).run.run m = (.ok text, m) := by
    rw [readProfile, Action.run_get_bind]
    simp only [hfile, Bool.not_true, Bool.false_eq_true, if_false]
    exact Action.run_fileText h
  rw [validateProfile, Action.run_bind_of_ok hread]
  cases shortcoming? text.toList standard.toList <;> rfl

/-- A profile that carries the project's own entries is refused exactly if it was for a compiler
that is too old, and looking at it changes nothing. -/
theorem validateProfile_withEntries (h : '\n' ∉ standard.toList) (shared : Bool)
    (platform : Platform) (text : List Char)
    (hread : m.files.readText m.cwd file =
      .ok (.ofList (withEntries (profileSettings standard shared platform) text))) :
    ((∃ f, ((validateProfile file standard).run.run m).1 = .error f) ↔
      setting "compiler" text = some "gcc".toList ∧
        ∃ v, setting "compiler.version" text >>= Version.lenient? = some v ∧ v.major < 9) ∧
    ((validateProfile file standard).run.run m).2 = m := by
  have hcompiler := setting_withEntries h shared platform text
    (by decide : IsKey "compiler".toList) (by decide) (by decide)
  have hversion := setting_withEntries h shared platform text
    (by decide : IsKey "compiler.version".toList) (by decide) (by decide)
  have hstandard := standardFault_self (standard_withEntries h shared platform text)
  have hfault := compilerFault_ne_none_iff (setting "compiler" text) (setting "compiler.version" text)
  rw [run_validateProfile hread, String.toList_ofList, shortcoming?, hcompiler, hversion, hstandard]
  refine ⟨?_, rfl⟩
  rw [← show minGccMajor = 9 from rfl, ← hfault]
  cases compilerFault (setting "compiler" text) (setting "compiler.version" text) with
  | none => exact iff_of_false (fun ⟨_, h⟩ => nomatch h) fun h => h rfl
  | some s => exact iff_of_true ⟨_, rfl⟩ (by simp)

theorem validateProfile_withEntries_old_gcc :
    let text := "[settings]\ncompiler=gcc\n\ncompiler.version = 8.3\n[settings]\n".toList
    let m := Machine.ofEntries [(["p"], .file (String.ofList (withEntries
      (profileSettings "gnu20" true .linux) text)).toUTF8 0o644)]
    ∃ f, ((validateProfile ⟨"p"⟩ "gnu20").run.run m).1 = .error f := by
  intro text m
  have hold : setting "compiler.version" text >>= Version.lenient? = some ⟨8, 3, 0⟩ := by decide
  exact (validateProfile_withEntries (m := m) (by decide) true .linux text (by decide +kernel)).1.2
    ⟨by decide, _, hold, by decide⟩

end ConanPipeline.Profile
