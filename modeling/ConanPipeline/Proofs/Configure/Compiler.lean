import ConanPipeline.Proofs.Configure.Standard
import ConanPipeline.Proofs.Version

/-! The checks of a profile with a compiler whose version is known. However the version is written,
one below the oldest that will do is refused, and with any other the profile is refused for its
standard alone (`validateProfile_of_spelling`). -/

namespace ConanPipeline.Profile

open Version (IsNumeral Spelling)

/-- A language standard as it may be written: `gnu` any number of times, a plus sign or none, and a
number of 32 bits. -/
def IsStandard (standard : List Char) (n : Nat) : Prop :=
  ∃ k ds, (Text.trim standard = (List.replicate k "gnu".toList).flatten ++ ds ∨
      Text.trim standard = (List.replicate k "gnu".toList).flatten ++ '+' :: ds) ∧
    IsNumeral ds ∧ Version.value ds = n ∧ n < Nat.pow 2 32

/-- Standards with two digits from 98 on are of the last century. -/
def year (n : Nat) : Nat := if 98 ≤ n then 1900 + n else 2000 + n

/-- The largest number of a standard whose year is one of 32 bits. -/
def lastStandard : Nat := 4294965395

variable {cs sec key v : List Char} {ls : List (List Char)} {text standard : List Char}
variable {n y : Nat} {m : Machine} {file : Path}

section Standards

open standardYear? (dropGnu)

theorem exists_dropGnu (cs : List Char) :
    ∃ k, cs = (List.replicate k "gnu".toList).flatten ++ dropGnu cs := by
  fun_induction dropGnu cs with
  | case1 rest ih =>
    obtain ⟨k, hk⟩ := ih
    refine ⟨k + 1, ?_⟩
    rw [List.replicate_succ, List.flatten_cons, List.append_assoc, ← hk]
    rfl
  | case2 cs => exact ⟨0, rfl⟩

theorem dropGnu_append (k : Nat) (h : cs.head? ≠ some 'g') :
    dropGnu ((List.replicate k "gnu".toList).flatten ++ cs) = cs := by
  induction k with
  | zero =>
    rw [List.replicate_zero, List.flatten_nil, List.nil_append, dropGnu]
    rintro rest rfl
    exact h rfl
  | succ k ih => exact ih

theorem isStandard_iff : IsStandard standard n ↔
    Version.readNat? (Nat.pow 2 32) (dropGnu (Text.trim standard)) = some n := by
  rw [Version.readNat?_eq_some_iff, IsStandard]
  constructor
  · rintro ⟨k, ds, htext, hds, hn⟩
    have hhead : ds.head? ≠ some 'g' := fun hg =>
      hds.not_mem (by decide : 'g'.isDigit = false) (List.mem_of_mem_head? hg)
    rcases htext with htext | htext <;> rw [htext]
    · exact ⟨ds, .inl (dropGnu_append k hhead), hds, hn⟩
    · exact ⟨ds, .inr (dropGnu_append k (by simp)), hds, hn⟩
  · rintro ⟨ds, htext, hds, hn⟩
    obtain ⟨k, hk⟩ := exists_dropGnu (Text.trim standard)
    refine ⟨k, ds, htext.imp (fun h => ?_) (fun h => ?_), hds, hn⟩ <;> rwa [h] at hk

theorem standardYear?_eq_some_iff (h : ∀ n, IsStandard standard n → n ≤ lastStandard) :
    standardYear? standard = some y ↔ ∃ n, IsStandard standard n ∧ year n = y := by
  rw [standardYear?, Option.map_eq_some_iff]
  refine exists_congr fun n => ?_
  rw [← isStandard_iff]
  refine and_congr_right fun hn => ?_
  have hle := h n hn
  have hyear : (if 98 ≤ n then (1900 + n) % Nat.pow 2 32 else 2000 + n) = year n := by
    rw [year]
    split
    · refine Nat.mod_eq_of_lt (Nat.lt_of_le_of_lt (Nat.add_le_add_left hle 1900) ?_)
      decide
    · rfl
  rw [hyear]

theorem standardFault_ne_none_iff (actual : Option (List Char)) (required : List Char) :
    standardFault actual required ≠ none ↔ ∃ value a b, actual = some value ∧
      standardYear? value = some a ∧ standardYear? required = some b ∧ a < b := by
  cases actual with
  | none =>
    refine iff_of_false (fun h => h rfl) ?_
    rintro ⟨_, _, _, h, -⟩
    cases h
  | some value =>
    rw [standardFault]
    split
    · rename_i a b ha hb
      split
      · rename_i hlt
        exact iff_of_true (Option.some_ne_none _) ⟨value, a, b, rfl, ha, hb, hlt⟩
      · rename_i hge
        refine iff_of_false (fun h => h rfl) ?_
        rintro ⟨_, a', b', hvalue, ha', hb', hlt⟩
        cases hvalue
        cases ha.symm.trans ha'
        cases hb.symm.trans hb'
        exact hge hlt
    · rename_i hnone
      refine iff_of_false (fun h => h rfl) ?_
      rintro ⟨_, a, b, hvalue, ha, hb, -⟩
      cases hvalue
      exact hnone a b ha hb

/-- The standard falls short exactly if it and the one required can be read, and it is older. -/
theorem standardFault_ne_none_iff_year {actual : Option (List Char)} {required : List Char}
    (hactual : ∀ value n, actual = some value → IsStandard value n → n ≤ lastStandard)
    (hrequired : ∀ n, IsStandard required n → n ≤ lastStandard) :
    standardFault actual required ≠ none ↔ ∃ value a b, actual = some value ∧
      IsStandard value a ∧ IsStandard required b ∧ year a < year b := by
  rw [standardFault_ne_none_iff]
  constructor
  · rintro ⟨value, a, b, hvalue, ha, hb, hlt⟩
    obtain ⟨n, hn, rfl⟩ := (standardYear?_eq_some_iff (hactual value · hvalue)).1 ha
    obtain ⟨k, hk, rfl⟩ := (standardYear?_eq_some_iff hrequired).1 hb
    exact ⟨value, n, k, hvalue, hn, hk, hlt⟩
  · rintro ⟨value, a, b, hvalue, ha, hb, hlt⟩
    exact ⟨value, year a, year b, hvalue,
      (standardYear?_eq_some_iff (hactual value · hvalue)).2 ⟨a, ha, rfl⟩,
      (standardYear?_eq_some_iff hrequired).2 ⟨b, hb, rfl⟩, hlt⟩

end Standards

section Values

theorem trim_of_getInside {inside : Bool} (h : getInside sec key inside ls = some v) :
    Text.trim v = v := by
  induction ls generalizing inside with
  | nil => cases h
  | cons l ls ih =>
    rw [getInside] at h
    split at h
    · split at h
      · cases h
      · exact ih h
    · split at h
      · cases h
        split
        · exact Text.trim_trim _
        · rfl
      · exact ih h

theorem trim_of_getLines (h : getLines sec key ls = some v) : Text.trim v = v := by
  induction ls with
  | nil => cases h
  | cons l ls ih =>
    rw [getLines] at h
    split at h
    · exact trim_of_getInside h
    · exact ih h

/-- Nothing is trimmed off a value that was found. -/
theorem trim_of_get (h : get sec key text = some v) : Text.trim v = v := trim_of_getLines h

end Values

/-- A compiler is too old exactly if its version, however written, has a small first number. -/
theorem compilerFault_of_spelling (version : Spelling)
    (htrim : Text.trim version.text = version.text) :
    compilerFault (some "gcc".toList) (some version.text) =
      if Version.value version.major < 9 then some (.oldCompiler version.version) else none := by
  rw [compilerFault, if_pos rfl, Option.bind_eq_bind, Option.bind_some,
    version.lenient?_text htrim]
  rfl

/-- A profile for a compiler whose version can be read, in whatever spelling, is refused if that is
too old. If it is not, the profile is refused exactly if its standard is older than the one
required. Looking at it changes nothing. -/
theorem validateProfile_of_spelling {text standard : String}
    (hread : m.files.readText m.cwd file = .ok text)
    (hcompiler : setting "compiler" text.toList = some "gcc".toList)
    (version : Spelling) (hversion : setting "compiler.version" text.toList = some version.text)
    (hactual : ∀ value n, setting "compiler.cppstd" text.toList = some value →
      IsStandard value n → n ≤ lastStandard)
    (hrequired : ∀ n, IsStandard standard.toList n → n ≤ lastStandard) :
    let r := (validateProfile file standard).run.run m
    r.2 = m ∧
      (Version.value version.major < 9 →
        r.1 = .error (.of (.badConfiguration (Shortcoming.oldCompiler version.version).text))) ∧
      (9 ≤ Version.value version.major →
        ((∃ f, r.1 = .error f) ↔ ∃ value a b, setting "compiler.cppstd" text.toList = some value ∧
          IsStandard value a ∧ IsStandard standard.toList b ∧ year a < year b)) := by
  intro r
  unfold r
  rw [run_validateProfile hread]
  have hfault := compilerFault_of_spelling version (trim_of_get hversion)
  refine ⟨rfl, fun hold => ?_, fun hnew => ?_⟩
  · rw [if_pos hold] at hfault
    rw [shortcoming?, hcompiler, hversion, hfault]
  · rw [if_neg (Nat.not_lt.2 hnew)] at hfault
    rw [shortcoming?, hcompiler, hversion, hfault,
      ← standardFault_ne_none_iff_year hactual hrequired]
    cases standardFault (setting "compiler.cppstd" text.toList) standard.toList with
    | none =>
      refine iff_of_false ?_ fun h => h rfl
      rintro ⟨_, h⟩
      cases h
    | some s => exact iff_of_true ⟨_, rfl⟩ (Option.some_ne_none s)

/-- Zeros before a number, a blank behind the third and a suffix make no difference. -/
theorem validateProfile_of_spelling_zeros :
    let version : Spelling := {
      major := "009".toList
      more := ["4".toList, "00".toList, "x y".toList]
      suffix := "-rc.1".toList
      numbers := by decide
      others := by decide
      suffix_head := by simp }
    let text := "[settings]\ncompiler=gcc\ncompiler.version = 009.4.00.x y-rc.1\n" ++
      "compiler.cppstd=gnu17\n"
    let m := Machine.ofEntries [(["p"], .file text.toUTF8 0o644)]
    Version.lenient? version.text = some ⟨9, 4, 0⟩ ∧
      ∃ f, ((validateProfile ⟨"p"⟩ "20").run.run m).1 = .error f := by
  intro version text m
  have hread : m.files.readText m.cwd ⟨"p"⟩ = .ok text := by decide +kernel
  have hcppstd : setting "compiler.cppstd" text.toList = some "gnu17".toList := by decide +kernel
  have hactual : IsStandard "gnu17".toList 17 := isStandard_iff.2 (by decide +kernel)
  have hrequired : IsStandard "20".toList 20 := isStandard_iff.2 (by decide +kernel)
  have hone {standard : List Char} {k : Nat} (hk : IsStandard standard k) (hle : k ≤ lastStandard)
      (n : Nat) (hn : IsStandard standard n) : n ≤ lastStandard := by
    rw [isStandard_iff] at hk hn
    exact Option.some.inj (hn.symm.trans hk) ▸ hle
  refine ⟨by decide +kernel, ?_⟩
  refine ((validateProfile_of_spelling hread (by decide +kernel) version (by decide +kernel)
    (fun value n hvalue hn => ?_) (hone hrequired (by decide))).2.2 (by decide +kernel)).2
    ⟨_, 17, 20, hcppstd, hactual, hrequired, by decide⟩
  cases hcppstd.symm.trans hvalue
  exact hone hactual (by decide) n hn

end ConanPipeline.Profile
