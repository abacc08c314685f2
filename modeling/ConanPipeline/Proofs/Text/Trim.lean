import ConanPipeline.Text.Blank
import Mathlib.Data.List.Induction

/-! What trimming keeps. A line ending is blank, so a line trims to the same text with its
terminator and without (`trim_unterminated`), and nothing is taken off a text between two
characters that are not blank (`trimEnd_append_cons`). -/

namespace ConanPipeline.Text

theorem trimStart_cons {c : Char} (h : isBlank c = false) (cs : List Char) :
    trimStart (c :: cs) = c :: cs := by
  simp [trimStart, h]

theorem isBlank_of_trimStart {cs r : List Char} {c : Char} (h : trimStart cs = c :: r) :
    isBlank c = false := by
  have hd := List.head?_dropWhile_not isBlank cs
  rw [show cs.dropWhile isBlank = c :: r from h] at hd
  simpa using hd

theorem trimEnd_append_of_blank {c : Char} (h : isBlank c = true) (cs : List Char) :
    trimEnd (cs ++ [c]) = trimEnd cs := by
  simp [trimEnd, h]

/-- Trimming at the end stops at a character that is not blank. -/
theorem trimEnd_append_cons {c : Char} (h : isBlank c = false) (a b : List Char) :
    trimEnd (a ++ c :: b) = a ++ c :: trimEnd b := by
  have hr : (a ++ c :: b).reverse = b.reverse ++ c :: a.reverse := by simp
  rw [trimEnd, hr, List.dropWhile_append]
  split
  · rename_i hb
    rw [List.dropWhile_cons_of_neg (by simp [h]), trimEnd, List.isEmpty_iff.1 hb]
    simp
  · simp [trimEnd]

theorem trimEnd_isPrefix (cs : List Char) : trimEnd cs <+: cs := by
  have h := List.dropWhile_suffix isBlank (l := cs.reverse)
  rw [← List.reverse_prefix] at h
  simpa [trimEnd] using h

theorem trim_infix (cs : List Char) : trim cs <:+: cs :=
  (trimEnd_isPrefix _).isInfix.trans (List.dropWhile_suffix _).isInfix

theorem trim_cons {c : Char} (h : isBlank c = false) (cs : List Char) :
    trim (c :: cs) = c :: trimEnd cs := by
  rw [trim, trimStart_cons h]
  exact trimEnd_append_cons h [] cs

theorem isBlank_of_trim {cs r : List Char} {c : Char} (h : trim cs = c :: r) :
    isBlank c = false := by
  obtain ⟨t, ht⟩ := trimEnd_isPrefix (trimStart cs)
  rw [show trimEnd (trimStart cs) = c :: r from h] at ht
  exact isBlank_of_trimStart ht.symm

theorem trim_append_of_blank {c : Char} (h : isBlank c = true) (cs : List Char) :
    trim (cs ++ [c]) = trim cs := by
  rw [trim, trimStart, List.dropWhile_append]
  split
  · rename_i he
    rw [trim, trimStart, List.isEmpty_iff.1 he]
    simp [h]
  · exact trimEnd_append_of_blank h _

theorem trim_trimEnd (cs : List Char) : trim (trimEnd cs) = trim cs := by
  induction cs using List.reverseRecOn with
  | nil => rfl
  | append_singleton cs c ih =>
    cases h : isBlank c with
    | true => rw [trimEnd_append_of_blank h, ih, trim_append_of_blank h]
    | false => rw [trimEnd_append_cons h]; rfl

theorem trim_trim (cs : List Char) : trim (trim cs) = trim cs := by
  have hstart : trimStart (trimStart cs) = trimStart cs := by
    cases h : trimStart cs with
    | nil => rfl
    | cons c r => exact trimStart_cons (isBlank_of_trimStart h) r
  calc trim (trim cs) = trim (trimStart cs) := trim_trimEnd _
    _ = trim cs := congrArg trimEnd hstart

theorem trim_append_newline (cs : List Char) : trim (cs ++ ['\n']) = trim cs :=
  trim_append_of_blank (by decide) cs

/-- A line and what `\n` or `\r\n` ends it trim to the same text. -/
theorem trim_unterminated (l : List Char) : trim (unterminated l) = trim l := by
  have hl : l = l.reverse.reverse := l.reverse_reverse.symm
  rw [unterminated]
  split
  · rename_i rest h
    rw [hl, h, List.reverse_cons, List.reverse_cons, trim_append_newline,
      trim_append_of_blank (by decide)]
  · rename_i rest h
    rw [hl, h, List.reverse_cons, trim_append_newline]
  · rfl

end ConanPipeline.Text
