import ConanPipeline.Proofs.Text.Trim
import Mathlib.Data.List.Basic

/-! Lists of lines as texts. Lines that have their terminators are the spans of the text
they make up (`spans_closed`), and the spans of a text are such lines (`closed_spans`). -/

namespace ConanPipeline.Text

/-- A line with or without its terminator: not empty, and `\n` nowhere but at its end. -/
def IsSpan (l : List Char) : Prop := l ≠ [] ∧ '\n' ∉ l.dropLast

/-- The line with a terminator at its end. -/
def terminated (l : List Char) : List Char := if l.getLast? = some '\n' then l else l ++ ['\n']

/-- Terminates every line but the last. -/
def closed : List (List Char) → List (List Char)
  | [] => []
  | [l] => [l]
  | l :: l' :: ls => terminated l :: closed (l' :: ls)

@[simp] theorem trim_terminated (l : List Char) : trim (terminated l) = trim l := by
  rw [terminated]
  split
  · rfl
  · exact trim_append_newline l

theorem terminated_of_ended {l : List Char} (h : l.getLast? = some '\n') : terminated l = l :=
  if_pos h

theorem getLast?_terminated (l : List Char) : (terminated l).getLast? = some '\n' := by
  rw [terminated]
  split <;> simp_all

theorem isSpan_append_newline {l : List Char} (h : '\n' ∉ l) : IsSpan (l ++ ['\n']) :=
  ⟨by simp, by simpa using h⟩

theorem IsSpan.not_mem {l : List Char} (h : IsSpan l) (he : l.getLast? ≠ some '\n') :
    '\n' ∉ l := by
  rw [← List.dropLast_concat_getLast h.1, List.mem_append, List.mem_singleton, not_or]
  refine ⟨h.2, fun hl => he ?_⟩
  rw [List.getLast?_eq_some_getLast h.1, ← hl]

theorem isSpan_terminated {l : List Char} (h : IsSpan l) : IsSpan (terminated l) := by
  rw [terminated]
  split
  · exact h
  · rename_i he
    exact isSpan_append_newline (h.not_mem he)

theorem closed_cons {ls : List (List Char)} (h : ls ≠ []) (l : List Char) :
    closed (l :: ls) = terminated l :: closed ls := by
  cases ls with
  | nil => exact absurd rfl h
  | cons l' ls => rfl

/-- Closing terminates every line if the last one has its terminator. -/
theorem closed_concat {l : List Char} (hl : l.getLast? = some '\n') (ls : List (List Char)) :
    closed (ls ++ [l]) = (ls ++ [l]).map terminated := by
  induction ls with
  | nil => simp [closed, terminated_of_ended hl]
  | cons l' ls ih => rw [List.cons_append, closed_cons (by simp), ih, List.map_cons]

@[simp] theorem length_closed (ls : List (List Char)) : (closed ls).length = ls.length := by
  induction ls with
  | nil => rfl
  | cons l ls ih => cases ls <;> simp_all [closed]

/-- A list of lines is closed when all but its last have their terminators. -/
theorem closed_cons_eq_self {l : List Char} {ls : List (List Char)} :
    closed (l :: ls) = l :: ls ↔ (ls ≠ [] → l.getLast? = some '\n') ∧ closed ls = ls := by
  cases ls with
  | nil => simp [closed]
  | cons l' ls =>
    simp only [closed, List.cons.injEq, ne_eq, reduceCtorEq, not_false_eq_true, forall_const]
    refine and_congr_left fun _ => ⟨fun h => ?_, terminated_of_ended⟩
    rw [← h]
    exact getLast?_terminated l

/-- Two lists of lines that differ by closing look the same through a function of what the
lines trim to. -/
theorem map_trim_closed (ls : List (List Char)) : (closed ls).map trim = ls.map trim := by
  induction ls with
  | nil => rfl
  | cons l ls ih => cases ls <;> simp_all [closed]

theorem spans_append {l : List Char} (h : IsSpan l) (he : l.getLast? = some '\n')
    (cs : List Char) : spans (l ++ cs) = l :: spans cs := by
  obtain ⟨b, rfl⟩ := List.getLast?_eq_some_iff.1 he
  have hb : '\n' ∉ b := by simpa using h.2
  clear h he
  induction b with
  | nil => simp [spans]
  | cons c b ih =>
    simp only [List.mem_cons, not_or] at hb
    rw [List.cons_append, List.cons_append, spans, if_neg (Ne.symm hb.1), ih hb.2]

theorem spans_of_isSpan {l : List Char} (h : IsSpan l) : spans l = [l] := by
  by_cases he : l.getLast? = some '\n'
  · simpa [spans] using spans_append h he []
  · have hn := h.not_mem he
    obtain ⟨c, cs, rfl⟩ := List.exists_cons_of_ne_nil h.1
    clear h he
    induction cs generalizing c with
    | nil => simp [spans]
    | cons d cs ih =>
      simp only [List.mem_cons, not_or] at hn
      rw [spans, if_neg (Ne.symm hn.1), ih d (by simpa using hn.2)]

/-- Closed lines are the spans of their text. -/
theorem spans_closed {ls : List (List Char)} (h : ∀ l ∈ ls, IsSpan l) :
    spans (closed ls).flatten = closed ls := by
  induction ls with
  | nil => rfl
  | cons l ls ih =>
    rw [List.forall_mem_cons] at h
    cases ls with
    | nil => simpa [closed] using spans_of_isSpan h.1
    | cons l' ls =>
      rw [closed, List.flatten_cons, spans_append (isSpan_terminated h.1) (getLast?_terminated l),
        ih h.2]

theorem isSpan_of_mem_spans {cs : List Char} : ∀ l ∈ spans cs, IsSpan l := by
  induction cs with
  | nil => simp [spans]
  | cons c cs ih =>
    rw [spans]
    split
    · rename_i hc
      rw [List.forall_mem_cons]
      exact ⟨by simp [IsSpan], ih⟩
    · rename_i hc
      split
      · simp [IsSpan]
      · rename_i l ls hs
        rw [hs, List.forall_mem_cons] at ih
        obtain ⟨⟨hne, hl⟩, ih⟩ := ih
        rw [List.forall_mem_cons]
        refine ⟨⟨by simp, ?_⟩, ih⟩
        rw [List.dropLast_cons_of_ne_nil hne, List.mem_cons, not_or]
        exact ⟨Ne.symm hc, hl⟩

theorem closed_spans (cs : List Char) : closed (spans cs) = spans cs := by
  induction cs with
  | nil => rfl
  | cons c cs ih =>
    rw [spans]
    split
    · rename_i hc
      rw [closed_cons_eq_self]
      exact ⟨fun _ => by simp [hc], ih⟩
    · split
      · rfl
      · rename_i l ls hs
        rw [hs, closed_cons_eq_self] at ih
        rw [closed_cons_eq_self]
        refine ⟨fun h => ?_, ih.2⟩
        obtain ⟨b, rfl⟩ := List.getLast?_eq_some_iff.1 (ih.1 h)
        exact List.getLast?_eq_some_iff.2 ⟨c :: b, rfl⟩

/-- More lines go after a text on lines of their own. -/
theorem flatten_closed_append {ls tail : List (List Char)} (h : ∀ l ∈ ls, IsSpan l)
    (hs : closed ls = ls) (ht : tail ≠ []) :
    (closed (ls ++ tail)).flatten = ls.flatten ++
      (if ls.flatten.isEmpty || ls.flatten.getLast? == some '\n' then [] else ['\n']) ++
        (closed tail).flatten := by
  induction ls with
  | nil => simp
  | cons l ls ih =>
    rw [List.forall_mem_cons] at h
    obtain ⟨he, hs⟩ := closed_cons_eq_self.1 hs
    rw [List.cons_append, closed_cons (by simp [ht]), List.flatten_cons]
    cases ls with
    | nil =>
      have hl : l.isEmpty = false := by simpa using h.1.1
      simp only [List.nil_append, terminated, List.flatten_cons, List.flatten_nil,
        List.append_nil, hl, Bool.false_or, beq_iff_eq]
      split <;> simp
    | cons l' ls =>
      obtain ⟨b, hb⟩ := List.getLast?_eq_some_iff.1 (he (by simp))
      have hne : l' ≠ [] := (h.2 l' (by simp)).1
      rw [ih h.2 hs, terminated_of_ended (he (by simp)), List.flatten_cons (l := l),
        List.getLast?_append_of_ne_nil l (by simp [hne])]
      simp [hne, hb]

theorem cutAt_append {c : Char} {a : List Char} (h : c ∉ a) (b : List Char) :
    cutAt c (a ++ c :: b) = some (a, b) := by
  induction a with
  | nil => simp [cutAt]
  | cons x a ih =>
    simp only [List.mem_cons, not_or] at h
    rw [List.cons_append, cutAt, if_neg (Ne.symm h.1), ih h.2]
    rfl

theorem cutAt_of_not_mem {c : Char} {cs : List Char} (h : c ∉ cs) : cutAt c cs = none := by
  induction cs with
  | nil => rfl
  | cons x cs ih =>
    simp only [List.mem_cons, not_or] at h
    rw [cutAt, if_neg (Ne.symm h.1), ih h.2]
    rfl

theorem not_mem_of_cutAt {c : Char} {cs : List Char} (h : cutAt c cs = none) : c ∉ cs := by
  induction cs with
  | nil => simp
  | cons x cs ih =>
    rw [cutAt] at h
    split at h
    · cases h
    · rename_i hx
      rw [Option.map_eq_none_iff] at h
      simp [Ne.symm hx, ih h]

section Stop

variable {α : Type} {p : α → Bool} {a b : List α}

theorem takeWhile_append_stop (ha : ∀ c ∈ a, p c = true) (hb : ∀ c ∈ b.head?, p c = false) :
    (a ++ b).takeWhile p = a := by
  rw [List.takeWhile_append_of_pos ha]
  cases b with
  | nil => simp
  | cons c b => simp [hb c rfl]

theorem dropWhile_append_stop (ha : ∀ c ∈ a, p c = true) (hb : ∀ c ∈ b.head?, p c = false) :
    (a ++ b).dropWhile p = b := by
  rw [List.dropWhile_append_of_pos ha]
  cases b with
  | nil => rfl
  | cons c b => simp [hb c rfl]

theorem head?_dropWhile_stop (p : α → Bool) (cs : List α) :
    ∀ c ∈ (cs.dropWhile p).head?, p c = false := by
  intro c hc
  have h := List.head?_dropWhile_not p cs
  rw [Option.mem_def] at hc
  rw [hc] at h
  simpa using h

end Stop

end ConanPipeline.Text
