import ConanPipeline.Literal
import ConanPipeline.Proofs.Text.Trim

/-! A literal is one line, whatever its value (`one_line_encode`), and has no blanks at its
ends (`trim_encode`). -/

namespace ConanPipeline.Literal

theorem delimiter_cases (value : List Char) : delimiter value = '\'' ∨ delimiter value = '"' := by
  rw [delimiter]
  split
  · exact Or.inr rfl
  · exact Or.inl rfl

theorem hexDigit_one_line (n : Nat) : hexDigit n ≠ '\n' ∧ hexDigit n ≠ '\r' := by
  have h : ∀ m < 16, (Nat.toDigits 16 m).headD '0' ≠ '\n' ∧ (Nat.toDigits 16 m).headD '0' ≠ '\r' := by
    decide
  exact h _ (Nat.mod_lt n (by omega))

theorem hexPadded_one_line (width n : Nat) : ∀ c ∈ hexPadded width n, c ≠ '\n' ∧ c ≠ '\r' := by
  induction width generalizing n with
  | zero => simp [hexPadded]
  | succ width ih =>
    intro c hc
    rw [hexPadded, List.mem_append, List.mem_singleton] at hc
    rcases hc with hc | rfl
    · exact ih _ c hc
    · exact hexDigit_one_line n

theorem pair_one_line {l : Char} (hl : l ≠ '\n' ∧ l ≠ '\r') :
    ∀ c ∈ ['\\', l], c ≠ '\n' ∧ c ≠ '\r' := by
  rw [List.forall_mem_cons, List.forall_mem_singleton]
  exact ⟨by decide, hl⟩

theorem numbered_one_line {l : Char} (hl : l ≠ '\n' ∧ l ≠ '\r') (width n : Nat) :
    ∀ c ∈ '\\' :: l :: hexPadded width n, c ≠ '\n' ∧ c ≠ '\r' := by
  rw [List.forall_mem_cons, List.forall_mem_cons]
  exact ⟨by decide, hl, hexPadded_one_line width n⟩

theorem escape_one_line (q c : Char) : ∀ d ∈ escape q c, d ≠ '\n' ∧ d ≠ '\r' := by
  rw [escape]
  split_ifs with h1 hn hr h2 h3 h4 h5 h6
  · exact pair_one_line (by decide)
  · exact pair_one_line (by decide)
  · exact pair_one_line (by decide)
  · exact pair_one_line (by decide)
  · exact pair_one_line ⟨hn, hr⟩
  · exact numbered_one_line (by decide) 2 _
  · exact numbered_one_line (by decide) 4 _
  · exact numbered_one_line (by decide) 8 _
  · rw [List.forall_mem_singleton]
    exact ⟨hn, hr⟩

theorem one_line_encode (value : List Char) : ∀ c ∈ encode value, c ≠ '\n' ∧ c ≠ '\r' := by
  have hq : delimiter value ≠ '\n' ∧ delimiter value ≠ '\r' := by
    rcases delimiter_cases value with h | h <;> rw [h] <;> decide
  intro c hc
  rw [encode, List.cons_append, List.mem_cons, List.mem_append, List.mem_singleton] at hc
  rcases hc with rfl | hc | rfl
  · exact hq
  · obtain ⟨d, -, hd⟩ := List.mem_flatMap.1 hc
    exact escape_one_line _ d c hd
  · exact hq

theorem trim_encode (value : List Char) : Text.trim (encode value) = encode value := by
  have hq : Text.isBlank (delimiter value) = false := by
    rcases delimiter_cases value with h | h <;> rw [h] <;> decide
  rw [encode, List.cons_append, Text.trim_cons hq, Text.trimEnd_append_cons hq]
  rfl

end ConanPipeline.Literal
