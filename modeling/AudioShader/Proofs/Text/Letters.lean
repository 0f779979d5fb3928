/-
# Characters of names

A name is made of letters, digits and underscores. None of them is a blank. A run
of characters of one class is read up to the first one that is not of it.

Key theorems: `Text.isNameChar_iff`, `isBlank_eq_false_of_isNameChar`,
`isNameChar_of_isName`, `Text.takeWhile_run`, `Text.head?_dropWhile`.
-/
import AudioShader.Text.Blank

namespace AudioShader

theorem Text.isNameChar_iff {c : Char} : Text.isNameChar c = true ↔
    65 ≤ c.toNat ∧ c.toNat ≤ 90 ∨ 97 ≤ c.toNat ∧ c.toNat ≤ 122 ∨ 48 ≤ c.toNat ∧ c.toNat ≤ 57 ∨
      c = '_' := by
  have hdef : Text.isNameChar c = (decide (65 ≤ c.val ∧ c.val ≤ 90) ||
      (decide (97 ≤ c.val) && decide (c.val ≤ 122)) ||
      (decide (48 ≤ c.val) && decide (c.val ≤ 57)) || c == '_') := rfl
  simp [hdef, UInt32.le_iff_toNat_le, or_assoc]

theorem isBlank_eq_false_of_isNameChar {c : Char} (h : Text.isNameChar c = true) :
    Text.isBlank c = false := by
  rw [Text.isNameChar_iff] at h
  simp only [Text.isBlank, Bool.or_eq_false_iff, Bool.and_eq_false_iff, decide_eq_false_iff_not,
    beq_eq_false_iff_ne]
  rcases h with h | h | h | rfl
  · omega
  · omega
  · omega
  · decide

/-- A name begins with what names begin with. -/
theorem isName_cons {s : String} (h : Text.isName s = true) :
    ∃ c cs, s.toList = c :: cs ∧ Text.isNameStart c = true := by
  unfold Text.isName at h
  split at h
  · cases h
  · next c cs hs =>
    rw [Bool.and_eq_true] at h
    exact ⟨c, cs, hs, h.1⟩

theorem isNameChar_of_isName {s : String} (h : Text.isName s = true) :
    ∀ c ∈ s.toList, Text.isNameChar c = true := by
  unfold Text.isName at h
  split at h
  · cases h
  · next c cs hs =>
    rw [Bool.and_eq_true, List.all_eq_true] at h
    rw [hs]
    exact List.forall_mem_cons.2 ⟨Text.isNameChar_of_isNameStart c h.1, h.2⟩

/-! ### Runs -/

/-- A run of characters is read up to the first other one. -/
theorem Text.takeWhile_run {p : Char → Bool} {run rest : List Char} (hrun : ∀ c ∈ run, p c = true)
    (hrest : ∀ c ∈ rest.head?, p c = false) :
    (run ++ rest).takeWhile p = run ∧ (run ++ rest).dropWhile p = rest := by
  rw [List.takeWhile_append_of_pos hrun, List.dropWhile_append_of_pos hrun]
  cases rest with
  | nil => exact ⟨List.append_nil _, rfl⟩
  | cons c cs =>
    have hc : ¬p c = true := by simp [hrest c rfl]
    rw [List.takeWhile_cons_of_neg hc, List.dropWhile_cons_of_neg hc]
    exact ⟨List.append_nil _, rfl⟩

/-- What follows a run is not of its class. -/
theorem Text.head?_dropWhile (p : Char → Bool) (cs : List Char) :
    ∀ c ∈ (cs.dropWhile p).head?, p c = false := by
  intro c hc
  have hnot := List.head?_dropWhile_not p cs
  rw [Option.mem_def.1 hc] at hnot
  simpa using hnot

end AudioShader
