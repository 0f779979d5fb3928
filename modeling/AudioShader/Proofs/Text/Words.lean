/-
# Numbers and words in texts

A number that fits a machine word is read back from its digits, and words that
are written with blanks between them are cut apart again.

Key theorems: `readWord64?_toString`, `words_append`.
-/
import Mathlib.Data.List.Basic
import AudioShader.Number.Reading
import AudioShader.Uniform.Declaration

namespace AudioShader

/-! ### Numbers -/

theorem toList_toString (n : Nat) : (toString n).toList = Nat.toDigits 10 n := by
  rw [Nat.toString_eq_repr, Nat.toList_repr]

theorem isDigit_of_mem_toString {n : Nat} {c : Char} (h : c ∈ (toString n).toList) :
    c.isDigit = true := by
  rw [toList_toString] at h
  exact Nat.isDigit_of_mem_toDigits (by omega) (by omega) h

theorem toString_ne_nil (n : Nat) : (toString n).toList ≠ [] := by
  rw [toList_toString]
  exact Nat.toDigits_ne_nil

theorem le_ofDigitChars (cs : List Char) (n : Nat) : n ≤ Nat.ofDigitChars 10 cs n := by
  induction cs generalizing n with
  | nil => simp
  | cons c cs ih =>
    rw [Nat.ofDigitChars_cons]
    have := ih (10 * n + (c.toNat - '0'.toNat))
    omega

theorem readDigits_eq_ok {limit : Nat} {excess : IntFault} {cs : List Char} {n : Nat}
    (hd : ∀ c ∈ cs, c.isDigit = true) (hle : Nat.ofDigitChars 10 cs n ≤ limit) :
    readDigits limit excess n cs = .ok (Nat.ofDigitChars 10 cs n) := by
  induction cs generalizing n with
  | nil => simp [readDigits]
  | cons c cs ih =>
    have hc := hd c (List.mem_cons_self ..)
    rw [Nat.ofDigitChars_cons] at hle ⊢
    have hmono := le_ofDigitChars cs (10 * n + digitValue c)
    rw [readDigits, if_neg (by simp [hc]), if_neg (by rw [digitValue] at *; omega)]
    exact ih (fun c hc => hd c (List.mem_cons_of_mem _ hc)) hle

/-- A number that fits a word is read back. -/
theorem readWord64?_toString {n : Nat} (h : n < UInt64.size) :
    readWord64? (toString n).toList = some n := by
  have hall : ∀ c ∈ (toString n).toList, c.isDigit = true := fun c hc => isDigit_of_mem_toString hc
  have hval : Nat.ofDigitChars 10 (toString n).toList 0 = n := by
    rw [toList_toString, Nat.ofDigitChars_ten_toDigits]
  have hread := @readDigits_eq_ok (UInt64.size - 1) .tooLarge _ 0 hall (by rw [hval]; omega)
  rw [hval] at hread
  unfold readWord64?
  cases hcs : (toString n).toList with
  | nil => exact absurd hcs (toString_ne_nil n)
  | cons c cs =>
    have hc : c ≠ '+' := by
      rintro rfl
      exact absurd (hall '+' (by rw [hcs]; simp)) (by decide)
    rw [hcs] at hread
    split
    · next heq =>
      cases heq
      exact absurd rfl hc
    · dsimp only
      rw [List.isEmpty_cons, if_neg Bool.false_ne_true, hread]
      rfl

/-! ### Words -/

namespace Text

theorem splitAt_of_not_mem {separator : Char} {w : List Char} (h : separator ∉ w) :
    splitAt separator w = [w] := by
  induction w with
  | nil => rfl
  | cons c w ih =>
    simp only [List.mem_cons, not_or] at h
    rw [splitAt, if_neg (Ne.symm h.1), ih h.2]

theorem splitAt_append {separator : Char} {w : List Char} (h : separator ∉ w) (cs : List Char) :
    splitAt separator (w ++ separator :: cs) = w :: splitAt separator cs := by
  induction w with
  | nil => simp [splitAt]
  | cons c w ih =>
    simp only [List.mem_cons, not_or] at h
    rw [List.cons_append, splitAt, if_neg (Ne.symm h.1), ih h.2]

/-- What stands behind the last separator is the last part. -/
theorem splitAt_concat {separator : Char} {w : List Char} (h : separator ∉ w) :
    ∀ cs : List Char, splitAt separator (cs ++ separator :: w) = splitAt separator cs ++ [w]
  | [] => by simp [splitAt, splitAt_of_not_mem h]
  | c :: cs => by
    have ih := splitAt_concat h cs
    by_cases hc : c = separator
    · simp [splitAt, hc, ih]
    · obtain ⟨part, parts, hparts⟩ := List.exists_cons_of_ne_nil (splitAt_ne_nil separator cs)
      rw [hparts] at ih
      simp [splitAt, hc, ih, hparts]

theorem mem_of_mem_splitAt {separator : Char} : ∀ {cs w : List Char} {c : Char},
    w ∈ splitAt separator cs → c ∈ w → c ∈ cs ∧ c ≠ separator
  | [], w, c, hw, hc => by
    rw [splitAt, List.mem_singleton] at hw
    rw [hw] at hc
    cases hc
  | d :: cs, w, c, hw, hc => by
    rw [splitAt] at hw
    split at hw
    · rcases List.mem_cons.1 hw with rfl | hw
      · cases hc
      · have ih := mem_of_mem_splitAt hw hc
        exact ⟨List.mem_cons_of_mem _ ih.1, ih.2⟩
    · next hd =>
      split at hw
      · rw [List.mem_singleton.1 hw, List.mem_singleton] at hc
        subst hc
        exact ⟨List.mem_cons_self .., hd⟩
      · next part parts hs =>
        rcases List.mem_cons.1 hw with rfl | hw
        · rcases List.mem_cons.1 hc with rfl | hc
          · exact ⟨List.mem_cons_self .., hd⟩
          · have ih := mem_of_mem_splitAt (by rw [hs]; exact List.mem_cons_self ..) hc
            exact ⟨List.mem_cons_of_mem _ ih.1, ih.2⟩
        · have ih := mem_of_mem_splitAt (by rw [hs]; exact List.mem_cons_of_mem _ hw) hc
          exact ⟨List.mem_cons_of_mem _ ih.1, ih.2⟩

end Text

/-- A text without blanks, and with something in it. -/
structure IsWord (w : List Char) : Prop where
  ne_nil : w ≠ []
  blankless : ∀ c ∈ w, Text.isBlank c = false

namespace IsWord

theorem map_eq {w : List Char} (h : IsWord w) :
    w.map (fun c => if Text.isBlank c then ' ' else c) = w := by
  have hm : w.map (fun c => if Text.isBlank c then ' ' else c) = w.map id :=
    List.map_congr_left fun c hc => by simp [h.blankless c hc]
  rw [hm, List.map_id]

theorem space_not_mem {w : List Char} (h : IsWord w) : ' ' ∉ w := by
  intro hm
  exact absurd (h.blankless _ hm) (by decide)

end IsWord

theorem isBlank_eq_false_of_isDigit {c : Char} (h : c.isDigit = true) : Text.isBlank c = false := by
  simp only [Char.isDigit, Bool.and_eq_true, decide_eq_true_eq, ge_iff_le] at h
  obtain ⟨hlo, hhi⟩ := h
  have h₁ : 48 ≤ c.toNat := by simpa [UInt32.le_iff_toNat_le] using hlo
  have h₂ : c.toNat ≤ 57 := by simpa [UInt32.le_iff_toNat_le] using hhi
  simp only [Text.isBlank, Bool.or_eq_false_iff, Bool.and_eq_false_iff, decide_eq_false_iff_not,
    beq_eq_false_iff_ne]
  omega

theorem isWord_toString (n : Nat) : IsWord (toString n).toList where
  ne_nil := toString_ne_nil n
  blankless _ hc := isBlank_eq_false_of_isDigit (isDigit_of_mem_toString hc)

theorem isWord_of_mem_words {cs w : List Char} (h : w ∈ words cs) : IsWord w := by
  rw [words, List.mem_filter] at h
  refine ⟨by simpa using h.2, fun c hc => ?_⟩
  obtain ⟨hm, hne⟩ := Text.mem_of_mem_splitAt h.1 hc
  obtain ⟨d, -, rfl⟩ := List.mem_map.1 hm
  split
  · next hb => exact absurd (if_pos hb) hne
  · next hb => simpa using hb

/-- A declared name has no blanks. -/
theorem blankless_of_declared? {cs : List Char} {type : ValueType} {name : String}
    (h : declared? cs = some (type, name)) : ∀ c ∈ name.toList, Text.isBlank c = false := by
  unfold declared? typeAndWord? at h
  split at h
  · cases h
  · next rest hr =>
    split at h
    · next t w ws hw =>
      have hmem : w ∈ words rest := by
        have : w ∈ (words rest).filter fun w => !isPrecision w := by rw [hw]; simp
        exact (List.mem_filter.1 this).1
      cases ht : ValueType.ofName? (String.ofList t) with
      | none => rw [ht] at h; cases h
      | some type' =>
        simp only [ht, Option.map_some, Option.bind_eq_bind, Option.bind_some] at h
        split at h
        · cases h
        · cases h
          intro c hc
          rw [String.toList_ofList] at hc
          have hc := List.mem_reverse.1 ((List.takeWhile_subset _) hc)
          exact (isWord_of_mem_words hmem).blankless c
            (List.mem_reverse.1 ((List.dropWhile_sublist _).subset hc))
    · cases h

theorem words_cons_blank (cs : List Char) : words (' ' :: cs) = words cs := by
  simp [words, Text.splitAt, Text.isBlank]

theorem words_singleton {w : List Char} (h : IsWord w) : words w = [w] := by
  rw [words, h.map_eq, Text.splitAt_of_not_mem h.space_not_mem]
  simp [h.ne_nil]

/-- A word with a blank behind it is the first one. -/
theorem words_append {w : List Char} (h : IsWord w) (cs : List Char) :
    words (w ++ ' ' :: cs) = w :: words cs := by
  have hb : Text.isBlank ' ' = true := by decide
  rw [words, List.map_append, List.map_cons, h.map_eq, if_pos hb,
    Text.splitAt_append h.space_not_mem, List.filter_cons_of_pos (by simp [h.ne_nil]), words]

end AudioShader
