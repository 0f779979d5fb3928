/-
# Where a text is cut

A text is cut at the first place where the mark stands, so that the mark is not in the
part in front. For a mark of one character, or of two different ones, this tells the
two parts; there are none exactly if a mark of one character is not in the text.

Key theorems: `Text.cutAt?_singleton_eq_some_iff`, `Text.cutAt?_singleton_eq_none_iff`,
`Text.cutAt?_pair_eq_some_iff`.
-/
import Mathlib.Data.List.Infix
import AudioShader.Text.Search

namespace AudioShader

theorem Text.after?_append (lead rest : List Char) : after? lead (lead ++ rest) = some rest := by
  induction lead with
  | nil => rfl
  | cons l lead ih => simp [after?, ih]

/-! ### Marks of one character -/

theorem Text.cutAt?_singleton {mark : Char} {text : List Char} (h : mark ∉ text)
    (rest : List Char) : cutAt? [mark] (text ++ mark :: rest) = some (text, rest) := by
  induction text with
  | nil => simp [cutAt?, after?]
  | cons c text ih =>
    rw [List.mem_cons, not_or] at h
    rw [List.cons_append, cutAt?, after?, if_neg h.1]
    dsimp only
    rw [ih h.2]
    rfl

theorem Text.cutAt?_singleton_eq_some_iff {mark : Char} {cs front back : List Char} :
    cutAt? [mark] cs = some (front, back) ↔ cs = front ++ mark :: back ∧ mark ∉ front := by
  constructor
  · intro h
    have hcs : cs = front ++ mark :: back := by simpa using eq_append_of_cutAt? h
    have hmem : mark ∈ cs := by simp [hcs]
    obtain ⟨first, rest, hfirst, hmark⟩ := List.eq_append_cons_of_mem hmem
    rw [hfirst, cutAt?_singleton hmark] at h
    cases h
    exact ⟨hfirst, hmark⟩
  · intro h
    rw [h.1, cutAt?_singleton h.2]

theorem Text.cutAt?_singleton_eq_none_iff {mark : Char} {cs : List Char} :
    cutAt? [mark] cs = none ↔ mark ∉ cs := by
  constructor
  · intro h hmem
    obtain ⟨front, back, hcs, hfront⟩ := List.eq_append_cons_of_mem hmem
    rw [hcs, cutAt?_singleton hfront] at h
    cases h
  · intro h
    cases hcut : cutAt? [mark] cs with
    | none => rfl
    | some parts =>
      have hcs := (cutAt?_singleton_eq_some_iff.1 hcut).1
      exact absurd (by simp [hcs]) h

/-! ### Marks of two characters -/

/-- A text is cut at the first mark, if nothing of a mark stands in front of it. -/
theorem Text.cutAt?_pair {a b : Char} (hab : a ≠ b) (rest : List Char) : ∀ {text : List Char},
    ¬[a, b] <:+: text → cutAt? [a, b] (text ++ a :: b :: rest) = some (text, rest)
  | [], _ => by simp [cutAt?, after?]
  | c :: text, h => by
    have ih := cutAt?_pair hab rest fun hi => h (hi.trans (List.suffix_cons c text).isInfix)
    have hnone : after? [a, b] (c :: (text ++ a :: b :: rest)) = none := by
      unfold after?
      split
      · next hc =>
        cases text with
        | nil => simp [after?, hab.symm]
        | cons d text =>
          have hd : b ≠ d := by
            rintro rfl
            exact h ⟨[], text, by rw [hc]; rfl⟩
          simp [after?, hd]
      · rfl
    rw [List.cons_append, cutAt?, hnone, ih]
    rfl

/-- The mark stands nowhere in front of the first place where it stands. -/
theorem Text.not_infix_of_cutAt? {mark : List Char} (hmark : mark ≠ []) :
    ∀ {cs front back : List Char}, cutAt? mark cs = some (front, back) → ¬mark <:+: front
  | [], front, back, h => by
    obtain ⟨rest, hrest, -⟩ := Option.map_eq_some_iff.1 h
    have hnil := List.append_eq_nil_iff.1 (eq_append_of_after? hrest).symm
    exact absurd hnil.1 hmark
  | c :: cs, front, back, h => by
    have hcs := eq_append_of_cutAt? h
    unfold cutAt? at h
    split at h
    · cases h
      exact fun hinfix => hmark (List.infix_nil.1 hinfix)
    · next hnone =>
      obtain ⟨⟨behind, _⟩, hbehind, hfront⟩ := Option.map_eq_some_iff.1 h
      cases hfront
      rw [List.infix_cons_iff, not_or]
      refine ⟨?_, not_infix_of_cutAt? hmark hbehind⟩
      -- in front it would have been found before
      rintro ⟨more, hmore⟩
      rw [hcs, ← hmore, List.append_assoc, List.append_assoc, after?_append] at hnone
      cases hnone

theorem Text.cutAt?_pair_eq_some_iff {a b : Char} (hab : a ≠ b) {cs front back : List Char} :
    cutAt? [a, b] cs = some (front, back) ↔ cs = front ++ a :: b :: back ∧ ¬[a, b] <:+: front := by
  constructor
  · intro h
    have hcs : cs = front ++ a :: b :: back := by simpa using eq_append_of_cutAt? h
    exact ⟨hcs, not_infix_of_cutAt? (by simp) h⟩
  · intro h
    rw [h.1, cutAt?_pair hab _ h.2]

end AudioShader
