/-
# Cutting into lines, piece by piece

A text that ends with a line feed has as many lines as line feeds, and its lines
stay what they are whatever is written behind it. Texts without line feeds are
cut apart again when they are written on lines of their own.

Key theorems: `Text.lines_append`, `Text.length_lines`, `Text.lines_intercalate`.
-/
import Mathlib.Data.List.Basic
import AudioShader.Proofs.Source.Breaks

namespace AudioShader
namespace Text

theorem splitLines_ne_nil {cs : List Char} (h : cs ≠ []) : splitLines cs ≠ [] := by
  intro hs
  have hf := flatten_splitLines cs
  rw [hs] at hf
  exact h hf.symm

theorem endsLine_of_cons {c d : Char} {cs : List Char} (h : endsLine (c :: d :: cs) = true) :
    endsLine (d :: cs) = true := by
  simpa [endsLine, List.getLast?_cons_cons] using h

theorem splitLines_break (cs : List Char) : splitLines ('\n' :: cs) = ['\n'] :: splitLines cs := rfl

theorem splitLines_cons {c : Char} (hc : c ≠ '\n') {cs l : List Char} {ls : List (List Char)}
    (h : splitLines cs = l :: ls) : splitLines (c :: cs) = (c :: l) :: ls := by
  rw [splitLines, if_neg hc, h]

/-- What is written behind a line feed begins a line. -/
theorem splitLines_append : ∀ {a : List Char}, endsLine a = true → ∀ b,
    splitLines (a ++ b) = splitLines a ++ splitLines b
  | [], h, _ => by simp [endsLine] at h
  | [c], h, b => by
    have hc : c = '\n' := by simpa [endsLine] using h
    simp [splitLines, hc]
  | c :: d :: cs, h, b => by
    have ih := splitLines_append (endsLine_of_cons h) b
    by_cases hc : c = '\n'
    · rw [hc, List.cons_append, splitLines_break, splitLines_break, ih, List.cons_append]
    · cases hl : splitLines (d :: cs) with
      | nil => exact absurd hl (splitLines_ne_nil (by simp))
      | cons l ls =>
        rw [hl] at ih
        have hcons : splitLines (d :: cs ++ b) = l :: (ls ++ splitLines b) := ih
        rw [splitLines_cons hc hl, List.cons_append, splitLines_cons hc hcons]
        rfl

/-- The first lines of a text are the lines of what they are together. -/
theorem splitLines_flatten_take : ∀ (cs : List Char) (n : Nat),
    splitLines ((splitLines cs).take n).flatten = (splitLines cs).take n
  | _, 0 => rfl
  | [], _ + 1 => rfl
  | c :: cs, n + 1 => by
    by_cases hc : c = '\n'
    · rw [hc, splitLines_break, List.take_succ_cons, List.flatten_cons, List.singleton_append,
        splitLines_break, splitLines_flatten_take cs n]
    · cases hlines : splitLines cs with
      | nil => simp [splitLines, hc, hlines]
      | cons l ls =>
        have ih := splitLines_flatten_take cs (n + 1)
        rw [hlines, List.take_succ_cons, List.flatten_cons] at ih
        rw [splitLines_cons hc hlines, List.take_succ_cons, List.flatten_cons, List.cons_append,
          splitLines_cons hc ih]

theorem length_splitLines : ∀ {cs : List Char}, endsLine cs = true →
    (splitLines cs).length = countBreaks cs
  | [], h => by simp [endsLine] at h
  | [c], h => by
    have hc : c = '\n' := by simpa [endsLine] using h
    subst hc
    rfl
  | c :: d :: cs, h => by
    have ih := length_splitLines (endsLine_of_cons h)
    by_cases hc : c = '\n'
    · rw [hc, splitLines_break, List.length_cons, ih, countBreaks, countBreaks, List.count_cons_self]
    · have hcount : countBreaks (c :: d :: cs) = countBreaks (d :: cs) := by
        rw [countBreaks, countBreaks, List.count_cons_of_ne (by simpa using hc)]
      cases hl : splitLines (d :: cs) with
      | nil => exact absurd hl (splitLines_ne_nil (by simp))
      | cons l ls =>
        rw [splitLines_cons hc hl, hcount, ← ih, hl, List.length_cons, List.length_cons]

/-- There are no fewer lines than line feeds. -/
theorem countBreaks_le_length_splitLines : ∀ cs : List Char,
    countBreaks cs ≤ (splitLines cs).length
  | [] => Nat.le_refl _
  | c :: cs => by
    have ih := countBreaks_le_length_splitLines cs
    by_cases hc : c = '\n'
    · rw [hc, splitLines_break, List.length_cons, countBreaks, List.count_cons_self]
      exact Nat.succ_le_succ ih
    · have hcount : countBreaks (c :: cs) = countBreaks cs := by
        rw [countBreaks, countBreaks, List.count_cons_of_ne (by simpa using hc)]
      rw [hcount]
      cases hl : splitLines cs with
      | nil =>
        rw [hl] at ih
        exact ih.trans (Nat.zero_le _)
      | cons l ls =>
        rw [hl] at ih
        rw [splitLines_cons hc hl]
        exact ih

theorem splitLines_of_unbroken {w : List Char} (h : '\n' ∉ w) (hne : w ≠ []) : splitLines w = [w] := by
  induction w with
  | nil => exact absurd rfl hne
  | cons c w ih =>
    simp only [List.mem_cons, not_or] at h
    rw [splitLines, if_neg (Ne.symm h.1)]
    cases w with
    | nil => rfl
    | cons d w => rw [ih h.2 (by simp)]

theorem splitLines_line {w : List Char} (h : '\n' ∉ w) : splitLines (w ++ ['\n']) = [w ++ ['\n']] := by
  induction w with
  | nil => rfl
  | cons c w ih =>
    simp only [List.mem_cons, not_or] at h
    rw [List.cons_append, splitLines, if_neg (Ne.symm h.1), ih h.2]

/-- One line is cut into itself. -/
theorem splitLines_of_isLine {cs : List Char} (h : IsLine cs) (hne : cs ≠ []) :
    splitLines cs = [cs] := by
  by_cases hlast : cs.getLast hne = '\n'
  · have hcs := List.dropLast_concat_getLast hne
    rw [hlast] at hcs
    rw [← hcs]
    exact splitLines_line h
  · refine splitLines_of_unbroken (fun hmem => ?_) hne
    rw [← List.dropLast_concat_getLast hne, List.mem_append, List.mem_singleton] at hmem
    exact hmem.elim h (Ne.symm hlast)

/-! ### Without terminators -/

theorem chomp_line {w : List Char} (hr : w.getLast? ≠ some '\r') : chomp (w ++ ['\n']) = w := by
  rcases List.eq_nil_or_concat w with rfl | ⟨v, c, rfl⟩
  · rfl
  · have hc : c ≠ '\r' := by
      rintro rfl
      simp at hr
    simp only [chomp, List.concat_eq_append, List.reverse_append, List.reverse_cons, List.reverse_nil,
      List.nil_append, List.singleton_append]
    split
    · next heq => simp_all
    · next heq => simp_all
    · simp_all

theorem chomp_of_unbroken {w : List Char} (h : '\n' ∉ w) : chomp w = w := by
  unfold chomp
  split
  · next rest heq =>
    exact absurd (List.mem_reverse.1 (by rw [heq]; simp)) h
  · next rest heq =>
    exact absurd (List.mem_reverse.1 (by rw [heq]; simp)) h
  · rfl

/-- The lines of a text have no line feeds. -/
theorem unbroken_of_mem_lines {s : String} {w : List Char} (h : w ∈ lines s) : '\n' ∉ w := by
  obtain ⟨line, hline, rfl⟩ := List.mem_map.1 h
  obtain ⟨i, hi, rfl⟩ := List.getElem_of_mem hline
  have hl := isLine_of_cut (cut_splitLines s.toList) (List.getElem?_eq_getElem hi)
  generalize (splitLines s.toList)[i] = line at *
  unfold chomp
  split
  · next rest heq =>
    have hrev : line = rest.reverse ++ ['\r', '\n'] := by simpa using congrArg List.reverse heq
    have := hl.1
    rw [hrev] at this
    exact this.unbroken (by simp)
  · next rest _ heq =>
    have hrev : line = rest.reverse ++ ['\n'] := by simpa using congrArg List.reverse heq
    have := hl.1
    rw [hrev] at this
    exact this.unbroken (by simp)
  · next h₁ h₂ =>
    intro hm
    rcases List.eq_nil_or_concat line with rfl | ⟨front, c, rfl⟩
    · cases hm
    · rw [List.concat_eq_append] at *
      rcases List.mem_append.1 hm with hm | hm
      · exact hl.1.unbroken (by simp) hm
      · rw [List.mem_singleton] at hm
        exact h₂ front.reverse (by simp [← hm])

theorem lines_append {a : String} (h : endsLine a.toList = true) (b : String) :
    lines (a ++ b) = lines a ++ lines b := by
  rw [lines, String.toList_append, splitLines_append h, List.map_append, lines, lines]

theorem length_lines {a : String} (h : endsLine a.toList = true) :
    (lines a).length = countBreaks a.toList := by
  rw [lines, List.length_map, length_splitLines h]

/-- A text on a line of its own. -/
theorem lines_line {w : List Char} (h : '\n' ∉ w) (hr : w.getLast? ≠ some '\r') :
    lines (String.ofList (w ++ ['\n'])) = [w] := by
  rw [lines, String.toList_ofList, splitLines_line h, List.map_singleton, chomp_line hr]

/-- A line feed behind a text. -/
theorem append_break (s : String) : s ++ "\n" = String.ofList (s.toList ++ ['\n']) := by
  rw [← String.toList_inj]
  simp

theorem endsLine_append_break (s : String) : endsLine (s ++ "\n").toList = true := by
  simp [endsLine]

/-- Texts that are each on a line of its own. -/
theorem lines_unlines {ls : List String}
    (h : ∀ s ∈ ls, '\n' ∉ s.toList ∧ s.toList.getLast? ≠ some '\r') :
    lines (unlines ls) = ls.map String.toList := by
  induction ls with
  | nil => rfl
  | cons s ls ih =>
    obtain ⟨hn, hr⟩ := h s (List.mem_cons_self ..)
    have ih := ih fun s hs => h s (List.mem_cons_of_mem _ hs)
    have hcons : unlines (s :: ls) = s ++ "\n" ++ unlines ls := by
      simp only [unlines, List.map_cons, String.join_cons]
    rw [hcons, lines_append (endsLine_append_break s), append_break, lines_line hn hr, ih]
    rfl

theorem endsLine_unlines {ls : List String} (h : ls ≠ []) : endsLine (unlines ls).toList = true := by
  induction ls with
  | nil => exact absurd rfl h
  | cons s ls ih =>
    have hcons : unlines (s :: ls) = s ++ "\n" ++ unlines ls := by
      simp only [unlines, List.map_cons, String.join_cons]
    rw [hcons]
    cases ls with
    | nil => simp [unlines, endsLine]
    | cons t ls =>
      have ht := ih (by simp)
      rw [String.toList_append, endsLine_append _ (by rintro hnil; rw [hnil] at ht; cases ht), ht]

/-- Texts that are written between line feeds, the last of them not empty. -/
theorem lines_intercalate {ls : List String}
    (h : ∀ s ∈ ls, s.toList ≠ [] ∧ '\n' ∉ s.toList ∧ s.toList.getLast? ≠ some '\r') :
    lines (String.intercalate "\n" ls) = ls.map String.toList := by
  induction ls with
  | nil => rfl
  | cons s ls ih =>
    obtain ⟨hne, hn, hr⟩ := h s (List.mem_cons_self ..)
    have ih := ih fun s hs => h s (List.mem_cons_of_mem _ hs)
    cases ls with
    | nil =>
      rw [String.intercalate_singleton, lines, splitLines_of_unbroken hn hne, List.map_singleton,
        chomp_of_unbroken hn]
      rfl
    | cons t ls =>
      rw [String.intercalate_cons_cons, lines_append (endsLine_append_break s), ih, append_break,
        lines_line hn hr]
      rfl

end Text
end AudioShader
