/-
# Searching and cutting text

Where a word stands in a text, and the text cut there or at every occurrence
of a separator.

Key definitions: `after?`, `startsWith`, `holds`, `cutAt?`, `splitAt`.
-/

namespace AudioShader
namespace Text

/-- What follows `lead`, if the text starts with it. -/
def after? : (lead cs : List Char) → Option (List Char)
  | [], cs => some cs
  | _ :: _, [] => none
  | l :: ls, c :: cs => if l = c then after? ls cs else none

theorem eq_append_of_after? : ∀ {lead cs rest : List Char},
    after? lead cs = some rest → cs = lead ++ rest
  | [], _, _, h => by simpa [after?] using h
  | _ :: _, [], _, h => by simp [after?] at h
  | l :: ls, c :: cs, rest, h => by
    simp only [after?] at h
    split at h
    · next hlc => rw [hlc, List.cons_append, ← eq_append_of_after? h]
    · simp at h

/-- Whether the text starts with `lead`. -/
def startsWith (lead cs : List Char) : Bool := (after? lead cs).isSome

/-- Whether the text holds `word` somewhere. -/
def holds (word : List Char) : List Char → Bool
  | [] => word.isEmpty
  | c :: cs => startsWith word (c :: cs) || holds word cs

/-- The text before and after the first place where `mark` stands. -/
def cutAt? (mark : List Char) : List Char → Option (List Char × List Char)
  | [] => (after? mark []).map fun rest => ([], rest)
  | c :: cs =>
    match after? mark (c :: cs) with
    | some rest => some ([], rest)
    | none => (cutAt? mark cs).map fun p => (c :: p.1, p.2)

theorem eq_append_of_cutAt? {mark : List Char} : ∀ {cs front back : List Char},
    cutAt? mark cs = some (front, back) → cs = front ++ mark ++ back
  | [], front, back, h => by
    simp only [cutAt?, Option.map_eq_some_iff, Prod.mk.injEq] at h
    obtain ⟨rest, hr, rfl, rfl⟩ := h
    simpa using eq_append_of_after? hr
  | c :: cs, front, back, h => by
    unfold cutAt? at h
    split at h
    · next rest hr =>
      simp only [Option.some.injEq, Prod.mk.injEq] at h
      obtain ⟨rfl, rfl⟩ := h
      simpa using eq_append_of_after? hr
    · simp only [Option.map_eq_some_iff, Prod.mk.injEq] at h
      obtain ⟨⟨f, b⟩, hp, rfl, rfl⟩ := h
      simp [eq_append_of_cutAt? hp]

/-- The parts of a text between the occurrences of a separator; there is always
one part more than there are separators. -/
def splitAt (separator : Char) : List Char → List (List Char)
  | [] => [[]]
  | c :: cs =>
    if c = separator then [] :: splitAt separator cs
    else
      match splitAt separator cs with
      | [] => [[c]]
      | part :: parts => (c :: part) :: parts

/-- Texts written one after the other with a separator between them. -/
def joinWith (separator : Char) : List (List Char) → List Char
  | [] => []
  | [part] => part
  | part :: parts => part ++ separator :: joinWith separator parts

theorem splitAt_ne_nil (separator : Char) : ∀ cs : List Char, splitAt separator cs ≠ []
  | [] => by simp [splitAt]
  | c :: cs => by
    unfold splitAt
    split
    · simp
    · split <;> simp

/-- Cutting at a separator and writing it back between the parts loses nothing. -/
theorem joinWith_splitAt (separator : Char) : ∀ cs : List Char,
    joinWith separator (splitAt separator cs) = cs
  | [] => rfl
  | c :: cs => by
    have ih := joinWith_splitAt separator cs
    unfold splitAt
    split
    · next h =>
      cases hs : splitAt separator cs with
      | nil => exact absurd hs (splitAt_ne_nil separator cs)
      | cons p ps => rw [hs] at ih; simp [joinWith, ih, h]
    · cases hs : splitAt separator cs with
      | nil => exact absurd hs (splitAt_ne_nil separator cs)
      | cons p ps =>
        rw [hs] at ih
        cases ps with
        | nil => simpa [joinWith] using ih
        | cons q qs => simp only [joinWith] at ih ⊢; simp [ih]

end Text
end AudioShader
