/-
# The two spellings of an include

The path of an include stands in angle brackets or in double quotes. In quotes it is one
word, and the rest of the line is read as words, so that nothing but blanks and comments
may follow. Behind the closing angle bracket nothing is read, and everything may follow.

Key definitions: `Ignorable`, `IsTarget`, `angledInclude`, `quotedInclude`.
Key theorems: `readTokens_eq_nil_iff`, `readTarget_angled`, `readTarget_quoted`,
`include_spellings`.
-/
import AudioShader.Proofs.Source.Arguments

namespace AudioShader

/-! ### Text without words -/

/-- Blanks and closed comments, and at the end perhaps a comment of the line. -/
inductive Ignorable : List Char → Prop
  | nil : Ignorable []
  | blank {c cs} : Text.isAsciiBlank c = true → Ignorable cs → Ignorable (c :: cs)
  | block {text cs} : ¬['*', '/'] <:+: text → Ignorable cs →
      Ignorable ('/' :: '*' :: (text ++ '*' :: '/' :: cs))
  | line (text) : Ignorable ('/' :: '/' :: text)

theorem readTokens_ignorable {cs : List Char} (h : Ignorable cs) : readTokens cs = .ok [] := by
  induction h with
  | nil => rw [readTokens]
  | blank hc _ ih => rw [readTokens_blank hc, ih]
  | block htext _ ih => rw [readTokens_block htext, ih]
  | line text => exact readTokens_line text

theorem map_cons_ne_nil {ε α : Type} (r : Except ε (List α)) (a : α) :
    r.map (a :: ·) ≠ .ok [] := by
  cases r <;> nofun

theorem ignorable_of_readTokens {cs : List Char} (h : readTokens cs = .ok []) : Ignorable cs := by
  fun_induction readTokens cs with
  | case1 => exact .nil
  | case2 c cs hblank ih => exact .blank hblank (ih h)
  | case3 | case6 => cases h
  | case4 | case8 => exact absurd h (map_cons_ne_nil _ _)
  | case5 c cs _ _ hline =>
    obtain ⟨text, htext⟩ := Option.isSome_iff_exists.1 hline
    rw [Text.eq_append_of_after? htext]
    exact .line text
  | case7 c cs _ _ _ more hmore text rest hrest _ _ ih =>
    obtain ⟨hsplit, htext⟩ := (Text.cutAt?_pair_eq_some_iff (by decide)).1 hrest
    rw [Text.eq_append_of_after? hmore, hsplit]
    exact .block htext (ih h)

/-- **No words are read just where there are only blanks and comments.** -/
theorem readTokens_eq_nil_iff {cs : List Char} : readTokens cs = .ok [] ↔ Ignorable cs :=
  ⟨ignorable_of_readTokens, readTokens_ignorable⟩

/-! ### Targets -/

/-- A path that can be written in either way. -/
structure IsTarget (target : List Char) : Prop where
  ne_nil : target ≠ []
  trimmed : Text.trim target = target
  plain : ∀ c ∈ target, c ∉ ['<', '>', '"', '\\', '\n', '\r']

/-- An include line with its path in angle brackets, and what follows. -/
def angledInclude (target rest : List Char) : List Char :=
  "#include ".toList ++ '<' :: (target ++ '>' :: rest)

/-- An include line with its path in double quotes, and what follows. -/
def quotedInclude (target rest : List Char) : List Char :=
  "#include ".toList ++ '"' :: (target ++ '"' :: rest)

/-- Behind its keyword an include line is a target. -/
theorem readDirective_include (cs : List Char) : readDirective ("#include ".toList ++ cs) =
    match readTarget (' ' :: cs) with
    | .ok target => .ok (some (.includeFile target))
    | .error m => .error (.malformed "include" m) := by
  have hbody : directiveBody ("#include ".toList ++ cs) = "include".toList ++ ' ' :: cs := rfl
  have hname : (directiveBody ("#include ".toList ++ cs)).takeWhile Text.isNameChar =
      "include".toList := by
    rw [hbody]
    rfl
  have hdrop : (directiveBody ("#include ".toList ++ cs)).dropWhile Text.isNameChar = ' ' :: cs := by
    rw [hbody]
    rfl
  unfold readDirective
  dsimp only
  rw [hname, hdrop]
  rfl

section Spellings

variable {target : List Char} (h : IsTarget target) (rest : List Char)

include h

theorem IsTarget.flatMap_escaped : target.flatMap escaped = target := by
  have hplain : ∀ c ∈ target, escaped c = [c] := by
    intro c hc
    have hmarks := h.plain c hc
    have hnot : c ∉ ['\\', '"', '\r'] := by simp_all
    exact if_neg hnot
  calc target.flatMap escaped = target.flatMap fun c => [c] := List.flatMap_congr hplain
    _ = target := List.flatMap_singleton' target

/-- In angle brackets the path is read whatever follows. -/
theorem readTarget_angled :
    readTarget (' ' :: '<' :: (target ++ '>' :: rest)) = .ok (String.ofList target) := by
  have hclose : '>' ∉ target := fun hc => absurd (h.plain _ hc) (by decide)
  have htrim : Text.trimStart (' ' :: '<' :: (target ++ '>' :: rest)) =
      '<' :: (target ++ '>' :: rest) := rfl
  unfold readTarget
  rw [htrim]
  simp only [Text.cutAt?_singleton hclose, h.trimmed, if_neg h.ne_nil]

/-- In double quotes the path is read if no words follow. -/
theorem readTarget_quoted : readTarget (' ' :: '"' :: (target ++ '"' :: rest)) =
    match readTokens rest with
    | .ok [] => .ok (String.ofList target)
    | .ok _ => .error .notOnePath
    | .error m => .error m := by
  have hline : '\n' ∉ target := fun hc => absurd (h.plain _ hc) (by decide)
  have htrim : Text.trimStart (' ' :: '"' :: (target ++ '"' :: rest)) =
      '"' :: (target ++ '"' :: rest) := rfl
  have hword : readTokens (' ' :: '"' :: (target ++ '"' :: rest)) =
      (readTokens rest).map (⟨String.ofList target, true⟩ :: ·) := by
    rw [readTokens_blank rfl, ← readTokens_quoted hline rest, h.flatMap_escaped]
  have hfilled : String.ofList target ≠ "" := by
    intro hempty
    exact h.ne_nil (String.ofList_eq_empty_iff.1 hempty)
  unfold readTarget
  rw [htrim, hword]
  cases readTokens rest with
  | error m => rfl
  | ok words =>
    cases words with
    | nil => exact if_neg hfilled
    | cons word words => rfl

end Spellings

/-- **The two spellings agree just where nothing but blanks and comments follows.** A path
in angle brackets is read whatever follows it on the line. In double quotes it is the same
path if only blanks, closed comments and a comment of the line follow; otherwise the line
is malformed. -/
theorem include_spellings {target : List Char} (h : IsTarget target) (rest : List Char) :
    readDirective (angledInclude target rest) = .ok (some (.includeFile (String.ofList target))) ∧
    (Ignorable rest ∧ readDirective (quotedInclude target rest) =
        .ok (some (.includeFile (String.ofList target))) ∨
      ¬Ignorable rest ∧ ∃ m, readDirective (quotedInclude target rest) =
        .error (.malformed "include" m)) := by
  unfold angledInclude quotedInclude
  rw [readDirective_include, readDirective_include, readTarget_angled h, readTarget_quoted h,
    ← readTokens_eq_nil_iff]
  refine ⟨rfl, ?_⟩
  cases readTokens rest with
  | error m => exact .inr ⟨nofun, m, rfl⟩
  | ok words =>
    cases words with
    | nil => exact .inl ⟨rfl, rfl⟩
    | cons word words => exact .inr ⟨nofun, .notOnePath, rfl⟩

/-- The include of a file `a` with a comment behind it. -/
theorem include_spellings_commented :
    IsTarget ['a'] ∧ Ignorable " // b".toList ∧
      readDirective (angledInclude ['a'] " // b".toList) = .ok (some (.includeFile "a")) ∧
      readDirective (quotedInclude ['a'] " // b".toList) = .ok (some (.includeFile "a")) := by
  have htarget : IsTarget ['a'] := ⟨by decide, by decide, by simp⟩
  have hignorable : Ignorable " // b".toList := .blank rfl (.line " b".toList)
  obtain ⟨hangled, hquoted | hquoted⟩ := include_spellings htarget " // b".toList
  · exact ⟨htarget, hignorable, hangled, hquoted.2⟩
  · exact absurd hignorable hquoted.1

/-- A word behind the path is passed over in one spelling and refused in the other. -/
theorem spellings_differ :
    readDirective (angledInclude ['a'] " b".toList) = .ok (some (.includeFile "a")) ∧
      readDirective (quotedInclude ['a'] " b".toList) =
        .error (.malformed "include" .notOnePath) := by
  decide +kernel

end AudioShader
