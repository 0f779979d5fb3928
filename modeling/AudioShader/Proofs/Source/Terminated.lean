/-
# The line feed behind a directive

A line of a text keeps the line feed that ends it. Words, quoted texts and
comments on the line are read as if the line feed were not there: it stands for
a blank, and nothing that is open at the end of the line is closed by it. So a
request reads alike alone and as one of many lines.

Key theorems: `readTokens_break`, `readDirective_request`, `readDirective_break`,
`isContinued_request`.
-/
import AudioShader.Proofs.Source.Lexing

namespace AudioShader
namespace Text

theorem after?_concat {d : Char} : ∀ {lead : List Char} (_ : d ∉ lead) (cs : List Char),
    after? lead (cs ++ [d]) = (after? lead cs).map (· ++ [d])
  | [], _, cs => by simp [after?]
  | l :: ls, h, [] => by
    have hl : l ≠ d := fun heq => h (heq ▸ List.mem_cons_self ..)
    simp [after?, hl]
  | l :: ls, h, c :: cs => by
    have ih := after?_concat (fun hd => h (List.mem_cons_of_mem _ hd)) cs
    simp only [List.cons_append, after?]
    split
    · exact ih
    · rfl

theorem startsWith_concat {d : Char} {lead : List Char} (h : d ∉ lead) (cs : List Char) :
    startsWith lead (cs ++ [d]) = startsWith lead cs := by
  rw [startsWith, startsWith, after?_concat h, Option.isSome_map]

theorem cutAt?_concat {d m : Char} {ms : List Char} (h : d ∉ m :: ms) : ∀ cs : List Char,
    cutAt? (m :: ms) (cs ++ [d]) = (cutAt? (m :: ms) cs).map fun p => (p.1, p.2 ++ [d])
  | [] => by
    have hm : m ≠ d := fun heq => h (heq ▸ List.mem_cons_self ..)
    simp [cutAt?, after?, hm]
  | c :: cs => by
    have ih := cutAt?_concat h cs
    have hafter := after?_concat h (c :: cs)
    rw [List.cons_append] at hafter ⊢
    simp only [cutAt?, hafter, ih]
    cases after? (m :: ms) (c :: cs) with
    | some rest => rfl
    | none => cases cutAt? (m :: ms) cs <;> rfl

end Text

/-! ### Words -/

theorem opensComment_eq (cs : List Char) :
    opensComment cs = (Text.startsWith ['/', '/'] cs || Text.startsWith ['/', '*'] cs) := by
  unfold opensComment
  split
  · simp [Text.startsWith, Text.after?]
  · simp [Text.startsWith, Text.after?]
  · next h₁ h₂ =>
    cases cs with
    | nil => rfl
    | cons c cs =>
      cases cs with
      | nil => simp_all [Text.startsWith, Text.after?]
      | cons d cs =>
        simp_all [Text.startsWith, Text.after?]
        grind

theorem opensComment_break (cs : List Char) : opensComment (cs ++ ['\n']) = opensComment cs := by
  rw [opensComment_eq, opensComment_eq, Text.startsWith_concat (by decide),
    Text.startsWith_concat (by decide)]

theorem readBare_break : ∀ cs : List Char,
    readBare (cs ++ ['\n']) = ((readBare cs).1, (readBare cs).2 ++ ['\n'])
  | [] => rfl
  | c :: cs => by
    rw [List.cons_append, readBare, readBare, ← List.cons_append, opensComment_break,
      readBare_break cs]
    split <;> rfl

/-- A quoted text that is open at the end of the line stays open. -/
theorem readQuoted?_break : ∀ {cs : List Char}, '\n' ∉ cs →
    readQuoted? (cs ++ ['\n']) = (readQuoted? cs).map fun p => (p.1, p.2 ++ ['\n'])
  | [], _ => rfl
  | [c], h => by
    by_cases hq : c = '"' <;> by_cases hb : c = '\\' <;> simp_all [readQuoted?]
  | c :: e :: cs, h => by
    simp only [List.mem_cons, not_or] at h
    have hlong : readQuoted? ((e :: cs) ++ ['\n']) =
        (readQuoted? (e :: cs)).map fun p => (p.1, p.2 ++ ['\n']) :=
      readQuoted?_break (by simpa using h.2)
    have hshort := readQuoted?_break h.2.2
    rw [List.cons_append, List.cons_append, readQuoted?, readQuoted?]
    rw [List.cons_append] at hlong
    split
    · rfl
    · split
      · rfl
      · split
        · rw [hshort]
          cases readQuoted? cs <;> rfl
        · rw [hlong]
          cases readQuoted? (e :: cs) <;> rfl

/-- One step of reading words. -/
theorem readTokens_cons (c : Char) (cs : List Char) : readTokens (c :: cs) =
    if Text.isAsciiBlank c then readTokens cs
    else if c = '"' then
      match readQuoted? cs with
      | none => .error .openText
      | some (text, rest) => (readTokens rest).map (⟨String.ofList text, true⟩ :: ·)
    else if Text.startsWith ['/', '/'] (c :: cs) then .ok []
    else
      match Text.after? ['/', '*'] (c :: cs) with
      | some more =>
        match Text.cutAt? ['*', '/'] more with
        | none => .error .openComment
        | some (_, rest) => readTokens rest
      | none => (readTokens (readBare cs).2).map (⟨String.ofList (c :: (readBare cs).1), false⟩ :: ·) := by
  rw [readTokens]
  split
  · rfl
  · split
    · split <;> simp_all
    · split
      · rfl
      · split
        · split <;> simp_all
        · simp_all

/-- The words of a line are the same with its line feed. -/
theorem readTokens_break {cs : List Char} (h : '\n' ∉ cs) :
    readTokens (cs ++ ['\n']) = readTokens cs := by
  have hslash : '\n' ∉ ['/', '/'] := by decide
  have hstart : '\n' ∉ ['/', '*'] := by decide
  have hend : '\n' ∉ ['*', '/'] := by decide
  have hslashes (cs : List Char) := Text.startsWith_concat hslash cs
  have hopen (cs : List Char) := Text.after?_concat hstart cs
  have hclose (cs : List Char) := Text.cutAt?_concat hend cs
  fun_induction readTokens cs with
  | case1 => rw [List.nil_append, readTokens_cons, if_pos (by decide), readTokens]
  | case2 c cs hb ih =>
    rw [List.cons_append, readTokens_cons, if_pos hb]
    exact ih fun hm => h (List.mem_cons_of_mem _ hm)
  | case3 cs hq hb =>
    rw [List.cons_append, readTokens_cons, if_neg hb, if_pos rfl,
      readQuoted?_break fun hm => h (List.mem_cons_of_mem _ hm), hq]
    rfl
  | case4 cs text rest hq _ hb ih =>
    have hcs : '\n' ∉ cs := fun hm => h (List.mem_cons_of_mem _ hm)
    obtain ⟨-, taken, htaken⟩ := readQuoted?_split hq fun hm => hcs (List.dropLast_subset _ hm)
    have hrest : '\n' ∉ rest := fun hm => hcs (htaken ▸ List.mem_append_right _ hm)
    rw [List.cons_append, readTokens_cons, if_neg hb, if_pos rfl, readQuoted?_break hcs, hq]
    simp only [Option.map_some, ih hrest]
  | case5 c cs hb hq hs =>
    rw [List.cons_append, readTokens_cons, if_neg hb, if_neg hq, ← List.cons_append, hslashes, if_pos hs]
  | case6 c cs hb hq hs more ha hc =>
    rw [List.cons_append, readTokens_cons, if_neg hb, if_neg hq, ← List.cons_append, hslashes, if_neg hs,
      hopen, ha]
    simp only [Option.map_some, hclose, hc, Option.map_none]
  | case7 c cs hb hq hs more ha text rest hc _ _ ih =>
    have hrest : '\n' ∉ rest := by
      intro hm
      rw [Text.eq_append_of_after? ha, Text.eq_append_of_cutAt? hc] at h
      exact h (List.mem_append_right _ (List.mem_append_right _ hm))
    rw [List.cons_append, readTokens_cons, if_neg hb, if_neg hq, ← List.cons_append, hslashes, if_neg hs,
      hopen, ha]
    simp only [Option.map_some, hclose, hc, ih hrest]
  | case8 c cs hb hq hs ha word _ ih =>
    have hrest : '\n' ∉ word.2 := by
      intro hm
      rw [(readBare_split cs).2] at h
      exact h (List.mem_cons_of_mem _ (List.mem_append_right _ hm))
    rw [List.cons_append, readTokens_cons, if_neg hb, if_neg hq, ← List.cons_append, hslashes, if_neg hs,
      hopen, ha]
    simp only [Option.map_none, readBare_break]
    rw [ih hrest]

/-! ### Requests -/

/-- The line that makes a request. -/
def requestLine (request : String) : List Char := ("#request " ++ request).toList

theorem requestLine_eq (request : String) :
    requestLine request = "#request ".toList ++ request.toList := by
  rw [requestLine, String.toList_append]

/-- Behind its keyword a request line is words, the first of them the name. -/
theorem readDirective_request (cs : List Char) : readDirective ("#request ".toList ++ cs) =
    match readTokens cs with
    | .ok (name :: args) => .ok (some (.request name.text args))
    | .ok [] => .error (.malformed "request" .noRequestName)
    | .error m => .error (.malformed "request" m) := by
  have hrest : readTokens (' ' :: cs) = readTokens cs := by
    rw [readTokens_cons, if_pos (by decide)]
  have hbody : directiveBody ("#request ".toList ++ cs) = "request".toList ++ ' ' :: cs := rfl
  have hname : (directiveBody ("#request ".toList ++ cs)).takeWhile Text.isNameChar = "request".toList := by
    rw [hbody]
    rfl
  have hdrop : (directiveBody ("#request ".toList ++ cs)).dropWhile Text.isNameChar = ' ' :: cs := by
    rw [hbody]
    rfl
  unfold readDirective
  dsimp only
  rw [hname, hdrop, hrest]
  rfl

/-- A request line is read alike with its line feed. -/
theorem readDirective_break {request : String} (h : '\n' ∉ request.toList) :
    readDirective (requestLine request ++ ['\n']) = readDirective (requestLine request) := by
  rw [requestLine_eq, List.append_assoc, readDirective_request, readDirective_request,
    readTokens_break h]

/-- A request line goes on in the next one if the request ends with a backslash. -/
theorem isContinued_request (request : String) :
    isContinued (requestLine request ++ ['\n']) = isContinued request.toList := by
  rw [Lexer.isContinued_concat, if_pos (.inl rfl), requestLine_eq]
  induction request.toList using List.reverseRecOn with
  | nil => rfl
  | append_singleton cs c ih =>
    rw [← List.append_assoc, Lexer.isContinued_concat, Lexer.isContinued_concat, ih]

end AudioShader
