/-
# Written words are read back

The words of a request are written bare or in double quotes, with blanks and closed
comments between them and a comment behind them. However they are written, they are
read back as they are: the escapes of a quoted text undo each other, and a bare word
holds nothing that it could be cut at.

Key definitions: `Token.written`, `Token.Writable`, `Separator`, `SpacedWord`.
Key theorems: `readQuoted?_escaped`, `readTokens_written`, `written_request_is_read_back`.
-/
import AudioShader.Proofs.Source.Terminated
import AudioShader.Proofs.Text.Cuts
import AudioShader.Proofs.Text.Letters

namespace AudioShader

/-! ### How words are written -/

/-- A character of a quoted text as it is written. -/
def escaped (c : Char) : List Char :=
  if c ∈ ['\\', '"', '\r'] then ['\\', c] else [c]

/-- A text that can be written as a bare word. -/
structure IsBareWord (cs : List Char) : Prop where
  ne_nil : cs ≠ []
  blankless : ∀ c ∈ cs, Text.isAsciiBlank c = false
  unquoted : cs.head? ≠ some '"'
  lineless : ¬['/', '/'] <:+: cs
  blockless : ¬['/', '*'] <:+: cs

instance (cs : List Char) : Decidable (IsBareWord cs) :=
  decidable_of_iff (cs ≠ [] ∧ (cs.all fun c => !Text.isAsciiBlank c) = true ∧ cs.head? ≠ some '"' ∧
      ¬['/', '/'] <:+: cs ∧ ¬['/', '*'] <:+: cs) (by
    rw [List.all_eq_true]
    simp only [Bool.not_eq_true']
    exact ⟨fun ⟨h₁, h₂, h₃, h₄, h₅⟩ => ⟨h₁, h₂, h₃, h₄, h₅⟩,
      fun ⟨h₁, h₂, h₃, h₄, h₅⟩ => ⟨h₁, h₂, h₃, h₄, h₅⟩⟩)

namespace Token

/-- A word as it is written. -/
def written (t : Token) : List Char :=
  if t.quoted then '"' :: (t.text.toList.flatMap escaped ++ ['"']) else t.text.toList

/-- A word that can be written on a line. -/
def Writable (t : Token) : Prop :=
  if t.quoted then '\n' ∉ t.text.toList else IsBareWord t.text.toList

instance (t : Token) : Decidable t.Writable :=
  inferInstanceAs (Decidable (if t.quoted then '\n' ∉ t.text.toList else IsBareWord t.text.toList))

end Token

/-- Spaces, tabs and closed comments. -/
inductive Gap : List Char → Prop
  | nil : Gap []
  | blank {c cs} : c ∈ [' ', '\t'] → Gap cs → Gap (c :: cs)
  | comment {text cs} : ¬['*', '/'] <:+: text → Gap cs →
      Gap ('/' :: '*' :: (text ++ '*' :: '/' :: cs))

/-- What stands in front of a word: a blank, and more of them and comments. -/
inductive Separator : List Char → Prop
  | mk {c gap} : c ∈ [' ', '\t'] → Gap gap → Separator (c :: gap)

/-- A word with what stands in front of it. -/
structure SpacedWord where
  separator : List Char
  word : Token
  separates : Separator separator
  writable : word.Writable

/-- What stands behind the last word: the end of the line or a comment. -/
inductive LineRest : List Char → Prop
  | ending {cs} : cs ∈ [[], ['\n'], ['\r', '\n']] → LineRest cs
  | comment {separator text} : Separator separator → LineRest (separator ++ '/' :: '/' :: text)

/-- Words as they are written one after the other. -/
def writeWords (words : List SpacedWord) : List Char :=
  words.flatMap fun w => w.separator ++ w.word.written

theorem writeWords_cons (w : SpacedWord) (words : List SpacedWord) (rest : List Char) :
    writeWords (w :: words) ++ rest = w.separator ++ (w.word.written ++ (writeWords words ++ rest)) := by
  simp only [writeWords, List.flatMap_cons, List.append_assoc]

/-! ### Blanks in front -/

/-- A text goes on with a blank, or not at all. -/
def BlankFirst (cs : List Char) : Prop := ∀ c ∈ cs.head?, Text.isAsciiBlank c = true

theorem isAsciiBlank_of_mem {c : Char} (h : c ∈ [' ', '\t']) : Text.isAsciiBlank c = true := by
  simp only [List.mem_cons, List.not_mem_nil, or_false] at h
  rcases h with rfl | rfl <;> rfl

theorem Separator.blankFirst {cs : List Char} (h : Separator cs) (rest : List Char) :
    BlankFirst (cs ++ rest) := by
  obtain ⟨hc, -⟩ := h
  rintro _ ⟨⟩
  exact isAsciiBlank_of_mem hc

theorem LineRest.blankFirst {cs : List Char} (h : LineRest cs) : BlankFirst cs := by
  cases h with
  | ending h =>
    simp only [List.mem_cons, List.not_mem_nil, or_false] at h
    rcases h with rfl | rfl | rfl
    · nofun
    · rintro _ ⟨⟩
      rfl
    · rintro _ ⟨⟩
      rfl
  | comment h => exact h.blankFirst _

theorem blankFirst_writeWords (words : List SpacedWord) {rest : List Char} (h : BlankFirst rest) :
    BlankFirst (writeWords words ++ rest) := by
  cases words with
  | nil => exact h
  | cons w words =>
    rw [writeWords_cons]
    exact w.separates.blankFirst _

/-! ### Reading gaps -/

theorem readTokens_blank {c : Char} (h : Text.isAsciiBlank c = true) (cs : List Char) :
    readTokens (c :: cs) = readTokens cs := by
  rw [readTokens_cons, if_pos h]

/-- A closed comment is passed over. -/
theorem readTokens_block {text : List Char} (h : ¬['*', '/'] <:+: text) (rest : List Char) :
    readTokens ('/' :: '*' :: (text ++ '*' :: '/' :: rest)) = readTokens rest := by
  have hline : ¬Text.startsWith ['/', '/'] ('/' :: '*' :: (text ++ '*' :: '/' :: rest)) = true := by
    simp [Text.startsWith, Text.after?]
  have hopen : Text.after? ['/', '*'] ('/' :: '*' :: (text ++ '*' :: '/' :: rest)) =
      some (text ++ '*' :: '/' :: rest) := by simp [Text.after?]
  rw [readTokens_cons, if_neg (by decide), if_neg (by decide), if_neg hline, hopen]
  simp only [Text.cutAt?_pair (by decide) _ h]

/-- A comment of the line takes what follows. -/
theorem readTokens_line (text : List Char) : readTokens ('/' :: '/' :: text) = .ok [] := by
  have hline : Text.startsWith ['/', '/'] ('/' :: '/' :: text) = true := by
    simp [Text.startsWith, Text.after?]
  rw [readTokens_cons, if_neg (by decide), if_neg (by decide), if_pos hline]

/-- No words are read in a gap. -/
theorem readTokens_gap {gap : List Char} (h : Gap gap) (rest : List Char) :
    readTokens (gap ++ rest) = readTokens rest := by
  induction h with
  | nil => rfl
  | blank hc _ ih => rw [List.cons_append, readTokens_blank (isAsciiBlank_of_mem hc), ih]
  | comment htext _ ih =>
    rw [List.cons_append, List.cons_append, List.append_assoc, List.cons_append, List.cons_append,
      readTokens_block htext, ih]

theorem readTokens_separator {separator : List Char} (h : Separator separator) (rest : List Char) :
    readTokens (separator ++ rest) = readTokens rest := by
  obtain ⟨hc, hgap⟩ := h
  rw [List.cons_append, readTokens_blank (isAsciiBlank_of_mem hc), readTokens_gap hgap]

theorem readTokens_lineRest {cs : List Char} (h : LineRest cs) : readTokens cs = .ok [] := by
  cases h with
  | ending h =>
    simp only [List.mem_cons, List.not_mem_nil, or_false] at h
    rcases h with rfl | rfl | rfl
    · rw [readTokens]
    · rw [readTokens_blank rfl, readTokens]
    · rw [readTokens_blank rfl, readTokens_blank rfl, readTokens]
  | comment h => rw [readTokens_separator h, readTokens_line]

/-! ### Reading words -/

theorem readQuoted?_quote (cs : List Char) : readQuoted? ('"' :: cs) = some ([], cs) := by
  rw [readQuoted?.eq_def]
  rfl

theorem readQuoted?_escape (c : Char) (cs : List Char) :
    readQuoted? ('\\' :: c :: cs) = (readQuoted? cs).map fun p => (c :: p.1, p.2) := by
  rw [readQuoted?.eq_def]
  rfl

theorem readQuoted?_plain {c : Char} (h : c ∉ ['\\', '"', '\r', '\n']) (cs : List Char) :
    readQuoted? (c :: cs) = (readQuoted? cs).map fun p => (c :: p.1, p.2) := by
  simp only [List.mem_cons, List.not_mem_nil, or_false, not_or] at h
  obtain ⟨hslash, hquote, hreturn, hfeed⟩ := h
  rw [readQuoted?.eq_def]
  dsimp only
  rw [if_neg hquote, if_neg (not_or.2 ⟨hfeed, hreturn⟩), if_neg hslash]

/-- The escapes of a quoted text are undone where it is read. -/
theorem readQuoted?_escaped (rest : List Char) : ∀ {text : List Char}, '\n' ∉ text →
    readQuoted? (text.flatMap escaped ++ '"' :: rest) = some (text, rest)
  | [], _ => readQuoted?_quote rest
  | c :: text, h => by
    simp only [List.mem_cons, not_or] at h
    have ih := readQuoted?_escaped rest h.2
    rw [List.flatMap_cons, List.append_assoc, escaped]
    split
    · rw [List.cons_append, List.cons_append, List.nil_append, readQuoted?_escape, ih]
      rfl
    · next hc =>
      have hplain : c ∉ ['\\', '"', '\r', '\n'] := by
        have hfeed := Ne.symm h.1
        simp_all
      rw [List.cons_append, List.nil_append, readQuoted?_plain hplain, ih]
      rfl

/-- A quoted text is one word. -/
theorem readTokens_quoted {text : List Char} (h : '\n' ∉ text) (rest : List Char) :
    readTokens ('"' :: (text.flatMap escaped ++ '"' :: rest)) =
      (readTokens rest).map (⟨String.ofList text, true⟩ :: ·) := by
  rw [readTokens_cons, if_neg (by decide), if_pos rfl]
  simp only [readQuoted?_escaped rest h]

theorem opensComment_iff {cs : List Char} : opensComment cs = true ↔
    ['/', '/'] <+: cs ∨ ['/', '*'] <+: cs := by
  constructor
  · intro h
    unfold opensComment at h
    split at h
    · exact .inl ⟨_, rfl⟩
    · exact .inr ⟨_, rfl⟩
    · cases h
  · rintro (⟨_, rfl⟩ | ⟨_, rfl⟩) <;> rfl

/-- A mark of two characters that is not in a word is not at its end either, if a blank
follows. -/
theorem not_isPrefix_word {mark c : Char} {cs rest : List Char} (h : ¬['/', mark] <:+: c :: cs)
    (hmark : Text.isAsciiBlank mark = false) (hrest : BlankFirst rest) :
    ¬['/', mark] <+: c :: (cs ++ rest) := by
  intro hpre
  rw [List.cons_prefix_cons] at hpre
  obtain ⟨rfl, hpre⟩ := hpre
  cases cs with
  | nil =>
    cases rest with
    | nil => simp at hpre
    | cons d rest =>
      rw [List.nil_append, List.cons_prefix_cons] at hpre
      rw [hpre.1, hrest d rfl] at hmark
      cases hmark
  | cons d cs =>
    rw [List.cons_append, List.cons_prefix_cons] at hpre
    exact h ⟨[], cs, by rw [hpre.1]; rfl⟩

/-- No comment begins in a bare word, nor at its end. -/
theorem opensComment_word {c : Char} {cs rest : List Char} (hline : ¬['/', '/'] <:+: c :: cs)
    (hblock : ¬['/', '*'] <:+: c :: cs) (hrest : BlankFirst rest) :
    opensComment (c :: (cs ++ rest)) = false := by
  rw [← Bool.not_eq_true, opensComment_iff, not_or]
  exact ⟨not_isPrefix_word hline rfl hrest, not_isPrefix_word hblock rfl hrest⟩

theorem readBare_word {rest : List Char} (hrest : BlankFirst rest) : ∀ {cs : List Char},
    (∀ c ∈ cs, Text.isAsciiBlank c = false) → ¬['/', '/'] <:+: cs → ¬['/', '*'] <:+: cs →
      readBare (cs ++ rest) = (cs, rest)
  | [], _, _, _ => by
    cases rest with
    | nil => rfl
    | cons c rest =>
      rw [List.nil_append, readBare, hrest c rfl]
      rfl
  | c :: cs, hblank, hline, hblock => by
    have htail := (List.suffix_cons c cs).isInfix
    have ih := readBare_word hrest (fun d hd => hblank d (List.mem_cons_of_mem c hd))
      (fun h => hline (h.trans htail)) fun h => hblock (h.trans htail)
    rw [List.cons_append, readBare, hblank c (List.mem_cons_self ..),
      opensComment_word hline hblock hrest, ih]
    rfl

/-- A written word is read back. -/
theorem readTokens_word {t : Token} (ht : t.Writable) {rest : List Char} (hrest : BlankFirst rest) :
    readTokens (t.written ++ rest) = (readTokens rest).map (t :: ·) := by
  obtain ⟨text, quoted⟩ := t
  cases quoted with
  | true =>
    have hbreak : '\n' ∉ text.toList := ht
    have hwritten : Token.written ⟨text, true⟩ ++ rest =
        '"' :: (text.toList.flatMap escaped ++ '"' :: rest) := by
      simp [Token.written]
    rw [hwritten, readTokens_quoted hbreak, String.ofList_toList]
  | false =>
    obtain ⟨hne, hblank, hquote, hline, hblock⟩ : IsBareWord text.toList := ht
    have hwritten : Token.written ⟨text, false⟩ = text.toList := rfl
    rw [hwritten]
    cases htext : text.toList with
    | nil => exact absurd htext hne
    | cons c cs =>
      rw [htext] at hblank hquote hline hblock
      have hc : c ≠ '"' := fun hc => hquote (congrArg some hc)
      have hopen := opensComment_word hline hblock hrest
      rw [opensComment_eq, Bool.or_eq_false_iff] at hopen
      have hstar : Text.after? ['/', '*'] (c :: (cs ++ rest)) = none := by
        simpa [Text.startsWith] using hopen.2
      have htail := (List.suffix_cons c cs).isInfix
      have hbare := readBare_word hrest (fun d hd => hblank d (List.mem_cons_of_mem c hd))
        (fun h => hline (h.trans htail)) fun h => hblock (h.trans htail)
      rw [List.cons_append, readTokens_cons, hblank c (List.mem_cons_self ..), if_neg Bool.false_ne_true,
        if_neg hc, hopen.1, if_neg Bool.false_ne_true, hstar, hbare]
      simp only [← htext, String.ofList_toList]

/-- Written words are read back. -/
theorem readTokens_written (words : List SpacedWord) {rest : List Char} (hrest : LineRest rest) :
    readTokens (writeWords words ++ rest) = .ok (words.map (·.word)) := by
  induction words with
  | nil => exact readTokens_lineRest hrest
  | cons w words ih =>
    rw [writeWords_cons, readTokens_separator w.separates,
      readTokens_word w.writable (blankFirst_writeWords words hrest.blankFirst), ih]
    rfl

/-! ### Request lines -/

/-- **A request is read back as it is written.** On the line of a request each word,
the name and the arguments, may be written bare, if it is one word without a comment in
it, or in double quotes, with a backslash in front of each character that would end it.
Whatever blanks and closed comments are written between the words, and whatever
comment behind the last one, the request is read with this name, and with these
arguments in their order, each with its text and with whether it is quoted. -/
theorem written_request_is_read_back (name : SpacedWord) (args : List SpacedWord)
    (rest : List Char) (hrest : LineRest rest) :
    readDirective ("#request".toList ++ (writeWords (name :: args) ++ rest)) =
      .ok (some (.request name.word.text (args.map (·.word)))) := by
  have hwords := readTokens_written (name :: args) hrest
  have hhead : ∀ c ∈ (writeWords (name :: args) ++ rest).head?, Text.isNameChar c = false := by
    intro c hc
    rw [writeWords_cons] at hc
    have hblank := Text.isBlank_of_isAsciiBlank c (name.separates.blankFirst _ c hc)
    by_contra hname
    rw [Bool.not_eq_false] at hname
    rw [isBlank_eq_false_of_isNameChar hname] at hblank
    cases hblank
  have hbody : directiveBody ("#request".toList ++ (writeWords (name :: args) ++ rest)) =
      "request".toList ++ (writeWords (name :: args) ++ rest) := rfl
  have hkeyword : ∀ c ∈ "request".toList, Text.isNameChar c = true :=
    List.all_eq_true.1 (by decide)
  obtain ⟨htake, hdrop⟩ := Text.takeWhile_run hkeyword hhead
  unfold readDirective
  dsimp only
  rw [hbody, htake, hdrop, hwords]
  rfl

/-- The name `title` behind a space. -/
def titleName : SpacedWord where
  separator := [' ']
  word := ⟨"title", false⟩
  separates := .mk (by decide) .nil
  writable := by decide

/-- The argument `"say \"hi\""` behind a tab. -/
def sayArgument : SpacedWord where
  separator := ['\t']
  word := ⟨"say \"hi\"", true⟩
  separates := .mk (by decide) .nil
  writable := by decide

/-- The argument `1/2` behind a comment. -/
def halfArgument : SpacedWord where
  separator := " /* */".toList
  word := ⟨"1/2", false⟩
  separates := .mk (by decide) (.comment (show ¬['*', '/'] <:+: [' '] by decide) .nil)
  writable := by decide

/-- Words of both kinds, a comment between two of them and one at the end. -/
theorem written_title_is_read_back :
    readDirective "#request title\t\"say \\\"hi\\\"\" /* */1/2 // half".toList =
      .ok (some (.request "title" [⟨"say \"hi\"", true⟩, ⟨"1/2", false⟩])) := by
  have hrest : LineRest " // half".toList := .comment (.mk (by decide) .nil)
  have hread := written_request_is_read_back titleName [sayArgument, halfArgument] _ hrest
  refine (congrArg readDirective ?_).trans hread
  decide +kernel

end AudioShader
