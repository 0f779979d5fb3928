/-
# Directive lines read byte by byte

The keyword of a directive, the name of a definition, the path of an include and the
words of a request can be cut out of the line at positions that are found by its bytes.
They are what is read by characters: a word ends at a blank or a slash, a quoted text at
a quote and a comment at its mark, and none of these is among the bytes of a character
above ASCII.

Key definitions: `Bytewise.wordAt`, `Bytewise.wordsFrom`, `Bytewise.directive`.
Key theorems: `Bytewise.wordsFrom_eq`, `Bytewise.directive_eq`.
-/
import AudioShader.Proofs.Action
import AudioShader.Proofs.Source.Arguments
import AudioShader.Proofs.Text.Bytes

namespace AudioShader
namespace Bytewise

open Text (bytes size cut)

/-! ### Words -/

/-- Reads behind an opening quote up to the closing one, `offset` bytes of the text being
read: the quoted text and how many bytes are read behind the closing quote. -/
def quotedAt? : (offset : Nat) → List Char → Option (List Char × Nat)
  | _, [] => none
  | offset, c :: cs =>
    if c = '"' then some ([], offset + 1)
    else if c = '\n' ∨ c = '\r' then none
    else if c = '\\' then
      match cs with
      | [] => none
      | e :: rest => (quotedAt? (offset + 1 + e.utf8Size) rest).map fun p => (e :: p.1, p.2)
    else (quotedAt? (offset + c.utf8Size) cs).map fun p => (c :: p.1, p.2)

/-- What stands at a position among the words of a line. -/
inductive WordFinding where
  /-- There are no more words. -/
  | finish
  /-- Up to `stop` there is no word. -/
  | skip (stop : Nat)
  | word (word : Token) (stop : Nat)

/-- The position behind what is found. -/
def WordFinding.stop? : WordFinding → Option Nat
  | .finish => none
  | .skip stop => some stop
  | .word _ stop => some stop

/-- An unquoted word goes on over what is neither a blank nor the beginning of a comment. -/
def overWord (_ : Unit) (b : Char) (behind : Option Char) : Option Unit :=
  if Text.isAsciiBlank b ∨ b = '/' ∧ (behind = some '/' ∨ behind = some '*') then none
  else some ()

/-- What stands at position `i`, told by the byte `b` there and the one behind it. -/
def wordByte (input : List Char) (i : Nat) (b : Char) (behind : Option Char) :
    Except (Slip Malformed) WordFinding :=
  if Text.isAsciiBlank b then .ok (.skip (i + 1))
  else if b = '/' ∧ behind = some '/' then .ok .finish
  else if b = '/' ∧ behind = some '*' then do
    let more ← cut input (i + 2) (size input)
    match Text.cutAt? ['*', '/'] more with
    | none => .error (.fault .openComment)
    | some (inner, _) => .ok (.skip (i + 2 + size inner + 2))
  else if b = '"' then do
    let more ← cut input (i + 1) (size input)
    match quotedAt? 0 more with
    | none => .error (.fault .openText)
    | some (text, offset) => .ok (.word ⟨String.ofList text, true⟩ (i + 1 + offset))
  else do
    let stop ← Text.extent overWord input () i
    let text ← cut input i stop
    return .word ⟨String.ofList text, false⟩ stop

/-- What stands at position `i`: nothing, if that is behind the text. -/
def wordAt (input : List Char) (i : Nat) : Except (Slip Malformed) WordFinding :=
  if i < size input then do
    let b ← Text.byteAt input i
    wordByte input i b (bytes input)[i + 1]?
  else .ok .finish

theorem wordAt_of_le {input : List Char} {i : Nat} (h : size input ≤ i) :
    wordAt input i = .ok .finish := if_neg (Nat.not_lt.2 h)

/-- In the text, its bytes from the position on tell what is found. -/
theorem wordAt_of_drop {input : List Char} {i : Nat} {b : Char} {bs : List Char}
    (h : (bytes input).drop i = b :: bs) : wordAt input i = wordByte input i b bs.head? := by
  obtain ⟨hlt, hbyte, hbehind⟩ := Text.byteAt_of_drop (ε := Malformed) h
  rw [wordAt, if_pos hlt, hbyte, hbehind]
  rfl

theorem opensComment_cons_iff {c : Char} {cs : List Char} : opensComment (c :: cs) = true ↔
    c = '/' ∧ (cs.head? = some '/' ∨ cs.head? = some '*') := by
  constructor
  · intro h
    unfold opensComment at h
    split at h
    · next heq =>
      cases heq
      exact ⟨rfl, .inl rfl⟩
    · next heq =>
      cases heq
      exact ⟨rfl, .inr rfl⟩
    · cases h
  · rintro ⟨rfl, hhead | hhead⟩
    · obtain ⟨ds, rfl⟩ := List.head?_eq_some_iff.1 hhead
      rfl
    · obtain ⟨ds, rfl⟩ := List.head?_eq_some_iff.1 hhead
      rfl

theorem runOf_overWord (cs : List Char) : Text.runOf overWord () cs = (readBare cs).1 := by
  induction cs with
  | nil => rfl
  | cons c cs ih =>
    have hstops : (Text.isAsciiBlank c || opensComment (c :: cs)) = true ↔
        Text.isAsciiBlank c = true ∨ c = '/' ∧ (cs.head? = some '/' ∨ cs.head? = some '*') := by
      rw [Bool.or_eq_true, opensComment_cons_iff]
    rw [Text.runOf, overWord, readBare]
    by_cases hstop : (Text.isAsciiBlank c || opensComment (c :: cs)) = true
    · rw [if_pos (hstops.1 hstop), if_pos hstop]
    · rw [if_neg (hstops.not.1 hstop), if_neg hstop]
      exact congrArg (c :: ·) ih

/-- A word goes on with what is neither a blank nor the beginning of a comment. -/
theorem readBare_cons {c : Char} {cs : List Char} (hblank : Text.isAsciiBlank c = false)
    (hopen : opensComment (c :: cs) = false) :
    readBare (c :: cs) = (c :: (readBare cs).1, (readBare cs).2) := by
  rw [readBare, hblank, hopen]
  rfl

/-- What a word can begin with. -/
def BeginsWord : List Char → Prop
  | [] => False
  | c :: cs => Text.isAsciiBlank c = false ∧ opensComment (c :: cs) = false ∧ c ≠ '"'

/-- What can stand in front of the words that are still to be read, or as the first one. -/
theorem beginning_cases (c : Char) (cs : List Char) :
    Text.isAsciiBlank c = true ∨ c = '"' ∨ (c = '/' ∧ ∃ more, cs = '/' :: more) ∨
      (c = '/' ∧ ∃ more, cs = '*' :: more) ∨ BeginsWord (c :: cs) := by
  by_cases hblank : Text.isAsciiBlank c = true
  · exact .inl hblank
  by_cases hquote : c = '"'
  · exact .inr (.inl hquote)
  by_cases hopen : opensComment (c :: cs) = true
  · obtain ⟨hc, hhead | hhead⟩ := opensComment_cons_iff.1 hopen
    · exact .inr (.inr (.inl ⟨hc, List.head?_eq_some_iff.1 hhead⟩))
    · exact .inr (.inr (.inr (.inl ⟨hc, List.head?_eq_some_iff.1 hhead⟩)))
  · exact .inr (.inr (.inr (.inr ⟨by simpa using hblank, by simpa using hopen, hquote⟩)))

/-- At a word, what is found is the word. -/
theorem wordAt_of_beginsWord {input : List Char} {i : Nat} {b : Char} {bs : List Char}
    (hdrop : (bytes input).drop i = b :: bs) (h : BeginsWord (b :: bs)) : wordAt input i = do
      let text ← cut input i (i + (readBare (b :: bs)).1.length)
      return .word ⟨String.ofList text, false⟩ (i + (readBare (b :: bs)).1.length) := by
  obtain ⟨hblank, hopen, hquote⟩ := h
  rw [← Bool.not_eq_true, opensComment_cons_iff] at hopen
  have hline : ¬(b = '/' ∧ bs.head? = some '/') := fun ⟨hb, hnext⟩ => hopen ⟨hb, .inl hnext⟩
  have hblock : ¬(b = '/' ∧ bs.head? = some '*') := fun ⟨hb, hnext⟩ => hopen ⟨hb, .inr hnext⟩
  rw [wordAt_of_drop hdrop, wordByte, Text.extent_eq, hdrop, runOf_overWord]
  simp only [hblank, Bool.false_eq_true, if_false, hline, hblock, hquote]
  rfl

/-- What is found at a position ends behind it, and is in the text. -/
theorem wordAt_lt {input : List Char} {i stop : Nat} {f : WordFinding} (h : wordAt input i = .ok f)
    (hstop : f.stop? = some stop) : i < size input ∧ i < stop := by
  by_cases hlt : i < size input
  · refine ⟨hlt, ?_⟩
    obtain ⟨b, bs, hdrop⟩ := List.exists_cons_of_ne_nil
      (List.drop_eq_nil_iff.not.2 (by rwa [Text.length_bytes, Nat.not_le]) :
        (bytes input).drop i ≠ [])
    rcases beginning_cases b bs with hblank | rfl | ⟨rfl, more, rfl⟩ | ⟨rfl, more, rfl⟩ | hword
    · rw [wordAt_of_drop hdrop, wordByte, if_pos hblank] at h
      cases h
      cases hstop
      omega
    · rw [wordAt_of_drop hdrop] at h
      obtain ⟨more, -, h⟩ := ok_of_bind h
      split at h
      · cases h
      · cases h
        cases hstop
        omega
    · rw [wordAt_of_drop hdrop] at h
      cases h
      cases hstop
    · rw [wordAt_of_drop hdrop] at h
      obtain ⟨more, -, h⟩ := ok_of_bind h
      split at h
      · cases h
      · cases h
        cases hstop
        omega
    · rw [wordAt_of_beginsWord hdrop hword, readBare_cons hword.1 hword.2.1] at h
      obtain ⟨text, -, h⟩ := ok_of_bind h
      cases h
      cases hstop
      rw [List.length_cons]
      omega
  · rw [wordAt_of_le (Nat.not_lt.1 hlt)] at h
    cases h
    cases hstop

/-- The words of a text from position `i` on. -/
def wordsFrom (input : List Char) (i : Nat) : Except (Slip Malformed) (List Token) :=
  match h : wordAt input i with
  | .error slip => .error slip
  | .ok .finish => .ok []
  | .ok (.skip stop) =>
    have := wordAt_lt h rfl
    wordsFrom input stop
  | .ok (.word word stop) =>
    have := wordAt_lt h rfl
    (wordsFrom input stop).map (word :: ·)
termination_by size input - i

/-- The words from a position on, by what is found there. -/
theorem wordsFrom_find (input : List Char) (i : Nat) : wordsFrom input i =
    match wordAt input i with
    | .error slip => .error slip
    | .ok .finish => .ok []
    | .ok (.skip stop) => wordsFrom input stop
    | .ok (.word word stop) => (wordsFrom input stop).map (word :: ·) := by
  rw [wordsFrom]
  split
  · next h => simp only [h]
  · next h => simp only [h]
  · next h => simp only [h]
  · next h => simp only [h]

/-! ### Lines -/

/-- The target of an include. -/
def target (cs : List Char) : Except (Slip Malformed) String :=
  match Text.trimStart cs with
  | '<' :: inner =>
    match Text.cutAt? ['>'] inner with
    | none => .error (.fault .openAngle)
    | some (front, _) => do
      let path ← cut inner 0 (size front)
      if Text.trim path = [] then .error (.fault .emptyPath)
      else .ok (String.ofList (Text.trim path))
  | _ =>
    match wordsFrom cs 0 with
    | .error slip => .error slip
    | .ok [path] => if path.text = "" then .error (.fault .notOnePath) else .ok path.text
    | .ok _ => .error (.fault .notOnePath)

/-- Reads a directive line; `none` if it is left to the compiler. -/
def directive (line : List Char) : Except (Slip LineFault) (Option Directive) := do
  let body := directiveBody line
  let stop := ((bytes body).takeWhile Text.isNameChar).length
  let keyword ← cut body 0 stop
  let rest ← cut body stop (size body)
  let refuse (m : Malformed) : LineFault := .malformed (String.ofList keyword) m
  if String.ofList keyword = "include" then
    match target rest with
    | .ok path => .ok (some (.includeFile path))
    | .error slip => .error (slip.map refuse)
  else if String.ofList keyword = "request" then
    match wordsFrom rest 0 with
    | .ok (name :: args) => .ok (some (.request name.text args))
    | .ok [] => .error (.fault (refuse .noRequestName))
    | .error slip => .error (slip.map refuse)
  else if String.ofList keyword = "define" then
    let behind := Text.trimStart rest
    let nameStop := ((bytes behind).takeWhile Text.isNameChar).length
    if nameStop = 0 then .error (.fault (refuse .noMacroName))
    else do
      let name ← cut behind 0 nameStop
      return some (.define (String.ofList name))
  else if String.ofList keyword = "expand" then
    match wordsFrom rest 0 with
    | .ok [name, control] => .ok (some (.expand name.text control.text))
    | .ok _ => .error (.fault (refuse .notMacroAndControl))
    | .error slip => .error (slip.map refuse)
  else .ok none

/-! ### Words are found where they stand -/

/-- A quoted text is found where it stands, and ends where the rest begins. -/
theorem quotedAt?_eq : ∀ (offset : Nat) (cs : List Char),
    match readQuoted? cs with
      | none => quotedAt? offset cs = none
      | some (text, rest) => ∃ taken, cs = taken ++ rest ∧
          quotedAt? offset cs = some (text, offset + size taken)
  | _, [] => rfl
  | offset, c :: cs => by
    unfold readQuoted? quotedAt?
    by_cases hquote : c = '"'
    · subst hquote
      exact ⟨['"'], rfl, rfl⟩
    · rw [if_neg hquote, if_neg hquote]
      by_cases hbreak : c = '\n' ∨ c = '\r'
      · rw [if_pos hbreak, if_pos hbreak]
      · rw [if_neg hbreak, if_neg hbreak]
        by_cases hescape : c = '\\'
        · subst hescape
          rw [if_pos rfl, if_pos rfl]
          cases cs with
          | nil => rfl
          | cons e more =>
            have ih := quotedAt?_eq (offset + 1 + e.utf8Size) more
            dsimp only
            cases hread : readQuoted? more with
            | none =>
              rw [hread] at ih
              dsimp only at ih
              rw [ih]
              rfl
            | some p =>
              obtain ⟨text, rest⟩ := p
              rw [hread] at ih
              obtain ⟨taken, rfl, htaken⟩ := ih
              refine ⟨'\\' :: e :: taken, rfl, ?_⟩
              rw [htaken, Text.size_cons, Text.size_cons, ← Nat.add_assoc, ← Nat.add_assoc]
              rfl
        · rw [if_neg hescape, if_neg hescape]
          have ih := quotedAt?_eq (offset + c.utf8Size) cs
          cases hread : readQuoted? cs with
          | none =>
            rw [hread] at ih
            dsimp only at ih
            rw [ih]
            rfl
          | some p =>
            obtain ⟨text, rest⟩ := p
            rw [hread] at ih
            obtain ⟨taken, rfl, htaken⟩ := ih
            refine ⟨c :: taken, rfl, ?_⟩
            rw [htaken, Text.size_cons, ← Nat.add_assoc]
            rfl

/-- A word goes on with characters above ASCII. -/
theorem readBare_wide {bs : List Char} (h : Text.Wide bs) (rest : List Char) :
    readBare (bs ++ rest) = (bs ++ (readBare rest).1, (readBare rest).2) := by
  induction bs with
  | nil => rfl
  | cons b bs ih =>
    have hopen : opensComment (b :: (bs ++ rest)) = false := by
      rw [← Bool.not_eq_true, opensComment_cons_iff]
      rintro ⟨rfl, -⟩
      exact absurd (h '/' (List.mem_cons_self ..)) (by decide)
    rw [List.cons_append, readBare_cons (Text.isAscii_isAsciiBlank.eq_false_of_wide h) hopen,
      ih fun x hx => h x (List.mem_cons_of_mem b hx)]
    rfl

/-- A word goes as far among the bytes as among the characters. -/
theorem readBare_bytes (cs : List Char) : (readBare (bytes cs)).1 = bytes (readBare cs).1 := by
  induction cs with
  | nil => rfl
  | cons c cs ih =>
    rcases Text.bytes_cons_cases c cs with ⟨hlt, hbytes⟩ | ⟨b, bs, hc, hwide, hone, hbytes⟩
    · have hopen : opensComment (c :: bytes cs) = opensComment (c :: cs) := by
        rw [Bool.eq_iff_iff, opensComment_cons_iff, opensComment_cons_iff,
          Text.head?_bytes_eq_some_iff (by decide), Text.head?_bytes_eq_some_iff (by decide)]
      rw [hbytes, readBare, readBare, hopen]
      split
      · rfl
      · rw [Text.bytes_cons_of_lt hlt, ← ih]
    · have hchar := readBare_wide (Text.wide_singleton hc) cs
      rw [List.singleton_append] at hchar
      rw [hbytes, ← List.cons_append, readBare_wide hwide, hchar, ih, ← hone, ← Text.bytes_append]

theorem readTokens_of_beginsWord {c : Char} {cs : List Char} (h : BeginsWord (c :: cs)) :
    readTokens (c :: cs) =
      (readTokens (readBare cs).2).map (⟨String.ofList (c :: (readBare cs).1), false⟩ :: ·) := by
  obtain ⟨hblank, hopen, hquote⟩ := h
  rw [opensComment_eq, Bool.or_eq_false_iff] at hopen
  have hblock : Text.after? ['/', '*'] (c :: cs) = none := by
    simpa [Text.startsWith] using hopen.2
  rw [readTokens_cons, hblock]
  simp only [hblank, hopen.1, if_neg hquote, Bool.false_eq_true, if_false]

theorem wordAt_cons {c : Char} (hc : c.toNat < 128) (front cs : List Char) :
    wordAt (front ++ c :: cs) (size front) =
      wordByte (front ++ c :: cs) (size front) c (bytes cs).head? := by
  have hdrop := Text.drop_bytes front (c :: cs)
  rw [Text.bytes_cons_of_lt hc] at hdrop
  exact wordAt_of_drop hdrop

theorem wordAt_blank {c : Char} (h : Text.isAsciiBlank c = true) (front cs : List Char) :
    wordAt (front ++ c :: cs) (size front) = .ok (.skip (size (front ++ [c]))) := by
  have hc := Text.isAscii_isAsciiBlank h
  rw [wordAt_cons hc, wordByte, if_pos h, Text.size_concat hc]

theorem wordAt_line (front cs : List Char) :
    wordAt (front ++ '/' :: '/' :: cs) (size front) = .ok .finish := by
  rw [wordAt_cons (by decide), Text.bytes_cons_of_lt (by decide)]
  rfl

/-- A comment is passed up to its end. -/
theorem wordAt_block (front more : List Char) : wordAt (front ++ '/' :: '*' :: more) (size front) =
    match Text.cutAt? ['*', '/'] more with
    | none => .error (.fault .openComment)
    | some (inner, _) => .ok (.skip (size (front ++ '/' :: '*' :: (inner ++ ['*', '/'])))) := by
  have hopen : size (front ++ ['/', '*']) = size front + 2 := Text.size_append front ['/', '*']
  have hline : front ++ '/' :: '*' :: more = front ++ ['/', '*'] ++ more := by simp
  have hend : ∀ inner : List Char,
      size front + 2 + size inner + 2 = size (front ++ '/' :: '*' :: (inner ++ ['*', '/'])) := by
    intro inner
    have hparts : front ++ '/' :: '*' :: (inner ++ ['*', '/']) =
        front ++ ['/', '*'] ++ inner ++ ['*', '/'] := by simp
    rw [hparts, Text.size_append _ ['*', '/'], Text.size_append _ inner, hopen]
    rfl
  simp only [← hend]
  rw [wordAt_cons (by decide), Text.bytes_cons_of_lt (by decide)]
  show (cut (front ++ '/' :: '*' :: more) (size front + 2)
    (size (front ++ '/' :: '*' :: more)) >>= _) = _
  rw [hline, ← hopen, Text.cut_rest]
  rfl

/-- A quoted text is one word. -/
theorem wordAt_quoted (front cs : List Char) :
    match readQuoted? cs with
    | none => wordAt (front ++ '"' :: cs) (size front) = .error (.fault .openText)
    | some (text, rest) => ∃ taken, cs = taken ++ rest ∧ wordAt (front ++ '"' :: cs) (size front) =
        .ok (.word ⟨String.ofList text, true⟩ (size (front ++ '"' :: taken))) := by
  have hopen : size (front ++ ['"']) = size front + 1 := Text.size_append front ['"']
  have hline : front ++ '"' :: cs = front ++ ['"'] ++ cs := by simp
  have hword : wordAt (front ++ '"' :: cs) (size front) =
      match quotedAt? 0 cs with
      | none => .error (.fault .openText)
      | some (text, offset) =>
        .ok (.word ⟨String.ofList text, true⟩ (size front + 1 + offset)) := by
    rw [wordAt_cons (by decide)]
    show (cut (front ++ '"' :: cs) (size front + 1) (size (front ++ '"' :: cs)) >>= _) = _
    rw [hline, ← hopen, Text.cut_rest]
    rfl
  have hquoted := quotedAt?_eq 0 cs
  rw [hword]
  cases hread : readQuoted? cs with
  | none =>
    rw [hread] at hquoted
    dsimp only at hquoted ⊢
    rw [hquoted]
  | some p =>
    obtain ⟨text, rest⟩ := p
    rw [hread] at hquoted
    obtain ⟨taken, rfl, htaken⟩ := hquoted
    have hstop : size front + 1 + (0 + size taken) = size (front ++ '"' :: taken) := by
      rw [← hopen, Nat.zero_add, ← Text.size_append, List.append_assoc]
      rfl
    refine ⟨taken, rfl, ?_⟩
    rw [htaken]
    dsimp only
    rw [hstop]

theorem beginsWord_bytes {c : Char} {cs : List Char} (h : BeginsWord (c :: cs)) :
    BeginsWord (bytes (c :: cs)) := by
  obtain ⟨hblank, hopen, hquote⟩ := h
  rcases Text.bytes_cons_cases c cs with ⟨hlt, hbytes⟩ | ⟨b, bs, hc, hwide, hone, hbytes⟩
  · rw [hbytes]
    refine ⟨hblank, ?_, hquote⟩
    rwa [← Bool.not_eq_true, opensComment_cons_iff, Text.head?_bytes_eq_some_iff (by decide),
      Text.head?_bytes_eq_some_iff (by decide), ← opensComment_cons_iff, Bool.not_eq_true]
  · have hb := hwide b (List.mem_cons_self ..)
    rw [hbytes]
    refine ⟨Text.isAscii_isAsciiBlank.eq_false hb, ?_, ?_⟩
    · rw [← Bool.not_eq_true, opensComment_cons_iff]
      rintro ⟨rfl, -⟩
      exact absurd hb (by decide)
    · rintro rfl
      exact absurd hb (by decide)

/-- Any other text up to a blank or a comment is one word. -/
theorem wordAt_bare {c : Char} {cs : List Char} (h : BeginsWord (c :: cs)) (front : List Char) :
    wordAt (front ++ c :: cs) (size front) =
      .ok (.word ⟨String.ofList (c :: (readBare cs).1), false⟩
        (size (front ++ c :: (readBare cs).1))) := by
  have hbytes := beginsWord_bytes h
  have hword : (readBare (bytes (c :: cs))).1 = bytes (c :: (readBare cs).1) := by
    rw [readBare_bytes, readBare_cons h.1 h.2.1]
  have hparts : front ++ c :: cs = front ++ c :: (readBare cs).1 ++ (readBare cs).2 := by
    rw [List.append_assoc, List.cons_append, ← (readBare_split cs).2]
  cases hb : bytes (c :: cs) with
  | nil =>
    rw [hb] at hbytes
    exact hbytes.elim
  | cons b bs =>
    rw [hb] at hbytes hword
    rw [wordAt_of_beginsWord ((Text.drop_bytes front (c :: cs)).trans hb) hbytes, hword,
      Text.length_bytes, ← Text.size_append, hparts, Text.cut_append]
    rfl

/-- The words found by bytes from a position on are those that are read there. -/
theorem wordsFrom_eq : ∀ front cs : List Char,
    wordsFrom (front ++ cs) (size front) = (readTokens cs).mapError .fault := by
  intro front cs
  rw [wordsFrom_find]
  -- behind `taken` the words are those of the rest
  have hbehind (taken rest : List Char) (hcs : cs = taken ++ rest) (hlt : rest.length < cs.length) :
      wordsFrom (front ++ cs) (size (front ++ taken)) = (readTokens rest).mapError .fault := by
    subst hcs
    rw [← List.append_assoc]
    exact wordsFrom_eq (front ++ taken) rest
  cases cs with
  | nil =>
    rw [readTokens, wordAt_of_le (by simp)]
    rfl
  | cons c cs =>
    rcases beginning_cases c cs with hblank | rfl | ⟨rfl, more, rfl⟩ | ⟨rfl, more, rfl⟩ | hword
    · rw [wordAt_blank hblank, readTokens_blank hblank]
      exact hbehind [c] cs rfl (Nat.lt_succ_self _)
    · have hquoted := wordAt_quoted front cs
      rw [readTokens_cons, if_neg (by decide), if_pos rfl]
      cases hread : readQuoted? cs with
      | none =>
        rw [hread] at hquoted
        dsimp only at hquoted
        rw [hquoted]
        rfl
      | some p =>
        obtain ⟨text, rest⟩ := p
        have hlen := readQuoted?_length hread
        rw [hread] at hquoted
        obtain ⟨taken, rfl, hquoted⟩ := hquoted
        rw [hquoted]
        dsimp only
        rw [hbehind ('"' :: taken) rest rfl (Nat.lt_succ_of_lt hlen)]
        cases readTokens rest <;> rfl
    · rw [wordAt_line, readTokens_line]
      rfl
    · rw [wordAt_block, readTokens_cons]
      show _ = Except.mapError Slip.fault (match Text.cutAt? ['*', '/'] more with
        | none => .error .openComment
        | some (_, rest) => readTokens rest)
      cases hclose : Text.cutAt? ['*', '/'] more with
      | none => rfl
      | some p =>
        obtain ⟨inner, rest⟩ := p
        have hmore := Text.eq_append_of_cutAt? hclose
        have hparts : '/' :: '*' :: more = '/' :: '*' :: (inner ++ ['*', '/']) ++ rest := by
          rw [hmore]
          rfl
        have hlen := cutAt?_length hclose
        exact hbehind _ rest hparts (by simp only [List.length_cons]; omega)
    · have hlen := readBare_length cs
      have hparts : c :: cs = c :: (readBare cs).1 ++ (readBare cs).2 := by
        rw [List.cons_append, ← (readBare_split cs).2]
      rw [wordAt_bare hword, readTokens_of_beginsWord hword]
      dsimp only
      rw [hbehind _ _ hparts (Nat.lt_succ_of_le hlen)]
      cases readTokens (readBare cs).2 <;> rfl
termination_by _ cs => cs.length

/-! ### Directives are found where they stand -/

theorem words_eq (cs : List Char) : wordsFrom cs 0 = (readTokens cs).mapError .fault :=
  wordsFrom_eq [] cs

theorem target_bare {cs : List Char} (h : ∀ inner, Text.trimStart cs ≠ '<' :: inner) :
    target cs = match wordsFrom cs 0 with
      | .error slip => .error slip
      | .ok [path] => if path.text = "" then .error (.fault .notOnePath) else .ok path.text
      | .ok _ => .error (.fault .notOnePath) := by
  unfold target
  split
  · next inner htrim => exact absurd htrim (h inner)
  · rfl

theorem readTarget_bare {cs : List Char} (h : ∀ inner, Text.trimStart cs ≠ '<' :: inner) :
    readTarget cs = (readTokens cs).bind fun
      | [path] => if path.text = "" then .error .notOnePath else .ok path.text
      | _ => .error .notOnePath := by
  unfold readTarget
  split
  · next inner htrim => exact absurd htrim (h inner)
  · rcases readTokens cs with m | _ | ⟨path, _ | ⟨second, rest⟩⟩ <;> rfl

theorem target_eq (cs : List Char) : target cs = (readTarget cs).mapError .fault := by
  by_cases hangle : ∃ inner, Text.trimStart cs = '<' :: inner
  · obtain ⟨inner, htrim⟩ := hangle
    unfold target readTarget
    rw [htrim]
    cases hclose : Text.cutAt? ['>'] inner with
    | none =>
      simp only [hclose]
      rfl
    | some p =>
      obtain ⟨path, rest⟩ := p
      have hinner := Text.eq_append_of_cutAt? hclose
      rw [List.append_assoc] at hinner
      simp only [hclose]
      rw [hinner, Text.cut_front]
      show (if Text.trim path = [] then _ else _) =
        (if Text.trim path = [] then _ else _ : Except Malformed String).mapError Slip.fault
      split <;> rfl
  · have hbare := not_exists.1 hangle
    rw [target_bare hbare, readTarget_bare hbare, words_eq]
    rcases readTokens cs with m | _ | ⟨path, _ | ⟨second, rest⟩⟩
    · rfl
    · rfl
    · show (if path.text = "" then _ else _) =
        (if path.text = "" then _ else _ : Except Malformed String).mapError Slip.fault
      split <;> rfl
    · rfl

/-- **A directive line is read by bytes as it is by characters.** -/
theorem directive_eq (line : List Char) :
    directive line = (readDirective line).mapError .fault := by
  have hsplit := List.takeWhile_append_dropWhile (p := Text.isNameChar) (l := directiveBody line)
  unfold directive readDirective
  dsimp only
  rw [Text.isAscii_isNameChar.takeWhile_bytes, ← Text.isAscii_isNameChar.size_takeWhile]
  generalize (directiveBody line).takeWhile Text.isNameChar = keyword at hsplit ⊢
  generalize (directiveBody line).dropWhile Text.isNameChar = rest at hsplit ⊢
  rw [← hsplit, Text.cut_front, Text.cut_rest]
  show (if String.ofList keyword = "include" then _ else if String.ofList keyword = "request" then _
    else if String.ofList keyword = "define" then _ else if String.ofList keyword = "expand" then _
    else _) = _
  by_cases hinclude : String.ofList keyword = "include"
  · rw [if_pos hinclude, if_pos hinclude, target_eq]
    cases readTarget rest <;> rfl
  · rw [if_neg hinclude, if_neg hinclude]
    by_cases hrequest : String.ofList keyword = "request"
    · rw [if_pos hrequest, if_pos hrequest, words_eq]
      rcases readTokens rest with m | _ | ⟨name, args⟩ <;> rfl
    · rw [if_neg hrequest, if_neg hrequest]
      by_cases hdefine : String.ofList keyword = "define"
      · rw [if_pos hdefine, if_pos hdefine]
        generalize Text.trimStart rest = behind
        have hbehind := List.takeWhile_append_dropWhile (p := Text.isNameChar) (l := behind)
        have hsize := Text.isAscii_isNameChar.size_takeWhile behind
        rw [Text.isAscii_isNameChar.takeWhile_bytes]
        generalize behind.takeWhile Text.isNameChar = name at hbehind hsize ⊢
        have hempty : name.length = 0 ↔ name = [] := List.length_eq_zero_iff
        by_cases hname : name = []
        · rw [if_pos (hempty.2 hname), if_pos hname]
          rfl
        · rw [if_neg (hempty.not.2 hname), if_neg hname, ← hsize, ← hbehind, Text.cut_front]
          rfl
      · rw [if_neg hdefine, if_neg hdefine]
        by_cases hexpand : String.ofList keyword = "expand"
        · rw [if_pos hexpand, if_pos hexpand, words_eq]
          rcases readTokens rest with m | _ | ⟨name, _ | ⟨control, _ | ⟨third, more⟩⟩⟩ <;> rfl
        · rw [if_neg hexpand, if_neg hexpand]
          rfl

end Bytewise
end AudioShader
