/-
# Colors and binds inside a line

Outside comments and quoted texts a line may hold colors, which become vectors,
and binds, which become what their name is bound to or else their default. A
comment that does not close goes on in the next line; a quoted text does not.

Key definitions: `Zone`, `bindDefault`, `scan`, `scanDefine`, `endsInComment`.
-/
import AudioShader.Source.Directive

namespace AudioShader

/-- What a place in a line belongs to. -/
inductive Zone where
  | code
  | text
  | comment
  deriving DecidableEq

/-- A result with more text in front. -/
def prepend {ε α : Type} (text : List Char) (r : Except ε (List Char × α)) :
    Except ε (List Char × α) :=
  r.map fun p => (text ++ p.1, p.2)

/-! ### Lines that are copied -/

/-- Whether a comment is still open behind a text of which nothing is replaced. -/
def endsInComment : Zone → List Char → Bool
  | zone, [] => zone = .comment
  | .comment, '*' :: '/' :: cs => endsInComment .code cs
  | .comment, _ :: cs => endsInComment .comment cs
  | .text, '\\' :: _ :: cs => endsInComment .text cs
  | .text, '"' :: cs => endsInComment .code cs
  | .text, _ :: cs => endsInComment .text cs
  | .code, '/' :: '/' :: _ => false
  | .code, '/' :: '*' :: cs => endsInComment .comment cs
  | .code, '"' :: cs => endsInComment .text cs
  | .code, _ :: cs => endsInComment .code cs

/-! ### Binds -/

/-- The default of a bind, read behind the colon: up to a blank, a comma, a
semicolon or a closing bracket outside the brackets opened in it, and in any
case to the end of the line. -/
def bindDefault : (depth : Nat) → List Char → List Char
  | _, [] => []
  | depth, c :: cs =>
    if c = '(' ∨ c = '[' then c :: bindDefault (depth + 1) cs
    else if c = ')' ∨ c = ']' then
      match depth with
      | 0 => []
      | depth + 1 => c :: bindDefault depth cs
    else if c = '\n' ∨ c = '\r' then []
    else if depth = 0 ∧ (c = ';' ∨ c = ',' ∨ Text.isAsciiBlank c) then []
    else c :: bindDefault depth cs

/-- A bind: its name, its default and what follows. -/
structure Bind where
  name : String
  fallback : Option (List Char)
  rest : List Char

/-- Reads a bind behind its `@`. An empty default is none. -/
def readBind? (cs : List Char) : Option Bind :=
  match cs with
  | [] => none
  | c :: _ =>
    if Text.isNameStart c then
      let name := String.ofList (cs.takeWhile Text.isNameChar)
      match cs.dropWhile Text.isNameChar with
      | ':' :: more =>
        match bindDefault 0 more with
        | [] => some ⟨name, none, ':' :: more⟩
        | text => some ⟨name, some text, more.drop text.length⟩
      | rest => some ⟨name, none, rest⟩
    else none

theorem bindDefault_length : ∀ (depth : Nat) (cs : List Char),
    (bindDefault depth cs).length ≤ cs.length
  | _, [] => by simp [bindDefault]
  | depth, c :: cs => by
    unfold bindDefault
    split
    · simpa using bindDefault_length (depth + 1) cs
    · split
      · cases depth with
        | zero => simp
        | succ d => simpa using bindDefault_length d cs
      · split
        · simp
        · split
          · simp
          · simpa using bindDefault_length depth cs

/-- The default and the rest of a bind are shorter than what the bind is read from. -/
theorem readBind?_length {cs : List Char} {b : Bind} (h : readBind? cs = some b) :
    b.rest.length ≤ cs.length ∧ ∀ text, b.fallback = some text → text.length ≤ cs.length := by
  unfold readBind? at h
  split at h
  · simp at h
  · next c tail =>
    split at h
    · have hd := Text.length_dropWhile_le Text.isNameChar (c :: tail)
      dsimp only at h
      split at h
      · next more hm =>
        rw [hm] at hd
        split at h
        · simp only [Option.some.injEq] at h
          subst h
          exact ⟨hd, by simp⟩
        · simp only [Option.some.injEq] at h
          subst h
          have hb := bindDefault_length 0 more
          simp only [List.length_cons] at hd ⊢
          refine ⟨by simp only [List.length_drop]; omega, ?_⟩
          intro text ht
          simp only [Option.some.injEq] at ht
          subst ht
          omega
      · simp only [Option.some.injEq] at h
        subst h
        exact ⟨hd, by simp⟩
    · simp at h

theorem Color.scan_length {cs rest : List Char} {color : Color}
    (h : Color.scan cs = .ok (some (color, rest))) : rest.length ≤ cs.length := by
  have hrest : rest = cs.drop ((cs.take maxHexDigits).takeWhile isHexDigit).length := by
    simp only [Color.scan, bind, Except.bind, pure, Except.pure, throw, throwThe,
      MonadExceptOf.throw] at h
    split at h
    · split at h
      · split at h <;> simp at h
      · split at h
        · simp at h
        · split at h
          · simp at h
          · simp only [Except.ok.injEq, Option.some.injEq, Prod.mk.injEq] at h
            exact h.2.symm
    · split at h
      · simp at h
      · split at h
        · simp at h
        · simp only [Except.ok.injEq, Option.some.injEq, Prod.mk.injEq] at h
          exact h.2.symm
  subst hrest
  simp only [List.length_drop]
  omega

/-! ### Scanning -/

/-- The text that stands for the rest of a line, and whether a comment is open
behind it. `bound` tells what a name is bound to; what it is bound to is not
scanned, a default is. -/
def scan (bound : String → Option String) :
    Zone → List Char → Except LineFault (List Char × Bool)
  | zone, [] => .ok ([], zone = .comment)
  | .comment, '*' :: '/' :: cs => prepend ['*', '/'] (scan bound .code cs)
  | .comment, c :: cs => prepend [c] (scan bound .comment cs)
  | .text, '\\' :: c :: cs => prepend ['\\', c] (scan bound .text cs)
  | .text, '"' :: cs => prepend ['"'] (scan bound .code cs)
  | .text, c :: cs => prepend [c] (scan bound .text cs)
  | .code, '/' :: '/' :: cs => .ok ('/' :: '/' :: cs, false)
  | .code, '/' :: '*' :: cs => prepend ['/', '*'] (scan bound .comment cs)
  | .code, '"' :: cs => prepend ['"'] (scan bound .text cs)
  | .code, '#' :: '#' :: cs => prepend ['#', '#'] (scan bound .code cs)
  | .code, '#' :: cs =>
    match h : Color.scan cs with
    | .error fault => .error (.color fault)
    | .ok (some (color, rest)) =>
      have := Color.scan_length h
      prepend color.toGlsl.toList (scan bound .code rest)
    | .ok none => prepend ['#'] (scan bound .code cs)
  | .code, '@' :: cs =>
    match h : readBind? cs with
    | none => prepend ['@'] (scan bound .code cs)
    | some b =>
      have hb := readBind?_length h
      match bound b.name with
      | some text => prepend text.toList (scan bound .code b.rest)
      | none =>
        match hf : b.fallback with
        | none => .error (.unresolvedBind b.name)
        | some text =>
          have := hb.2 text hf
          match scan bound .code text with
          | .error fault => .error fault
          | .ok (replaced, _) => prepend replaced (scan bound .code b.rest)
  | .code, c :: cs => prepend [c] (scan bound .code cs)
termination_by _ cs => cs.length
decreasing_by all_goals (simp only [List.length_cons]; try omega)

/-- Scans a definition, whose own `#` is no color: the first character that is
no blank, if it is that. -/
def scanDefine (bound : String → Option String) (line : List Char) :
    Except LineFault (List Char × Bool) :=
  match line.dropWhile Text.isAsciiBlank with
  | '#' :: rest =>
    prepend (line.takeWhile Text.isAsciiBlank ++ ['#']) (scan bound .code rest)
  | _ => scan bound .code line

end AudioShader
