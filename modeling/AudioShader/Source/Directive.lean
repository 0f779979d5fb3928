/-
# Directives

A line whose first character is `#` may be a directive of this language:
a request, an include, a definition or an expansion. Any other one is left to
the compiler. Arguments are words, or texts in double quotes in which a
backslash takes the next character as it is; comments between them do not
count.

Key definitions: `Directive`, `readQuoted?`, `readTokens`, `readDirective`.
-/
import AudioShader.Source.Fault
import AudioShader.Text.Search

namespace AudioShader

/-- What a directive line asks for. -/
inductive Directive where
  | request (name : String) (args : List Token)
  | includeFile (target : String)
  | define (name : String)
  /-- One call of the macro `name` for each number below the control's value. -/
  | expand (name control : String)
  deriving DecidableEq

/-! ### Words -/

/-- Reads behind an opening quote up to the closing one, on one line: the text
and what follows it. -/
def readQuoted? : List Char → Option (List Char × List Char)
  | [] => none
  | c :: cs =>
    if c = '"' then some ([], cs)
    else if c = '\n' ∨ c = '\r' then none
    else if c = '\\' then
      match cs with
      | [] => none
      | e :: rest => (readQuoted? rest).map fun p => (e :: p.1, p.2)
    else (readQuoted? cs).map fun p => (c :: p.1, p.2)

/-- A slash that opens a comment of either kind. -/
def opensComment : List Char → Bool
  | '/' :: '/' :: _ => true
  | '/' :: '*' :: _ => true
  | _ => false

/-- Reads an unquoted word, up to a blank or a comment. -/
def readBare : List Char → List Char × List Char
  | [] => ([], [])
  | c :: cs =>
    if Text.isAsciiBlank c || opensComment (c :: cs) then ([], c :: cs)
    else
      let (word, rest) := readBare cs
      (c :: word, rest)

theorem readQuoted?_length : ∀ {cs text rest : List Char},
    readQuoted? cs = some (text, rest) → rest.length < cs.length
  | [], _, _, h => by simp [readQuoted?] at h
  | c :: cs, text, rest, h => by
    unfold readQuoted? at h
    split at h
    · simp only [Option.some.injEq, Prod.mk.injEq] at h
      obtain ⟨-, rfl⟩ := h
      simp
    · split at h
      · simp at h
      · split at h
        · cases cs with
          | nil => simp at h
          | cons e more =>
            obtain ⟨⟨w, r⟩, hp, heq⟩ := Option.map_eq_some_iff.1 h
            simp only [Prod.mk.injEq] at heq
            obtain ⟨-, rfl⟩ := heq
            have := readQuoted?_length hp
            simp only [List.length_cons]
            omega
        · obtain ⟨⟨w, r⟩, hp, heq⟩ := Option.map_eq_some_iff.1 h
          simp only [Prod.mk.injEq] at heq
          obtain ⟨-, rfl⟩ := heq
          have := readQuoted?_length hp
          simp only [List.length_cons]
          omega

theorem readBare_length : ∀ cs : List Char, (readBare cs).2.length ≤ cs.length
  | [] => by simp [readBare]
  | c :: cs => by
    unfold readBare
    split
    · simp
    · have := readBare_length cs
      simp only [List.length_cons]
      omega

theorem cutAt?_length {mark cs front back : List Char} (h : Text.cutAt? mark cs = some (front, back)) :
    back.length ≤ cs.length := by
  have := Text.eq_append_of_cutAt? h
  subst this
  simp only [List.length_append]
  omega

/-- The words of the rest of a directive line. -/
def readTokens : List Char → Except Malformed (List Token)
  | [] => .ok []
  | c :: cs =>
    if Text.isAsciiBlank c then readTokens cs
    else if c = '"' then
      match h : readQuoted? cs with
      | none => .error .openText
      | some (text, rest) =>
        have := readQuoted?_length h
        (readTokens rest).map (⟨String.ofList text, true⟩ :: ·)
    else if Text.startsWith ['/', '/'] (c :: cs) then .ok []
    else
      match h : Text.after? ['/', '*'] (c :: cs) with
      | some more =>
        match h' : Text.cutAt? ['*', '/'] more with
        | none => .error .openComment
        | some (_, rest) =>
          have := cutAt?_length h'
          have := congrArg List.length (Text.eq_append_of_after? h)
          readTokens rest
      | none =>
        let word := readBare cs
        have := readBare_length cs
        (readTokens word.2).map (⟨String.ofList (c :: word.1), false⟩ :: ·)
termination_by cs => cs.length
decreasing_by all_goals (simp_all; try omega)

/-! ### Lines -/

/-- The target of an include: a path in angle brackets, behind which anything
may stand, or one word. -/
def readTarget (cs : List Char) : Except Malformed String :=
  match Text.trimStart cs with
  | '<' :: inner =>
    match Text.cutAt? ['>'] inner with
    | none => .error .openAngle
    | some (target, _) =>
      if Text.trim target = [] then .error .emptyPath
      else .ok (String.ofList (Text.trim target))
  | _ => do
    match ← readTokens cs with
    | [target] => if target.text = "" then throw .notOnePath else return target.text
    | _ => throw .notOnePath

/-- The line behind its `#`, without blanks in front; a line without `#` counts
from its first character. -/
def directiveBody (line : List Char) : List Char :=
  match Text.trimStart line with
  | '#' :: cs => Text.trimStart cs
  | cs => cs

/-- Reads a directive line; `none` if it is left to the compiler. -/
def readDirective (line : List Char) : Except LineFault (Option Directive) :=
  let body := directiveBody line
  let keyword := String.ofList (body.takeWhile Text.isNameChar)
  let rest := body.dropWhile Text.isNameChar
  let refuse (m : Malformed) : LineFault := .malformed keyword m
  if keyword = "include" then
    match readTarget rest with
    | .ok target => .ok (some (.includeFile target))
    | .error m => .error (refuse m)
  else if keyword = "request" then
    match readTokens rest with
    | .ok (name :: args) => .ok (some (.request name.text args))
    | .ok [] => .error (refuse .noRequestName)
    | .error m => .error (refuse m)
  else if keyword = "define" then
    let name := (Text.trimStart rest).takeWhile Text.isNameChar
    if name = [] then .error (refuse .noMacroName)
    else .ok (some (.define (String.ofList name)))
  else if keyword = "expand" then
    match readTokens rest with
    | .ok [name, control] => .ok (some (.expand name.text control.text))
    | .ok _ => .error (refuse .notMacroAndControl)
    | .error m => .error (refuse m)
  else .ok none

end AudioShader
