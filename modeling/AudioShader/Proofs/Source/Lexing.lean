/-
# Comments as the shading language reads them

A text is read from the left, one character after the other: in code, in a text
in double quotes, or in a comment, to the end of the line or to its closing
mark. A backslash at the end of a line joins it with the next one, wherever it
stands. This reading knows nothing of directives, colors and binds; it is what
the processing of a unit is held against.

Key definitions: `Lexer`, `Lexer.step`, `Lexer.comments`, `Lexer.blank`,
`Lexer.directive`, `Lexer.Inert`.
Key theorems: `Lexer.run_blank`, `Lexer.blank_of_comments`, `isContinued_eq`.
-/
import Mathlib.Data.List.Induction
import AudioShader.Proofs.Source.Breaks

namespace AudioShader

namespace Text
theorem dropEnd_concat (p : Char → Bool) (cs : List Char) (c : Char) :
    dropEnd p (cs ++ [c]) = if p c then dropEnd p cs else cs ++ [c] := by
  simp only [dropEnd, List.reverse_append, List.reverse_cons, List.reverse_nil, List.nil_append,
    List.singleton_append, List.dropWhile_cons]
  split
  · rfl
  · simp

end Text

/-- What the next character is read as a part of. -/
inductive LexMode where
  | code
  /-- Behind a slash that stands in code. -/
  | slash
  | text
  /-- Behind a backslash in a text. -/
  | escape
  /-- In a comment to the end of the line. -/
  | line
  /-- In a comment to a closing mark. -/
  | block
  /-- Behind a star in such a comment. -/
  | star
  deriving DecidableEq

namespace LexMode

def next : LexMode → Char → LexMode
  | .code, '/' => .slash
  | .code, '"' => .text
  | .code, _ => .code
  | .slash, '/' => .line
  | .slash, '*' => .block
  | .slash, '"' => .text
  | .slash, _ => .code
  | .text, '\\' => .escape
  | .text, '"' => .code
  | .text, _ => .text
  | .escape, _ => .text
  | .line, _ => .line
  | .block, '*' => .star
  | .block, _ => .block
  | .star, '/' => .code
  | .star, '*' => .star
  | .star, _ => .block

@[simp] def inComment : LexMode → Bool
  | .line | .block | .star => true
  | _ => false

/-- A comment is open that only its closing mark ends. -/
@[simp] def isOpen : LexMode → Bool
  | .block | .star => true
  | _ => false

@[simp] def inCode : LexMode → Bool
  | .code | .slash => true
  | _ => false

/-- Behind the end of a line: only a comment with a closing mark goes on. -/
def ended : LexMode → LexMode
  | .block => .block
  | .star => .block
  | _ => .code

theorem next_code {c : Char} (hs : c ≠ '/') (hq : c ≠ '"') : next .code c = .code := by
  unfold next
  split <;> simp_all

theorem next_slash {c : Char} (hs : c ≠ '/') (ht : c ≠ '*') (hq : c ≠ '"') :
    next .slash c = .code := by
  unfold next
  split <;> simp_all

end LexMode

/-- How far the reading of a text has come. -/
structure Lexer where
  mode : LexMode := .code
  /-- Behind a backslash, the mode in front of it: a line feed joins two lines
  there, and neither counts. -/
  held : Option LexMode := none
  /-- The character in front is a line feed that joins two lines. -/
  joined : Bool := false
  deriving DecidableEq

namespace Lexer

def step (s : Lexer) (c : Char) : Lexer :=
  if c = '\n' then
    match s.held with
    | some mode => ⟨mode, none, true⟩
    | none => ⟨s.mode.ended, none, false⟩
  else if c = '\\' then ⟨s.mode.next c, some s.mode, false⟩
  else if c = '\r' then ⟨s.mode.next c, s.held, false⟩
  else ⟨s.mode.next c, none, false⟩

def run (s : Lexer) (cs : List Char) : Lexer := cs.foldl step s

def inComment (s : Lexer) : Bool := s.mode.inComment

def isOpen (s : Lexer) : Bool := s.mode.isOpen

def inCode (s : Lexer) : Bool := s.mode.inCode

/-- The next character is part of a comment; the line feed that ends one is not. -/
def covers (s : Lexer) (c : Char) : Bool := s.inComment && (c != '\n' || (s.step c).inComment)

/-- The characters of the comments: what follows an opening mark, with the
closing mark. -/
def comments : Lexer → List Char → List Char
  | _, [] => []
  | s, c :: cs => if s.covers c then c :: comments (s.step c) cs else comments (s.step c) cs

/-- A character, or the blank that is read alike in a comment. -/
def blankChar (s : Lexer) (c : Char) : Char :=
  if s.inComment ∧ c ≠ '\n' ∧ s.step ' ' = s.step c then ' ' else c

/-- The text with blanks in its comments. -/
def blank : Lexer → List Char → List Char
  | _, [] => []
  | s, c :: cs => s.blankChar c :: blank (s.step c) cs

/-- The directive on a line: it stands where nothing is open and no line goes
on. -/
def directive (s : Lexer) (line : List Char) : Except LineFault (Option Directive) :=
  if s = {} ∧ startsDirective line = true then readDirective line else .ok none

/-! ### Reading on -/

@[simp] theorem run_nil (s : Lexer) : s.run [] = s := rfl

@[simp] theorem run_cons (s : Lexer) (c : Char) (cs : List Char) :
    s.run (c :: cs) = (s.step c).run cs := rfl

theorem mode_step (s : Lexer) (c : Char) : (s.step c).mode =
    if c = '\n' then s.held.getD s.mode.ended else s.mode.next c := by
  unfold step
  split
  · cases s.held <;> rfl
  · split_ifs <;> rfl

theorem run_append (s : Lexer) (a b : List Char) : s.run (a ++ b) = (s.run a).run b :=
  List.foldl_append

theorem comments_append (s : Lexer) (a b : List Char) :
    s.comments (a ++ b) = s.comments a ++ (s.run a).comments b := by
  induction a generalizing s with
  | nil => rfl
  | cons c a ih =>
    simp only [List.cons_append, comments, run_cons, ih]
    split <;> rfl

theorem blank_append (s : Lexer) (a b : List Char) :
    s.blank (a ++ b) = s.blank a ++ (s.run a).blank b := by
  induction a generalizing s with
  | nil => rfl
  | cons c a ih => simp only [List.cons_append, blank, run_cons, ih]

@[simp] theorem length_blank (s : Lexer) (cs : List Char) : (s.blank cs).length = cs.length := by
  induction cs generalizing s with
  | nil => rfl
  | cons c cs ih => simp only [blank, List.length_cons, ih]

theorem blank_eq_nil {s : Lexer} {cs : List Char} : s.blank cs = [] ↔ cs = [] := by
  rw [← List.length_eq_zero_iff, length_blank, List.length_eq_zero_iff]

theorem covers_of_not_inComment {s : Lexer} (h : s.inComment = false) (c : Char) :
    s.covers c = false := by
  simp [covers, h]

theorem blankChar_of_not_covers {s : Lexer} {c : Char} (h : s.covers c = false) :
    s.blankChar c = c := by
  unfold blankChar
  split
  · next hb => simp [covers, hb.1, hb.2.1] at h
  · rfl

theorem blankChar_of_not_inComment {s : Lexer} (h : s.inComment = false) (c : Char) :
    s.blankChar c = c := blankChar_of_not_covers (covers_of_not_inComment h c)

/-- A blank is read like the character that it stands for. -/
@[simp] theorem step_blankChar (s : Lexer) (c : Char) : s.step (s.blankChar c) = s.step c := by
  unfold blankChar
  split
  · next h => exact h.2.2
  · rfl

@[simp] theorem run_blank (s : Lexer) (cs : List Char) : s.run (s.blank cs) = s.run cs := by
  induction cs generalizing s with
  | nil => rfl
  | cons c cs ih => simp only [blank, run_cons, step_blankChar, ih]

/-- Where no comment is there is nothing to blank. -/
theorem blank_of_comments {s : Lexer} {cs : List Char} (h : s.comments cs = []) :
    s.blank cs = cs := by
  induction cs generalizing s with
  | nil => rfl
  | cons c cs ih =>
    unfold comments at h
    split at h
    · cases h
    · next hc => rw [blank, ih h, blankChar_of_not_covers (by simpa using hc)]

theorem blankChar_eq_break {s : Lexer} {c : Char} : s.blankChar c = '\n' ↔ c = '\n' := by
  unfold blankChar
  split
  · next h => exact ⟨fun h' => absurd h' (by decide), fun h' => absurd h' h.2.1⟩
  · rfl

theorem break_mem_blank {s : Lexer} {cs : List Char} : '\n' ∈ s.blank cs ↔ '\n' ∈ cs := by
  induction cs generalizing s with
  | nil => rfl
  | cons c cs ih =>
    simp only [blank, List.mem_cons, ih, eq_comm (a := '\n'), blankChar_eq_break]

theorem blank_concat (s : Lexer) (cs : List Char) (c : Char) :
    s.blank (cs ++ [c]) = s.blank cs ++ [(s.run cs).blankChar c] := blank_append s cs [c]

theorem isLine_blank {s : Lexer} {cs : List Char} (h : Text.IsLine cs) :
    Text.IsLine (s.blank cs) := by
  rcases List.eq_nil_or_concat cs with rfl | ⟨front, c, rfl⟩
  · exact h
  · rw [List.concat_eq_append] at h ⊢
    have hf := h.unbroken (by simp)
    rwa [blank_concat, Text.IsLine, List.dropLast_concat, break_mem_blank]

theorem endsLine_blank (s : Lexer) (cs : List Char) :
    Text.endsLine (s.blank cs) = Text.endsLine cs := by
  rcases List.eq_nil_or_concat cs with rfl | ⟨front, c, rfl⟩
  · rfl
  · rw [List.concat_eq_append, blank_concat, Bool.eq_iff_iff]
    simp only [Text.endsLine, List.getLast?_concat, beq_iff_eq, Option.some.injEq,
      blankChar_eq_break]

theorem countBreaks_blank (s : Lexer) (cs : List Char) :
    Text.countBreaks (s.blank cs) = Text.countBreaks cs := by
  induction cs generalizing s with
  | nil => rfl
  | cons c cs ih =>
    have ih := ih (s.step c)
    simp only [Text.countBreaks] at ih ⊢
    by_cases hc : c = '\n'
    · subst hc
      rw [blank, blankChar_eq_break.2 rfl, List.count_cons_self, List.count_cons_self, ih]
    · rw [blank, List.count_cons_of_ne (by simpa using fun h => hc (blankChar_eq_break.1 h)),
        List.count_cons_of_ne (by simpa using hc), ih]

/-! ### Lines that go on -/

theorem run_concat (s : Lexer) (cs : List Char) (c : Char) : s.run (cs ++ [c]) = (s.run cs).step c := by
  rw [run_append, run_cons, run_nil]

theorem isContinued_concat (cs : List Char) (c : Char) : isContinued (cs ++ [c]) =
    if c = '\n' ∨ c = '\r' then isContinued cs else c == '\\' := by
  simp only [isContinued, Text.dropEnd_concat]
  by_cases h : c = '\n' ∨ c = '\r'
  · simp [h]
  · simp [h]

/-- A backslash ends an unfinished line just if the reading holds one. -/
theorem isContinued_of_unbroken {s : Lexer} (hs : s.held = none) {cs : List Char} (h : '\n' ∉ cs) :
    isContinued cs = (s.run cs).held.isSome := by
  induction cs using List.reverseRecOn with
  | nil => simp [isContinued, Text.dropEnd, hs]
  | append_singleton cs c ih =>
    simp only [List.mem_append, List.mem_singleton, not_or] at h
    rw [isContinued_concat, run_concat, ih h.1]
    have hc : c ≠ '\n' := Ne.symm h.2
    unfold step
    by_cases hb : c = '\\'
    · simp [hb]
    · by_cases hr : c = '\r' <;> simp [hc, hb, hr]

/-- A line goes on in the next one just if its end joins the two. -/
theorem isContinued_eq {s : Lexer} (hs : s.held = none) {line : List Char} (hl : Text.IsLine line)
    (hne : line ≠ []) : isContinued line = ((s.run line).joined || (s.run line).held.isSome) := by
  rcases List.eq_nil_or_concat line with rfl | ⟨front, c, rfl⟩
  · exact absurd rfl hne
  · rw [List.concat_eq_append] at *
    have hf : '\n' ∉ front := hl.unbroken (by simp)
    have ih := isContinued_of_unbroken hs hf
    rw [isContinued_concat, run_concat, ih]
    unfold step
    by_cases hc : c = '\n'
    · cases hh : (s.run front).held <;> simp [hc]
    · by_cases hb : c = '\\'
      · simp [hb]
      · by_cases hr : c = '\r' <;> simp [hc, hb, hr]

/-! ### Texts that are read through -/

/-- A text that is read through: behind it nothing is open, and no comment is
in it. -/
structure Passes (s : Lexer) (text : List Char) : Prop where
  run : s.run text = {}
  comments : s.comments text = []

/-- A text that is read through wherever it stands in code. -/
def Inert (text : List Char) : Prop := ∀ s : Lexer, s.inCode = true → s.Passes text

/-- A character that opens nothing and ends no line. -/
def isPlain (c : Char) : Bool :=
  c != '/' && c != '*' && c != '"' && c != '\\' && c != '\n' && c != '\r'

theorem inComment_of_inCode {s : Lexer} (h : s.inCode = true) : s.inComment = false := by
  obtain ⟨mode, held, joined⟩ := s
  cases mode <;> first | rfl | cases h

theorem step_plain {s : Lexer} (h : s.inCode = true) {c : Char} (hc : isPlain c = true) :
    s.step c = {} := by
  obtain ⟨mode, held, joined⟩ := s
  simp only [isPlain, Bool.and_eq_true, bne_iff_ne] at hc
  obtain ⟨⟨⟨⟨⟨hs, ht⟩, hq⟩, hb⟩, hn⟩, hr⟩ := hc
  have hnext : mode.next c = .code := by
    cases mode with
    | code => exact LexMode.next_code hs hq
    | slash => exact LexMode.next_slash hs ht hq
    | _ => cases h
  simp [step, hb, hn, hr, hnext]

theorem comments_cons_of_inCode {s : Lexer} (h : s.inCode = true) (c : Char) (cs : List Char) :
    s.comments (c :: cs) = (s.step c).comments cs := by
  rw [comments, covers_of_not_inComment (inComment_of_inCode h)]
  rfl

theorem passes_nil : Passes {} [] := ⟨rfl, rfl⟩

theorem Passes.append {s : Lexer} {a b : List Char} (ha : s.Passes a) (hb : Passes {} b) :
    s.Passes (a ++ b) where
  run := by rw [run_append, ha.run, hb.run]
  comments := by rw [comments_append, ha.comments, ha.run, hb.comments, List.append_nil]

/-- Characters that leave the reading where it is. -/
theorem passes_of_step : ∀ {w : List Char}, (∀ c ∈ w, step {} c = {}) → Passes {} w
  | [], _ => passes_nil
  | c :: w, h => by
    have hc := h c (List.mem_cons_self ..)
    obtain ⟨hr, hn⟩ := passes_of_step fun d hd => h d (List.mem_cons_of_mem c hd)
    exact ⟨by rw [run_cons, hc, hr], by rw [comments_cons_of_inCode rfl, hc, hn]⟩

theorem passes_of_plain {w : List Char} (h : w.all isPlain = true) : Passes {} w :=
  passes_of_step fun c hc => step_plain rfl (List.all_eq_true.1 h c hc)

theorem inert_of_plain {w : List Char} (hne : w ≠ []) (h : w.all isPlain = true) : Inert w := by
  intro s hs
  cases w with
  | nil => exact absurd rfl hne
  | cons c w =>
    rw [List.all_cons, Bool.and_eq_true] at h
    have hc := step_plain hs h.1
    obtain ⟨hr, hn⟩ := passes_of_plain h.2
    exact ⟨by rw [run_cons, hc, hr], by rw [comments_cons_of_inCode hs, hc, hn]⟩

theorem Passes.blank_append {s : Lexer} {a : List Char} (h : s.Passes a) (b : List Char) :
    s.blank (a ++ b) = a ++ Lexer.blank {} b := by
  rw [Lexer.blank_append, blank_of_comments h.comments, h.run]

theorem head?_blank {s : Lexer} (h : s.inComment = false) (cs : List Char) :
    (s.blank cs).head? = cs.head? := by
  cases cs with
  | nil => rfl
  | cons c cs => rw [blank, List.head?_cons, List.head?_cons, blankChar_of_not_inComment h]

end Lexer
end AudioShader
