/-
# Units with blanks in their comments

A unit is blanked line by line: a line that is left to the compiler or defines a
macro gets blanks in its comments, any other one stays. The lines are still the
same directives, and the blanked files are found, or not, where the files are.

Key definitions: `Lexer.blankLine`, `blankText`, `FileTree.mapText`,
`Setup.blanked`, `SourceUnit.blanked`.
Key theorems: `Lexer.directive_blankLine`, `SourceUnit.lines_blanked`,
`FileTree.readText_mapText`.
-/
import AudioShader.Proofs.Source.Inclusion
import AudioShader.Proofs.Text.Lines

namespace AudioShader

namespace Text

/-- The lines of a text that is put together from lines. -/
theorem splitLines_flatten : ∀ {ls : List (List Char)}, Cut ls → splitLines ls.flatten = ls
  | [], _ => rfl
  | l :: ls, ⟨hne, hline, hend, hcut⟩ => by
    have ih := splitLines_flatten hcut
    rcases ls with _ | ⟨l', ls⟩
    · rw [List.flatten_singleton]
      rcases List.eq_nil_or_concat l with rfl | ⟨w, c, rfl⟩
      · exact absurd rfl hne
      · rw [List.concat_eq_append] at hline ⊢
        have hw : '\n' ∉ w := hline.unbroken (by simp)
        by_cases hc : c = '\n'
        · rw [hc, splitLines_line hw]
        · exact splitLines_of_unbroken (by simp [hw, Ne.symm hc]) (by simp)
    · have he := hend (by simp)
      obtain ⟨w, rfl⟩ := List.getLast?_eq_some_iff.1 (by simpa [endsLine] using he)
      rw [List.flatten_cons, splitLines_append he, ih, splitLines_line (hline.unbroken (by simp))]
      rfl

end Text

/-! ### Directives -/

namespace Lexer

/-- What blanks cannot hide is found in front of them. -/
theorem dropWhile_blank {p : Char → Bool} (hp : ∀ c, p c = true → step {} c = {}) :
    ∀ cs : List Char, (blank {} cs).dropWhile p = blank {} (cs.dropWhile p)
  | [] => rfl
  | c :: cs => by
    have hc : blank {} (c :: cs) = c :: blank (step {} c) cs := rfl
    by_cases h : p c = true
    · rw [hc, hp c h, List.dropWhile_cons_of_pos h, List.dropWhile_cons_of_pos h]
      exact dropWhile_blank hp cs
    · rw [hc, List.dropWhile_cons_of_neg h, List.dropWhile_cons_of_neg h, hc]

theorem takeWhile_blank {p : Char → Bool} (hp : ∀ c, p c = true → step {} c = {}) :
    ∀ cs : List Char, (blank {} cs).takeWhile p = cs.takeWhile p
  | [] => rfl
  | c :: cs => by
    have hc : blank {} (c :: cs) = c :: blank (step {} c) cs := rfl
    by_cases h : p c = true
    · rw [hc, hp c h, List.takeWhile_cons_of_pos h, List.takeWhile_cons_of_pos h,
        takeWhile_blank hp cs]
    · rw [hc, List.takeWhile_cons_of_neg h, List.takeWhile_cons_of_neg h]

theorem step_of_isBlank {c : Char} (h : Text.isBlank c = true) : step {} c = {} := by
  by_cases hn : c = '\n'
  · rw [hn]
    rfl
  by_cases hr : c = '\r'
  · rw [hr]
    rfl
  by_cases ht : c = '*'
  · rw [ht] at h
    exact absurd h (by decide)
  refine step_plain rfl ?_
  simp only [isPlain, Bool.and_eq_true, bne_iff_ne]
  refine ⟨⟨⟨⟨⟨?_, ht⟩, ?_⟩, ?_⟩, hn⟩, hr⟩ <;> rintro rfl <;> exact absurd h (by decide)

theorem step_of_isNameChar {c : Char} (h : Text.isNameChar c = true) : step {} c = {} :=
  step_plain rfl (isPlain_of_isNameChar h)

theorem trimStart_blank (cs : List Char) :
    Text.trimStart (blank {} cs) = blank {} (Text.trimStart cs) :=
  dropWhile_blank (fun _ => step_of_isBlank) cs

theorem startsDirective_blank (line : List Char) :
    startsDirective (blank {} line) = startsDirective line := by
  rw [startsDirective, trimStart_blank, head?_blank rfl, startsDirective]

theorem directiveBody_blank (line : List Char) :
    directiveBody (blank {} line) = blank {} (directiveBody line) := by
  unfold directiveBody
  rw [trimStart_blank]
  rcases Text.trimStart line with _ | ⟨c, cs⟩
  · rfl
  · by_cases hc : c = '#'
    · subst hc
      exact trimStart_blank cs
    · have hcons : blank {} (c :: cs) = c :: blank (step {} c) cs := rfl
      rw [hcons]
      split
      · next h => exact absurd (List.cons.inj h).1 hc
      · split
        · next h => exact absurd (List.cons.inj h).1 hc
        · exact hcons

/-- The line is left to the compiler or defines a macro. -/
def keeps (s : Lexer) (line : List Char) : Bool :=
  match s.directive line with
  | .ok (some d) => !d.isReplaced
  | .ok none => true
  | .error _ => false

/-- A line with blanks in its comments, if anything is written of it. -/
def blankLine (s : Lexer) (line : List Char) : List Char :=
  if s.keeps line then s.blank line else line

theorem readDirective_blank {line : List Char} (h : Lexer.keeps {} line = true)
    (hs : startsDirective line = true) : readDirective (blank {} line) = readDirective line := by
  have hd : Lexer.directive {} line = readDirective line := by simp [Lexer.directive, hs]
  rw [keeps, hd] at h
  revert h
  unfold readDirective
  simp only [directiveBody_blank, takeWhile_blank fun _ => step_of_isNameChar,
    dropWhile_blank fun _ => step_of_isNameChar, trimStart_blank]
  -- of the known words only a definition keeps its line
  split_ifs
  · cases readTarget _ <;> simp [Directive.isReplaced]
  · rcases readTokens _ with m | _ | ⟨name, args⟩ <;> simp [Directive.isReplaced]
  · exact fun _ => rfl
  · exact fun _ => rfl
  · rcases readTokens _ with m | _ | ⟨name, _ | ⟨control, _ | _⟩⟩ <;> simp [Directive.isReplaced]
  · exact fun _ => rfl

variable {s : Lexer} {line : List Char}

/-- The line is the same directive. -/
@[simp] theorem directive_blankLine (s : Lexer) (line : List Char) :
    s.directive (s.blankLine line) = s.directive line := by
  unfold blankLine
  split
  · next h =>
    unfold Lexer.directive
    by_cases hs : s = {}
    · subst hs
      rw [startsDirective_blank]
      by_cases hl : startsDirective line = true
      · rw [readDirective_blank h hl]
      · simp [hl]
    · simp [hs]
  · rfl

@[simp] theorem run_blankLine (s : Lexer) (line : List Char) :
    s.run (s.blankLine line) = s.run line := by
  unfold blankLine
  split
  · exact run_blank s line
  · rfl

theorem isLine_blankLine (s : Lexer) (h : Text.IsLine line) : Text.IsLine (s.blankLine line) := by
  unfold blankLine
  split
  · exact isLine_blank h
  · exact h

theorem endsLine_blankLine (s : Lexer) (line : List Char) :
    Text.endsLine (s.blankLine line) = Text.endsLine line := by
  unfold blankLine
  split
  · exact endsLine_blank s line
  · rfl

theorem blankLine_eq_nil : s.blankLine line = [] ↔ line = [] := by
  unfold blankLine
  split
  · rw [← List.length_eq_zero_iff, length_blank, List.length_eq_zero_iff]
  · rfl

theorem isContinued_blankLine (hs : s.held = none) (hl : Text.IsLine line) :
    isContinued (s.blankLine line) = isContinued line := by
  by_cases hne : line = []
  · rw [hne, blankLine_eq_nil.2 rfl]
  · rw [isContinued_eq hs (isLine_blankLine s hl) (mt blankLine_eq_nil.1 hne), run_blankLine,
      isContinued_eq hs hl hne]

/-! ### Lines -/

/-- The lines with blanks in their comments. -/
def blankLines (s : Lexer) (lines : List (List Char)) : List (List Char) :=
  (s.readings lines).map fun p => p.1.blankLine p.2

@[simp] theorem blankLines_nil (s : Lexer) : s.blankLines [] = [] := rfl

@[simp] theorem blankLines_cons (s : Lexer) (line : List Char) (rest : List (List Char)) :
    s.blankLines (line :: rest) = s.blankLine line :: (s.run line).blankLines rest := rfl

theorem cut_blankLines : ∀ {s : Lexer} {lines : List (List Char)}, Text.Cut lines →
    Text.Cut (s.blankLines lines)
  | _, [], _ => trivial
  | s, line :: rest, ⟨hne, hline, hend, hcut⟩ => by
    refine ⟨mt blankLine_eq_nil.1 hne, isLine_blankLine s hline, fun h => ?_, cut_blankLines hcut⟩
    rw [endsLine_blankLine]
    refine hend ?_
    rintro rfl
    exact h rfl

end Lexer

/-! ### Units, files and outputs -/

/-- The text of a unit with blanks in its comments. -/
def blankText (text : String) : String :=
  String.ofList (Lexer.blankLines {} (Text.splitLines text.toList)).flatten

theorem splitLines_blankText (text : String) : Text.splitLines (blankText text).toList =
    Lexer.blankLines {} (Text.splitLines text.toList) := by
  rw [blankText, String.toList_ofList]
  exact Text.splitLines_flatten (Lexer.cut_blankLines (Text.cut_splitLines _))

namespace SourceUnit

def blanked (u : SourceUnit) : SourceUnit := { u with text := blankText u.text }

variable (u : SourceUnit)

@[simp] theorem origin_blanked : u.blanked.origin = u.origin := rfl

theorem lines_blanked : u.blanked.lines = Lexer.blankLines {} u.lines := splitLines_blankText u.text

@[simp] theorem resolve_blanked (target : String) : u.blanked.resolve target = u.resolve target := rfl

@[simp] theorem nested_blanked (path : Path) (text : String) :
    u.blanked.nested path (blankText text) = (u.nested path text).blanked := rfl

end SourceUnit

namespace FileTree

variable {f : String → String} (t : FileTree)

/-- Bytes that are a text, as the bytes of another one. -/
def mapBytes (f : String → String) (bytes : ByteArray) : ByteArray :=
  match String.fromUTF8? bytes with
  | some text => (f text).toUTF8
  | none => bytes

/-- The tree with every text changed. -/
def mapText (f : String → String) (t : FileTree) : FileTree :=
  { t with files := t.files.map fun file => (file.1, mapBytes f file.2) }

theorem fromUTF8?_toUTF8 (text : String) : String.fromUTF8? text.toUTF8 = some text :=
  dif_pos text.isValidUTF8

theorem fromUTF8?_mapBytes (f : String → String) (bytes : ByteArray) :
    String.fromUTF8? (mapBytes f bytes) = (String.fromUTF8? bytes).map f := by
  unfold mapBytes
  split
  · next text h => rw [h, fromUTF8?_toUTF8, Option.map_some]
  · next h => rw [h, Option.map_none]

theorem contents?_mapText (names : List String) :
    (t.mapText f).contents? names = (t.contents? names).map (mapBytes f) := by
  unfold contents? mapText
  rw [List.find?_map, Option.map_map, Option.map_map]
  rfl

theorem hasFolder_mapText (names : List String) : (t.mapText f).hasFolder names = t.hasFolder names := by
  unfold hasFolder mapText
  rw [List.map_map]
  rfl

theorem step_mapText (segment : String) (place : Place) :
    (t.mapText f).step segment place = t.step segment place := by
  cases place with
  | above => rfl
  | inside names =>
    simp only [step, hasEntry, hasFolder_mapText, contents?_mapText, Option.isSome_map]
    rfl

/-- Paths lead where they led. -/
theorem locate_mapText (p : Path) : (t.mapText f).locate p = t.locate p := by
  unfold locate
  simp only [step_mapText]

theorem identity_mapText (p : Path) : (t.mapText f).identity p = t.identity p := by
  rw [identity, locate_mapText, identity]

theorem readText_mapText (p : Path) : (t.mapText f).readText p = (t.readText p).map f := by
  simp only [readText, locate_mapText, contents?_mapText, bind, Except.bind]
  rcases t.locate p with fault | names | _
  · rfl
  · cases hc : t.contents? names with
    | none =>
      simp only [hc, Option.map_none]
      rfl
    | some bytes =>
      simp only [hc, Option.map_some, fromUTF8?_mapBytes]
      cases String.fromUTF8? bytes <;> rfl
  · rfl

end FileTree

/-- The setup with blanks in the comments of every file. -/
def Setup.blanked {C : Type} (setup : Setup C) : Setup C :=
  { setup with files := setup.files.mapText blankText }

namespace Output

/-- The output with blanks in its comments. -/
def blanked (o : Output) : Output :=
  { o with text := String.ofList (Lexer.blank {} o.text.toList) }

end Output

/-- The source with blanks in its comments. -/
def ProcessedSource.blanked (s : ProcessedSource) : ProcessedSource :=
  { s with text := String.ofList (Lexer.blank {} s.text.toList) }

end AudioShader
