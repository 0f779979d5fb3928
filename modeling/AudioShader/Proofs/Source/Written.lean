/-
# The output as the shading language reads it

What is written is read again, as one text. The pieces that are no source lines
are read through: they open nothing and hold no comment. So the output is read,
behind a line of a unit, like the unit itself, and two outputs that differ only
in blanks in comments stay so.

Key definitions: `Output.reading`, `Output.comments`, `Output.Closed`,
`Output.blanked`, `Run.Beside`.
Key theorems: `Output.blanked_write`, `Output.closed_of_reading`.
-/
import AudioShader.Proofs.Source.Blanked
import AudioShader.Proofs.Source.Markers
import AudioShader.Proofs.Text.Words

namespace AudioShader

open Lexer (Passes isPlain)

/-! ### Pieces that are read through -/

namespace Lexer

theorem passes_break : Passes {} ['\n'] := ⟨rfl, rfl⟩

theorem passes_of_digits {w : List Char} (h : ∀ c ∈ w, c.isDigit = true) : Passes {} w :=
  passes_of_plain (List.all_eq_true.2 fun c hc => isPlain_of_isDigit (h c hc))

theorem passes_toString (n : Nat) : Passes {} (toString n).toList :=
  passes_of_digits fun _ => isDigit_of_mem_toString

theorem passes_intercalate {separator : String} (hs : Passes {} separator.toList) :
    ∀ {parts : List String}, (∀ s ∈ parts, Passes {} s.toList) →
      Passes {} (String.intercalate separator parts).toList
  | [], _ => passes_nil
  | [s], h => by simpa using h s (by simp)
  | s :: t :: parts, h => by
    have ih := passes_intercalate hs fun u hu => h u (List.mem_cons_of_mem s hu)
    simp only [String.intercalate_cons_cons, String.toList_append]
    exact ((h s (List.mem_cons_self ..)).append hs).append ih

end Lexer

namespace Piece

theorem passes_marker (file number : Nat) : Passes {} (marker file number).body.toList := by
  have hlead : Passes {} "#line ".toList := Lexer.passes_of_plain (by decide)
  have hblank : Passes {} " ".toList := Lexer.passes_of_plain (by decide)
  have hbreak : Passes {} "\n".toList := Lexer.passes_break
  simp only [body, String.toList_append]
  exact (((hlead.append (Lexer.passes_toString number)).append hblank).append
    (Lexer.passes_toString file)).append hbreak

theorem passes_guard {name : String} (h : Passes {} name.toList) :
    Passes {} (guard name).body.toList := by
  have hifdef : Passes {} "#ifdef ".toList := Lexer.passes_of_plain (by decide)
  have hundef : Passes {} "\n#undef ".toList := ⟨by decide, by decide⟩
  have hendif : Passes {} "\n#endif\n".toList := ⟨by decide, by decide⟩
  simp only [body, defineGuard, String.toList_append]
  exact (((hifdef.append h).append hundef).append h).append hendif

theorem passes_calls {name : String} (h : Passes {} name.toList) (file number count : Nat) :
    Passes {} (calls file number name count).body.toList := by
  have hopen : Passes {} "(".toList := Lexer.passes_of_plain (by decide)
  have hclose : Passes {} ");".toList := Lexer.passes_of_plain (by decide)
  have hblank : Passes {} " ".toList := Lexer.passes_of_plain (by decide)
  have hbreak : Passes {} "\n".toList := Lexer.passes_break
  simp only [body, expansion, String.toList_append]
  refine Passes.append (Lexer.passes_intercalate hblank fun s hs => ?_) hbreak
  obtain ⟨i, -, rfl⟩ := List.mem_map.1 hs
  simp only [String.toList_append]
  exact ((h.append hopen).append (Lexer.passes_toString i)).append hclose

end Piece

/-- A macro is named by characters of names. -/
theorem isNameChar_of_define {line : List Char} {name : String}
    (h : readDirective line = .ok (some (.define name))) :
    ∀ c ∈ name.toList, Text.isNameChar c = true := by
  have hname : ∃ rest : List Char, name = String.ofList (rest.takeWhile Text.isNameChar) := by
    unfold readDirective at h
    grind
  obtain ⟨rest, rfl⟩ := hname
  intro c hc
  rw [String.toList_ofList] at hc
  exact List.mem_takeWhile_imp hc

/-- It is a plain word. -/
theorem passes_of_define {line : List Char} {name : String}
    (h : readDirective line = .ok (some (.define name))) : Passes {} name.toList :=
  Lexer.passes_of_plain (List.all_eq_true.2 fun c hc =>
    isPlain_of_isNameChar (isNameChar_of_define h c hc))

/-! ### The output -/

namespace Output

/-- How the text that was written is read up to its end. -/
def reading (o : Output) : Lexer := Lexer.run {} o.text.toList

/-- The characters of the comments that were written. -/
def comments (o : Output) : List Char := Lexer.comments {} o.text.toList

/-- Where the next line of the output begins nothing is open. -/
def Closed (o : Output) : Prop := o.freshened.reading = {}

variable (o : Output)

theorem reading_push (t : String) : (o.push t).reading = o.reading.run t.toList := by
  rw [reading, push_text, String.toList_append, Lexer.run_append, reading]

theorem comments_push (t : String) :
    (o.push t).comments = o.comments ++ o.reading.comments t.toList := by
  rw [comments, push_text, String.toList_append, Lexer.comments_append, comments, reading]

theorem blanked_push (t : String) :
    (o.push t).blanked = o.blanked.push (String.ofList (o.reading.blank t.toList)) := by
  have htext : String.ofList (Lexer.blank {} (o.text ++ t).toList) =
      String.ofList (Lexer.blank {} o.text.toList) ++ String.ofList (o.reading.blank t.toList) := by
    rw [String.toList_append, Lexer.blank_append, String.ofList_append, reading]
  have hempty : (o.reading.blank t.toList).isEmpty = t.toList.isEmpty := by
    rw [Bool.eq_iff_iff, List.isEmpty_iff, List.isEmpty_iff, Lexer.blank_eq_nil]
  simp only [push, blanked, htext, String.toList_ofList, Lexer.countBreaks_blank,
    Lexer.endsLine_blank, hempty]

variable {o}

section Passes

variable {t : String} (h : o.reading.Passes t.toList)

include h

theorem reading_push_of_passes : (o.push t).reading = {} := by rw [reading_push, h.run]

theorem comments_push_of_passes : (o.push t).comments = o.comments := by
  rw [comments_push, h.comments, List.append_nil]

theorem blanked_push_of_passes : (o.push t).blanked = o.blanked.push t := by
  rw [blanked_push, Lexer.blank_of_comments h.comments, String.ofList_toList]

end Passes

/-! ### Fresh lines -/

theorem blanked_freshened (o : Output) : o.freshened.blanked = o.blanked.freshened := by
  have hfresh : o.blanked.fresh = o.fresh := rfl
  have hbreak : o.reading.blank "\n".toList = "\n".toList := by
    have hc : o.reading.blankChar '\n' = '\n' := Lexer.blankChar_eq_break.2 rfl
    have ht : "\n".toList = ['\n'] := by decide
    rw [ht, Lexer.blank, hc]
    rfl
  unfold freshened
  rw [hfresh]
  split
  · rfl
  · rw [blanked_push, hbreak, String.ofList_toList]

theorem Closed.comments_freshened (h : o.Closed) : o.freshened.comments = o.comments := by
  unfold Closed freshened at h
  unfold freshened
  split
  · rfl
  · next hf =>
    rw [if_neg hf, reading_push] at h
    -- the line feed ends a comment at most, and is no part of it
    have ht : "\n".toList = ['\n'] := by decide
    rw [ht] at h
    have hc : o.reading.covers '\n' = false := by
      rw [Lexer.run_cons, Lexer.run_nil] at h
      simp [Lexer.covers, h, Lexer.inComment]
    rw [comments_push, ht, Lexer.comments, hc]
    simp [Lexer.comments]

theorem closed_of_reading (h : o.reading = {}) : o.Closed := by
  unfold Closed freshened
  split
  · exact h
  · rw [reading_push, h]
    rfl

/-! ### Pieces -/

section Markers

variable (h : o.Closed) (file number : Nat)

include h

theorem passes_freshened :
    o.freshened.reading.Passes (Piece.marker file number).body.toList := by
  rw [h]
  exact Piece.passes_marker file number

theorem reading_write_marker : (o.write (.marker file number)).reading = {} := by
  rw [write_marker]
  exact reading_push_of_passes (passes_freshened h file number)

theorem comments_write_marker : (o.write (.marker file number)).comments = o.comments := by
  rw [write_marker, ← h.comments_freshened]
  exact comments_push_of_passes (passes_freshened h file number)

theorem blanked_write_marker :
    (o.write (.marker file number)).blanked = o.blanked.write (.marker file number) := by
  have hpush := blanked_push_of_passes (passes_freshened h file number)
  rw [blanked_freshened] at hpush
  rw [write_marker, write_marker, ← hpush]
  rfl

end Markers

section Pieces

variable {p : Piece} (hp : ∀ file line, p ≠ .marker file line) (h : o.reading = {})
  (hpass : Passes {} p.body.toList)

include hp h hpass

theorem reading_write : (o.write p).reading = {} := by
  rw [write_of_not_marker o hp]
  exact reading_push_of_passes (h ▸ hpass)

theorem comments_write : (o.write p).comments = o.comments := by
  rw [write_of_not_marker o hp]
  exact comments_push_of_passes (h ▸ hpass)

theorem blanked_write : (o.write p).blanked = o.blanked.write p := by
  rw [write_of_not_marker o hp, write_of_not_marker _ hp]
  exact blanked_push_of_passes (h ▸ hpass)

end Pieces

variable (o) (file number : Nat) (text : List Char)

theorem reading_write_line : (o.write (.line file number text)).reading = o.reading.run text := by
  rw [write_of_not_marker o (by simp), reading_push, Piece.body, String.toList_ofList]

theorem comments_write_line : (o.write (.line file number text)).comments =
    o.comments ++ o.reading.comments text := by
  rw [write_of_not_marker o (by simp), comments_push, Piece.body, String.toList_ofList]

theorem blanked_write_line : (o.write (.line file number text)).blanked =
    o.blanked.write (.line file number (o.reading.blank text)) := by
  rw [write_of_not_marker o (by simp), write_of_not_marker _ (by simp), blanked_push, Piece.body,
    String.toList_ofList]
  rfl

end Output

theorem LexMode.ended_eq_code {m : LexMode} (h : m.ended.isOpen = false) : m.ended = .code := by
  cases m <;> first | rfl | cases h

/-- Nothing goes on behind the end of a text. -/
structure Lexer.Closes (s : Lexer) : Prop where
  joined : s.joined = false
  held : s.held = none
  isOpen : s.isOpen = false

instance (s : Lexer) : Decidable s.Closes :=
  decidable_of_iff (s.joined = false ∧ s.held = none ∧ s.isOpen = false)
    ⟨fun ⟨hj, hh, ho⟩ => ⟨hj, hh, ho⟩, fun ⟨hj, hh, ho⟩ => ⟨hj, hh, ho⟩⟩

/-- A line feed leaves nothing open behind a text in which nothing goes on. -/
theorem Lexer.Closes.step_break {s : Lexer} (h : s.Closes) : s.step '\n' = {} := by
  have hm : s.mode.ended = .code := by
    refine LexMode.ended_eq_code ?_
    have ho : s.mode.isOpen = false := h.isOpen
    revert ho
    cases s.mode <;> exact id
  simp [Lexer.step, h.held, hm]

/-- Behind a line feed nothing is open unless a comment is, or lines are joined. -/
theorem Lexer.Closes.eq_start {s : Lexer} (h : (s.step '\n').Closes) : s.step '\n' = {} := by
  obtain ⟨hj, -, ho⟩ := h
  revert hj ho
  unfold Lexer.step
  rw [if_pos rfl]
  cases s.held with
  | some m => nofun
  | none =>
    intro _ ho
    simp only [LexMode.ended_eq_code ho]

theorem Output.closed_of_closes {o : Output} (hs : o.Sound) (h : o.reading.Closes) : o.Closed := by
  unfold Output.Closed Output.freshened
  by_cases hf : o.fresh = true
  · rw [if_pos hf]
    rcases hs.fresh.1 hf with ht | ht
    · rw [Output.reading, ht]
      rfl
    · obtain ⟨front, ht⟩ := List.getLast?_eq_some_iff.1 (by simpa [Text.endsLine] using ht)
      rw [Output.reading, ht, Lexer.run_concat] at h ⊢
      exact h.eq_start
  · have hbreak : "\n".toList = ['\n'] := by decide
    rw [if_neg hf, Output.reading_push, hbreak, Lexer.run_cons, Lexer.run_nil, h.step_break]

/-! ### Two runs side by side -/

variable {C : Type}

namespace Run

/-- What the run has written. -/
def output (r : Run C) : Output := Output.ofPieces r.pieces.toList

theorem output_add (r : Run C) (ps : List Piece) : (r.add ps).output = ps.foldl Output.write r.output := by
  rw [output, add_pieces, Output.ofPieces_append, output]

/-- Two runs that differ in blanks in the comments of what was written only. -/
structure Beside (r r' : Run C) : Prop where
  context : r'.context = r.context
  files : r'.files = r.files
  calls : r'.calls = r.calls
  output : r'.output = r.output.blanked

theorem Beside.source {r r' : Run C} (h : r.Beside r') : r'.source = r.source.blanked := by
  have ho : Output.ofPieces r'.pieces.toList = (Output.ofPieces r.pieces.toList).blanked := h.output
  rw [Run.source, Run.source, ho, h.files]
  rfl

/-- Both runs write pieces. -/
theorem Beside.add {r r' : Run C} (h : r.Beside r') {ps ps' : List Piece}
    (hps : ps'.foldl Output.write r.output.blanked = (ps.foldl Output.write r.output).blanked) :
    (r.add ps).Beside (r'.add ps') where
  context := h.context
  files := h.files
  calls := h.calls
  output := by rw [output_add, output_add, h.output, hps]

end Run
end AudioShader
