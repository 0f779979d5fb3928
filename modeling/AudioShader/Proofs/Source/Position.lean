/-
# Where the output is

The output counts its lines as it is written, and the last marker tells which
line of which file the one being written stands for (`Output.here`). A marker
sets it and any other piece moves it on by its line feeds. What is written
later does not change what the map says of this line (`resolve_line`), because
every later marker is behind it.

Key definitions: `Output.Sound`, `Output.here`.
Key theorems: `Output.sound_ofPieces`, `Output.here_write`, `resolve_line`.
-/
import Mathlib.Data.List.Basic
import AudioShader.Proofs.Source.Breaks

namespace AudioShader
namespace Output

/-! ### What is counted -/

/-- The counts are those of the text, and no marker is past the line being
written. -/
structure Sound (o : Output) : Prop where
  line : o.line = 1 + Text.countBreaks o.text.toList
  fresh : o.fresh = true ↔ o.text = "" ∨ Text.endsLine o.text.toList = true
  sorted : o.markers.toList.Pairwise fun a b => a.outputLine < b.outputLine
  behind : ∀ m ∈ o.markers.toList, m.outputLine ≤ o.line

@[simp] theorem push_text (o : Output) (t : String) : (o.push t).text = o.text ++ t := rfl
@[simp] theorem push_markers (o : Output) (t : String) : (o.push t).markers = o.markers := rfl

@[simp] theorem push_line (o : Output) (t : String) :
    (o.push t).line = o.line + Text.countBreaks t.toList := rfl

theorem Sound.push {o : Output} (h : o.Sound) (t : String) : (o.push t).Sound where
  line := by
    rw [push_line, push_text, h.line, String.toList_append, Text.countBreaks_append]
    omega
  fresh := by
    by_cases ht : t = ""
    · subst ht
      simpa [Output.push] using h.fresh
    · have hne : t.toList ≠ [] := by simpa using ht
      have hf : (o.push t).fresh = Text.endsLine t.toList := by simp [Output.push, ht]
      rw [hf, push_text, String.toList_append, Text.endsLine_append _ hne]
      simp [ht]
  sorted := h.sorted
  behind := by
    intro m hm
    have := h.behind m hm
    rw [push_line]
    omega

/-- The output with a line feed, unless a line has just begun. -/
def freshened (o : Output) : Output := if o.fresh then o else o.push "\n"

theorem Sound.freshened {o : Output} (h : o.Sound) : o.freshened.Sound := by
  unfold Output.freshened
  split
  · exact h
  · exact h.push "\n"

@[simp] theorem freshened_markers (o : Output) : o.freshened.markers = o.markers := by
  unfold freshened
  split <;> rfl

theorem freshened_fresh (o : Output) : o.freshened.fresh = true := by
  unfold freshened
  split
  · assumption
  · simp [Output.push, Text.endsLine]

theorem le_freshened_line (o : Output) : o.line ≤ o.freshened.line := by
  unfold freshened
  split
  · exact Nat.le_refl _
  · exact Nat.le_add_right _ _

theorem write_marker (o : Output) (file line : Nat) :
    o.write (.marker file line) =
      let o' := o.freshened.push (Piece.marker file line).body
      { o' with markers := o.markers.push ⟨o'.line, file, line⟩ } := by
  simp only [write, freshened]
  split <;> rfl

theorem write_of_not_marker (o : Output) {p : Piece} (h : ∀ file line, p ≠ .marker file line) :
    o.write p = o.push p.body := by
  cases p with
  | marker file line => exact absurd rfl (h file line)
  | _ => rfl

/-- A marker has one line feed, at its end. -/
theorem countBreaks_marker (file line : Nat) :
    Text.countBreaks (Piece.marker file line).body.toList = 1 := by
  have h₁ := Text.countBreaks_eq_zero.2 (unbroken_toString file)
  have h₂ := Text.countBreaks_eq_zero.2 (unbroken_toString line)
  simp only [Piece.body, String.toList_append, Text.countBreaks_append, h₁, h₂]
  decide

theorem Sound.write {o : Output} (h : o.Sound) (p : Piece) : (o.write p).Sound := by
  cases p with
  | marker file line =>
    rw [write_marker]
    have hs := h.freshened.push (Piece.marker file line).body
    have hle := o.le_freshened_line
    refine ⟨hs.line, hs.fresh, ?_, ?_⟩
    · simp only [Array.toList_push, List.pairwise_append, List.pairwise_singleton, true_and,
        List.mem_singleton, forall_eq]
      refine ⟨h.sorted, fun m hm => ?_⟩
      have := h.behind m hm
      rw [push_line, countBreaks_marker]
      omega
    · intro m hm
      simp only [Array.toList_push, List.mem_append, List.mem_singleton] at hm
      rcases hm with hm | rfl
      · exact hs.behind m (by simpa using hm)
      · exact Nat.le_refl _
  | _ => exact h.push _

theorem sound_foldl {o : Output} (h : o.Sound) (ps : List Piece) : (ps.foldl write o).Sound := by
  induction ps generalizing o with
  | nil => exact h
  | cons p ps ih => exact ih (h.write p)

theorem sound_ofPieces (ps : List Piece) : (ofPieces ps).Sound := by
  refine sound_foldl ?_ ps
  exact ⟨rfl, by simp, by simp, by simp⟩

theorem ofPieces_append (ps qs : List Piece) : ofPieces (ps ++ qs) = qs.foldl write (ofPieces ps) :=
  List.foldl_append

theorem ofPieces_concat (ps : List Piece) (p : Piece) :
    ofPieces (ps ++ [p]) = (ofPieces ps).write p := by simp [ofPieces_append]

/-! ### What is written later -/

/-- Later pieces only add text, and markers behind the line being written. -/
structure Extends (o o' : Output) : Prop where
  text : ∃ more, o'.text = o.text ++ more
  line : o.line ≤ o'.line
  markers : ∃ later, o'.markers.toList = o.markers.toList ++ later ∧ ∀ m ∈ later, o.line < m.outputLine

theorem Extends.refl (o : Output) : Extends o o :=
  ⟨⟨"", by simp⟩, Nat.le_refl _, [], by simp, by simp⟩

theorem Extends.trans {o₁ o₂ o₃ : Output} (h : Extends o₁ o₂) (h' : Extends o₂ o₃) :
    Extends o₁ o₃ := by
  obtain ⟨⟨t, ht⟩, hl, ms, hm, hlt⟩ := h
  obtain ⟨⟨t', ht'⟩, hl', ms', hm', hlt'⟩ := h'
  refine ⟨⟨t ++ t', by rw [ht', ht, String.append_assoc]⟩, hl.trans hl', ms ++ ms', ?_, ?_⟩
  · rw [hm', hm, List.append_assoc]
  · intro m hmem
    rcases List.mem_append.1 hmem with hmem | hmem
    · exact hlt m hmem
    · exact lt_of_le_of_lt hl (hlt' m hmem)

theorem extends_push (o : Output) (t : String) : Extends o (o.push t) :=
  ⟨⟨t, rfl⟩, Nat.le_add_right _ _, [], by simp, by simp⟩

theorem extends_freshened (o : Output) : Extends o o.freshened := by
  unfold freshened
  split
  · exact .refl o
  · exact extends_push o "\n"

theorem extends_write (o : Output) (p : Piece) : Extends o (o.write p) := by
  cases p with
  | marker file line =>
    obtain ⟨ht, hl, -⟩ := o.extends_freshened.trans (extends_push _ (Piece.marker file line).body)
    rw [write_marker]
    refine ⟨ht, hl, [_], Array.toList_push .., ?_⟩
    have := o.le_freshened_line
    simp only [List.mem_singleton, forall_eq, push_line, countBreaks_marker]
    omega
  | _ => exact extends_push o _

theorem extends_foldl (o : Output) (ps : List Piece) : Extends o (ps.foldl write o) := by
  induction ps generalizing o with
  | nil => exact .refl o
  | cons p ps ih => exact (extends_write o p).trans (ih _)

/-! ### The line being written -/

/-- The number of the file and the line of it that the line being written
stands for. -/
def here (o : Output) : Option (Nat × Nat) :=
  o.markers.toList.getLast?.map fun m => (m.file, m.line + (o.line - m.outputLine))

theorem here_push {o : Output} (h : o.Sound) (t : String) :
    (o.push t).here = o.here.map fun p => (p.1, p.2 + Text.countBreaks t.toList) := by
  simp only [here, push_markers, push_line, Option.map_map]
  refine Option.map_congr fun m hm => ?_
  have := h.behind m (List.mem_of_getLast? hm)
  simp only [Function.comp_apply, Prod.mk.injEq, true_and]
  omega

@[simp] theorem here_marker (o : Output) (file line : Nat) :
    (o.write (.marker file line)).here = some (file, line) := by
  simp [write_marker, here]

/-- A marker tells where its own next line is, any other piece counts on. -/
theorem here_write {o : Output} (h : o.Sound) {p : Piece} (hp : ∀ file line, p ≠ .marker file line) :
    (o.write p).here = o.here.map fun q => (q.1, q.2 + Text.countBreaks p.body.toList) := by
  rw [write_of_not_marker o hp]
  exact here_push h _

/-- The map of what has been written in the end resolves the line being written
to where the output is now. -/
theorem resolve_line {o o' : Output} (h : o.Sound) (he : Extends o o') (files : List Path) :
    (⟨files, o'.markers.toList⟩ : SourceMap).resolve o.line =
      o.here.bind fun p => (files[p.1]?).map fun path => ⟨path, p.2⟩ := by
  obtain ⟨later, hm, hlt⟩ := he.markers
  have ht : (o'.markers.toList.takeWhile fun k => decide (k.outputLine ≤ o.line)) =
      o.markers.toList := by
    rw [hm, List.takeWhile_append_of_pos (by simpa using h.behind)]
    suffices later.takeWhile (fun k => decide (k.outputLine ≤ o.line)) = [] by rw [this, List.append_nil]
    rw [List.takeWhile_eq_nil_iff]
    intro hpos
    simpa using hlt _ (List.getElem_mem hpos)
  simp only [SourceMap.resolve, ht, here, Option.bind_map, Option.bind_eq_bind]
  refine Option.bind_congr fun m _ => ?_
  cases h : files[m.file]? <;> simp [h]

end Output
end AudioShader
