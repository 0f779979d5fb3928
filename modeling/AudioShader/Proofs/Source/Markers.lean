/-
# Markers and the lines that show them

A marker of the map is shown in the text: on the line in front of the one that
it tells, as a `#line` line of its own. Text in front moves both alike. The
numbers in markers are those of files and lines that were read.

Key definitions: `LineOrigin.shown`, `Shows`, `Numbered`.
Key theorems: `Output.shows_ofPieces`, `Shows.lead`, `Processed.numbered`.
-/
import AudioShader.Proofs.Source.Position
import AudioShader.Proofs.Source.Trace
import AudioShader.Proofs.Text.Lines

namespace AudioShader

/-- The line of the text that shows a marker. -/
def LineOrigin.shown (m : LineOrigin) : List Char :=
  "#line ".toList ++ (toString m.line).toList ++ ' ' :: (toString m.file).toList

theorem LineOrigin.shown_eq (m : LineOrigin) : m.shown =
    "#line ".toList ++ (toString m.line).toList ++ ' ' :: (toString m.file).toList := rfl

theorem toList_marker (a b : String) : ("#line " ++ a ++ " " ++ b ++ "\n").toList =
    "#line ".toList ++ a.toList ++ ' ' :: b.toList ++ ['\n'] := by
  have hblank : " ".toList = [' '] := by decide
  have hbreak : "\n".toList = ['\n'] := by decide
  simp only [String.toList_append, hblank, hbreak]
  rw [List.append_assoc _ [' '], List.singleton_append]

theorem toList_body_marker (m : LineOrigin) :
    (Piece.marker m.file m.line).body.toList = m.shown ++ ['\n'] := toList_marker _ _

theorem unbroken_shown (m : LineOrigin) : '\n' ∉ m.shown := by
  have hlead : '\n' ∉ "#line ".toList := by decide
  have hl := unbroken_toString m.line
  have hf := unbroken_toString m.file
  intro h
  rcases List.mem_append.1 h with h | h
  · exact (List.mem_append.1 h).elim hlead hl
  · rcases List.mem_cons.1 h with h | h
    · exact absurd h (by decide)
    · exact hf h

/-! ### What is shown -/

/-- Every marker is shown by a line of the text, in front of the line that it
tells. -/
def Shows (text : String) (markers : List LineOrigin) : Prop :=
  ∀ m ∈ markers, ∃ front back : String,
    text = front ++ String.ofList (m.shown ++ ['\n']) ++ back ∧
      (front = "" ∨ Text.endsLine front.toList = true) ∧
      m.outputLine = Text.countBreaks front.toList + 2

namespace Shows

variable {text : String} {markers : List LineOrigin}

theorem append (h : Shows text markers) (more : String) : Shows (text ++ more) markers := by
  intro m hm
  obtain ⟨front, back, rfl, hf, hout⟩ := h m hm
  exact ⟨front, back ++ more, by simp only [String.append_assoc], hf, hout⟩

theorem push (h : Shows text markers) {m : LineOrigin} (front back : String)
    (ht : text = front ++ String.ofList (m.shown ++ ['\n']) ++ back)
    (hf : front = "" ∨ Text.endsLine front.toList = true)
    (hout : m.outputLine = Text.countBreaks front.toList + 2) : Shows text (markers ++ [m]) := by
  intro k hk
  rcases List.mem_append.1 hk with hk | hk
  · exact h k hk
  · rw [List.mem_singleton.1 hk]
    exact ⟨front, back, ht, hf, hout⟩

/-- The line that shows a marker is a line of the text. -/
theorem line (h : Shows text markers) {m : LineOrigin} (hm : m ∈ markers) :
    ∃ n, m.outputLine = n + 2 ∧ (Text.lines text)[n]? = some m.shown := by
  obtain ⟨front, back, rfl, hf, hout⟩ := h m hm
  refine ⟨_, hout, ?_⟩
  have hend : Text.endsLine (String.ofList (m.shown ++ ['\n'])).toList = true := by
    simp [Text.endsLine]
  have hlast : m.shown.getLast? ≠ some '\r' := by
    intro hl
    rw [LineOrigin.shown_eq, List.getLast?_append_of_ne_nil _ (List.cons_ne_nil _ _)] at hl
    rcases List.mem_cons.1 (List.mem_of_getLast? hl) with hc | hc
    · cases hc
    · rw [Nat.toString_eq_repr, Nat.toList_repr] at hc
      exact absurd (Nat.isDigit_of_mem_toDigits (by omega) (by omega) hc) (by decide)
  have hline := Text.lines_line (unbroken_shown m) hlast
  rw [String.append_assoc]
  rcases hf with rfl | hf
  · rw [String.empty_append, Text.lines_append hend, hline]
    rfl
  · rw [Text.lines_append hf, Text.lines_append hend, hline, ← Text.length_lines hf,
      List.getElem?_append_right (Nat.le_refl _), Nat.sub_self]
    rfl

/-- What stands in front moves the markers and the lines that show them. -/
theorem lead (h : Shows text markers) {lead : String} (he : Text.endsLine lead.toList = true) :
    Shows (lead ++ text) (markers.map fun m =>
      { m with outputLine := m.outputLine + Text.countBreaks lead.toList }) := by
  intro k hk
  obtain ⟨m, hm, rfl⟩ := List.mem_map.1 hk
  obtain ⟨front, back, rfl, hf, hout⟩ := h m hm
  refine ⟨lead ++ front, back, ?_, .inr ?_, ?_⟩
  · rw [String.append_assoc, String.append_assoc, String.append_assoc]
    rfl
  · rw [String.toList_append]
    rcases hf with rfl | hf
    · simpa using he
    · have hne : front.toList ≠ [] := by
        intro hnil
        rw [hnil] at hf
        cases hf
      rw [Text.endsLine_append _ hne, hf]
  · rw [String.toList_append, Text.countBreaks_append]
    dsimp only
    omega

end Shows

namespace Output

theorem shows_write {o : Output} (hs : o.Sound) (h : Shows o.text o.markers.toList) (p : Piece) :
    Shows (o.write p).text (o.write p).markers.toList := by
  cases p with
  | marker file line =>
    obtain ⟨⟨more, hmore⟩, -, -⟩ := o.extends_freshened
    have hfresh := hs.freshened
    rw [write_marker]
    simp only [push_text, push_line, Array.toList_push, countBreaks_marker]
    have hold : Shows (o.freshened.text ++ (Piece.marker file line).body) o.markers.toList := by
      rw [hmore]
      exact (h.append more).append _
    set m : LineOrigin := ⟨o.freshened.line + 1, file, line⟩ with hm
    have hbody : (Piece.marker file line).body = String.ofList (m.shown ++ ['\n']) := by
      rw [← String.toList_inj, String.toList_ofList]
      exact toList_body_marker m
    refine hold.push o.freshened.text "" ?_ (hfresh.fresh.1 o.freshened_fresh) ?_
    · rw [hbody, String.append_empty]
    · have := hfresh.line
      simp only [hm]
      omega
  | _ => exact h.append _

theorem shows_foldl {o : Output} (hs : o.Sound) (h : Shows o.text o.markers.toList)
    (ps : List Piece) : Shows (ps.foldl write o).text (ps.foldl write o).markers.toList := by
  induction ps generalizing o with
  | nil => exact h
  | cons p ps ih => exact ih (hs.write p) (shows_write hs h p)

theorem shows_ofPieces (ps : List Piece) :
    Shows (ofPieces ps).text (ofPieces ps).markers.toList := by
  refine shows_foldl (sound_ofPieces []) ?_ ps
  intro m hm
  cases hm

/-! ### The numbers in markers -/

theorem mem_of_mem_markers {o : Output} {ps : List Piece} {m : LineOrigin}
    (h : m ∈ (ps.foldl write o).markers.toList) :
    m ∈ o.markers.toList ∨ .marker m.file m.line ∈ ps := by
  induction ps generalizing o with
  | nil => exact .inl h
  | cons p ps ih =>
    rcases ih h with h | h
    · cases p with
      | marker file line =>
        rw [write_marker] at h
        simp only [Array.toList_push, List.mem_append, List.mem_singleton] at h
        rcases h with h | rfl
        · exact .inl h
        · exact .inr (List.mem_cons_self ..)
      | _ => exact .inl h
    · exact .inr (List.mem_cons_of_mem _ h)

/-- There are fewer markers than lines. -/
theorem markers_lt_line {o : Output} (h : o.markers.size < o.line) (ps : List Piece) :
    (ps.foldl write o).markers.size < (ps.foldl write o).line := by
  induction ps generalizing o with
  | nil => exact h
  | cons p ps ih =>
    refine ih ?_
    cases p with
    | marker file line =>
      have hle := o.le_freshened_line
      rw [write_marker]
      simp only [Array.size_push, push_line, countBreaks_marker]
      omega
    | _ => exact Nat.lt_of_lt_of_le h (Nat.le_add_right _ _)

theorem size_markers_le (o : Output) (ps : List Piece) :
    o.markers.size ≤ (ps.foldl write o).markers.size := by
  obtain ⟨later, hm, -⟩ := (o.extends_foldl ps).markers
  have := congrArg List.length hm
  simp only [Array.length_toList, List.length_append] at this
  omega

end Output

variable {C : Type}

/-- The numbers in the markers of a run: those of open files, and of lines up to
`limit`. Every open file has a marker. -/
structure Numbered (limit : Nat) (r : Run C) : Prop where
  markers : ∀ file line, .marker file line ∈ r.pieces.toList →
    file < r.files.size ∧ 1 ≤ line ∧ line ≤ limit
  files : r.files.size ≤ (Output.ofPieces r.pieces.toList).markers.size

namespace Numbered

variable {limit : Nat} {r : Run C}

theorem add (h : Numbered limit r) {ps : List Piece} (hp : ∀ file line, .marker file line ∈ ps →
    file < r.files.size ∧ 1 ≤ line ∧ line ≤ limit) : Numbered limit (r.add ps) where
  markers file line hm := by
    rw [Run.add_pieces] at hm
    rcases List.mem_append.1 hm with hm | hm
    · exact h.markers file line hm
    · exact hp file line hm
  files := by
    rw [Run.add_files, Run.add_pieces, Output.ofPieces_append]
    exact h.files.trans (Output.size_markers_le _ ps)

theorem opened (h : Numbered limit r) (hlimit : 1 ≤ limit) (path : Path) :
    Numbered limit (r.opened path) where
  markers file line hm := by
    have hsize : (r.opened path).files.size = r.files.size + 1 := by simp [Run.opened]
    rw [Run.opened_pieces] at hm
    rw [hsize]
    rcases List.mem_append.1 hm with hm | hm
    · have := h.markers file line hm
      omega
    · rw [List.mem_singleton] at hm
      cases hm
      omega
  files := by
    have hsize : (r.opened path).files.size = r.files.size + 1 := by simp [Run.opened]
    have hfiles := h.files
    rw [hsize, Run.opened_pieces, Output.ofPieces_concat, Output.write_marker]
    simp only [Array.size_push]
    omega

end Numbered

section Processed

variable [Substitutions C] {setup : Setup C} {unit : SourceUnit} {r r' : Run C}

/-- The markers of a line are its own. -/
theorem Stands.marker {c : C} {k : Carry} {file number f l : Nat} {line : List Char}
    {d : Option Directive} {ps : List Piece} (h : Stands c k file number line d ps)
    (hm : .marker f l ∈ k.lead d file number ++ ps) : f = file ∧ l = number := by
  rcases List.mem_append.1 hm with hlead | hps
  · rw [Carry.lead] at hlead
    split at hlead
    · rw [List.mem_singleton] at hlead
      cases hlead
      exact ⟨rfl, rfl⟩
    · cases hlead
  · clear hm
    cases h with
    | define hs =>
      simp only [List.mem_cons, List.not_mem_nil, or_false, reduceCtorEq, false_or] at hps
      cases hps
      exact ⟨rfl, rfl⟩
    | _ => simp at hps

theorem Processed.numbered {stack : List FileIdentity} {file number : Nat} {k : Carry}
    {lines : List (List Char)} {limit : Nat} (hlimit : 1 ≤ limit)
    (hfiles : ∀ path text, setup.files.readText path = .ok text → (Text.lines text).length ≤ limit)
    (h : Processed setup stack unit file number k lines r r') :
    Numbered limit r → file < r.files.size → 1 ≤ number → number + lines.length ≤ limit + 1 →
      Numbered limit r' ∧ r.files.size ≤ r'.files.size := by
  induction h with
  | done =>
    intro hr _ _ _
    exact ⟨hr, Nat.le_refl _⟩
  | @includeFile stack unit file number k line rest r r₁ r' target path text hd hp hroom hin htext
      hnested hrest ihn ihr =>
    intro hr hfile hnumber hlines
    have hsize : (r.opened path).files.size = r.files.size + 1 := by simp [Run.opened]
    have hlength := hfiles path text htext
    rw [Text.lines, List.length_map] at hlength
    obtain ⟨hr₁, hle₁⟩ := ihn (hr.opened hlimit path) (by omega) (Nat.le_refl _) (by omega)
    rw [List.length_cons] at hlines
    obtain ⟨hr', hle'⟩ := ihr hr₁ (by omega) (by omega) (by omega)
    exact ⟨hr', by omega⟩
  | @request stack unit file number k line rest r r₁ r' name args hd hdisp hrest ih =>
    intro hr hfile hnumber hlines
    have hsame : r₁.pieces = r.pieces ∧ r₁.files = r.files := by
      cases hdisp
      exact ⟨rfl, rfl⟩
    have hr₁ : Numbered limit r₁ := by
      refine ⟨?_, ?_⟩ <;> rw [hsame.1, hsame.2]
      · exact hr.markers
      · exact hr.files
    rw [List.length_cons] at hlines
    rw [← hsame.2] at hfile ⊢
    exact ih hr₁ hfile (by omega) (by omega)
  | @written stack unit file number k line rest r r' d ps hd hs hrest ih =>
    intro hr hfile hnumber hlines
    rw [List.length_cons] at hlines
    refine ih (hr.add fun f l hm => ?_) hfile (by omega) (by omega)
    obtain ⟨rfl, rfl⟩ := hs.marker hm
    exact ⟨hfile, hnumber, by omega⟩

/-- The markers of a processed source are those of lines that were read. -/
theorem numbered_of_process {c : C} {limit : Nat} {s : ProcessedSource} (hlimit : 1 ≤ limit)
    (hunit : (Text.lines unit.text).length ≤ limit)
    (hfiles : ∀ path text, setup.files.readText path = .ok text → (Text.lines text).length ≤ limit)
    (h : Action.Gives (process setup unit) { context := c } s r') : Numbered limit r' := by
  obtain ⟨hproc, -⟩ := processed_of_process h
  have hstart : Numbered limit ({ context := c } : Run C) := ⟨by simp, Nat.zero_le _⟩
  rw [Text.lines, List.length_map] at hunit
  exact (hproc.numbered hlimit hfiles (hstart.opened hlimit unit.origin) (by simp [Run.opened])
    (Nat.le_refl _) (by omega)).1

end Processed

end AudioShader
