/-
# The lines of a lowered fragment

A lowered fragment has one line for each line of its source, in order. Only one run of lines is
put in between, behind the first version or, with a version of its own, in front of all. The
version becomes another one, plain declarations become blank and outputs without a place
are given one; every other line stays as it is (`keepsLines_loweredLines`). So if the version
stands in front of all `#line` lines, no line moves away from the one in front of it
(`KeepsLines.sinceMarker?_placeOf`).

Key definitions: `Becomes`, `KeepsLines`, `loweredLines`, `sinceMarker?`, `placeOf`.
Key theorems: `splitLines_lowered`, `keepsLines_loweredLines`, `KeepsLines.getElem?_placeOf`,
`KeepsLines.sinceMarker?_placeOf`, `lines_keep_their_places`.
-/
import Mathlib.Data.List.Forall2
import AudioShader.Proofs.Lowering.Block

namespace AudioShader

namespace Text

theorem holds_iff_infix {word : List Char} : ∀ {cs : List Char}, holds word cs = true ↔ word <:+: cs
  | [] => by simp [holds]
  | c :: cs => by rw [holds, Bool.or_eq_true, startsWith_iff, holds_iff_infix, List.infix_cons_iff]

/-- Texts that are each on a line of its own are the lines of what they make together. -/
theorem splitLines_unlines {ls : List (List Char)} (h : ∀ line ∈ ls, '\n' ∉ line) :
    splitLines (unlines (ls.map String.ofList)).toList = ls.map (· ++ ['\n']) := by
  induction ls with
  | nil => rfl
  | cons line ls ih =>
    obtain ⟨hline, hls⟩ := List.forall_mem_cons.1 h
    have hcons : (unlines ((line :: ls).map String.ofList)).toList =
        line ++ ['\n'] ++ (unlines (ls.map String.ofList)).toList := by
      simp [unlines]
    rw [hcons, splitLines_append (by simp [endsLine]), splitLines_line hline, ih hls]
    rfl

end Text

/-! ### What becomes of a line -/

/-- Whether a line numbers the lines behind it. -/
def isMarker (line : List Char) : Bool := Text.startsWith "#line".toList (Text.trimStart line)

/-- A line that declares an output and does not speak of a layout. -/
def IsBareOutput (line : List Char) : Prop :=
  "out ".toList <+: Text.trimStart line ∧ ¬"layout".toList <:+: Text.trimStart line

/-- The output is given a place, which what stands for the line begins with. -/
def Qualified (line line' : List Char) : Prop :=
  line' = "layout(location = 0) ".toList ++ Text.trimStart line

/-- What stands for a line that is not the version; `Output` tells it for bare outputs. -/
inductive Becomes (Output : List Char → List Char → Prop) : List Char → List Char → Prop
  | declaration {line : List Char} (h : (declaredExactly? line).isSome) : Becomes Output line []
  | output {line line' : List Char} (hd : declaredExactly? line = none) (h : IsBareOutput line)
      (hq : Output line line') : Becomes Output line line'
  | same {line : List Char} (hd : declaredExactly? line = none) (h : ¬IsBareOutput line) :
      Becomes Output line line

/-- What numbers lines stays, and nothing else comes to number them. -/
theorem Becomes.isMarker_eq {line line' : List Char} (h : Becomes Qualified line line') :
    isMarker line' = isMarker line := by
  cases h with
  | declaration h =>
    rw [isMarker, isMarker, Text.startsWith_eq_false (lead_of_declaredExactly? h) (by decide)
      (by decide)]
    rfl
  | output hd h hq =>
    have hlead : "layout".toList <+: Text.trimStart line' := by
      rw [hq]
      exact ⟨"(location = 0) ".toList ++ Text.trimStart line, rfl⟩
    rw [isMarker, isMarker, Text.startsWith_eq_false h.1 (by decide) (by decide),
      Text.startsWith_eq_false hlead (by decide) (by decide)]
  | same hd h => rfl

/-! ### Lines in order -/

/-- The lines `ls'` stand for the lines `ls` one by one, but that the first version is another
one, with the lines `added` behind it; without a version both stand in front. -/
inductive KeepsLines (Output : List Char → List Char → Prop) (added : List (List Char)) :
    List (List Char) → List (List Char) → Prop
  | behind {front front' back back' : List (List Char)} {line : List Char}
      (hfirst : ∀ l ∈ front, isVersion l = false) (hline : isVersion line = true)
      (hfront : List.Forall₂ (Becomes Output) front front')
      (hback : List.Forall₂ (Becomes Output) back back') :
      KeepsLines Output added (front ++ line :: back)
        (front' ++ "#version 450".toList :: (added ++ back'))
  | inFront {ls ls' : List (List Char)} (hnone : ∀ l ∈ ls, isVersion l = false)
      (hls : List.Forall₂ (Becomes Output) ls ls') :
      KeepsLines Output added ls ("#version 450".toList :: (added ++ ls'))

/-- Without a version all lines stand behind the added ones. -/
theorem KeepsLines.of_no_version {Output : List Char → List Char → Prop} {added ls ls' : List (List Char)}
    (h : KeepsLines Output added ls ls') (hnone : ∀ l ∈ ls, isVersion l = false) :
    ∃ back, ls' = "#version 450".toList :: (added ++ back) ∧ List.Forall₂ (Becomes Output) ls back := by
  cases h with
  | behind _ hline _ _ =>
    rw [hnone _ (List.mem_append_right _ List.mem_cons_self)] at hline
    cases hline
  | inFront _ hls => exact ⟨_, rfl, hls⟩

namespace FragmentLine

theorem lowered_output (rest : List Char) : lowered (.output rest) =
    "layout(location = 0) ".toList ++ ("out ".toList ++ rest) := by
  have hplace : "layout(location = 0) out ".toList =
      "layout(location = 0) ".toList ++ "out ".toList := by decide
  exact (congrArg (· ++ rest) hplace).trans (List.append_assoc ..)

/-- Behind the version no line is one. -/
theorem ofText_true (line : List Char) :
    ofText true line ≠ .version ∧ Becomes Qualified line (ofText true line).lowered := by
  unfold ofText
  simp only [Bool.not_true, Bool.false_and, Bool.false_eq_true, if_false]
  cases hd : declaredExactly? line with
  | some found => exact ⟨nofun, .declaration (by rw [hd]; rfl)⟩
  | none =>
    dsimp only
    split
    · next rest hrest =>
      have hout := Text.eq_append_of_after? hrest
      split
      · next hholds =>
        exact ⟨nofun, .same hd fun h => h.2 (Text.holds_iff_infix.1 hholds)⟩
      · next hholds =>
        have hbare : IsBareOutput line :=
          ⟨⟨rest, hout.symm⟩, fun h => hholds (Text.holds_iff_infix.2 h)⟩
        exact ⟨nofun, .output hd hbare (by rw [Qualified, hout, lowered_output])⟩
    · next hnone =>
      refine ⟨nofun, .same hd fun h => ?_⟩
      obtain ⟨rest, hrest⟩ := h.1
      rw [← hrest, Text.after?_append] at hnone
      cases hnone

theorem ofLines_true : ∀ ls : List (List Char), ofLines true ls = ls.map (ofText true)
  | [] => rfl
  | line :: ls => by rw [ofLines, Bool.true_or, ofLines_true ls, List.map_cons]

theorem ofLines_append {front : List (List Char)} (h : ∀ l ∈ front, isVersion l = false)
    (ls : List (List Char)) :
    ofLines false (front ++ ls) = front.map (ofText true) ++ ofLines false ls := by
  induction front with
  | nil => rfl
  | cons line front ih =>
    obtain ⟨hline, hfront⟩ := List.forall_mem_cons.1 h
    have hkind : ofText false line = ofText true line := by rw [ofText_false, hline]; rfl
    have hnot : (ofText true line == .version) = false := by simpa using (ofText_true line).1
    rw [List.cons_append, ofLines, hkind, hnot, Bool.false_or, ih hfront]
    rfl

theorem ofLines_version {line : List Char} (h : isVersion line = true) (back : List (List Char)) :
    ofLines false (line :: back) = .version :: back.map (ofText true) := by
  have hkind : ofText false line = .version := by rw [ofText_false, h]; rfl
  rw [ofLines, hkind, ← ofLines_true]
  rfl

theorem becomes_lowered (ls : List (List Char)) :
    List.Forall₂ (Becomes Qualified) ls ((ls.map (ofText true)).map lowered) := by
  rw [List.map_map, List.forall₂_map_right_iff, List.forall₂_same]
  exact fun line _ => (ofText_true line).2

end FragmentLine

/-- Either no line tells a version or there is a first one that does. -/
theorem versions_cases (ls : List (List Char)) : (∀ l ∈ ls, isVersion l = false) ∨
    ∃ front line back, ls = front ++ line :: back ∧ (∀ l ∈ front, isVersion l = false) ∧
      isVersion line = true := by
  induction ls with
  | nil => exact .inl fun _ h => absurd h List.not_mem_nil
  | cons l ls ih =>
    cases hl : isVersion l with
    | true => exact .inr ⟨[], l, ls, rfl, fun _ h => absurd h List.not_mem_nil, hl⟩
    | false =>
      obtain hnone | ⟨front, line, back, rfl, hfront, hline⟩ := ih
      · exact .inl (List.forall_mem_cons.2 ⟨hl, hnone⟩)
      · exact .inr ⟨l :: front, line, back, rfl, List.forall_mem_cons.2 ⟨hl, hfront⟩, hline⟩

section Insertion

variable {front : List FragmentLine} (h : .version ∉ front) (added : List (List Char))
include h

theorem findIdx?_version (back : List FragmentLine) :
    (front ++ back).findIdx? (· == .version) =
      (back.findIdx? (· == .version)).map (· + front.length) := by
  have hfront : front.findIdx? (· == .version) = none := by
    rw [List.findIdx?_eq_none_iff]
    intro kind hkind
    rw [beq_eq_false_iff_ne]
    rintro rfl
    exact h hkind
  rw [List.findIdx?_append, hfront, Option.none_or]

theorem insertLines_of_not_mem : insertLines added front =
    FragmentLine.lowered .version :: (added ++ front.map FragmentLine.lowered) := by
  have hidx := findIdx?_version h []
  rw [List.append_nil, List.findIdx?_nil, Option.map_none] at hidx
  rw [insertLines, hidx]
  rfl

theorem insertLines_append (back : List FragmentLine) :
    insertLines added (front ++ .version :: back) = front.map FragmentLine.lowered ++
      FragmentLine.lowered .version :: (added ++ back.map FragmentLine.lowered) := by
  have hidx : (front ++ .version :: back).findIdx? (· == .version) = some front.length := by
    rw [findIdx?_version h, List.findIdx?_cons, beq_self_eq_true, if_pos rfl, Option.map_some,
      Nat.zero_add]
  have hsplit : front ++ FragmentLine.version :: back = (front ++ [.version]) ++ back := by simp
  have hlen : front.length + 1 = (front ++ [FragmentLine.version]).length := by simp
  rw [insertLines, hidx]
  dsimp only
  rw [hsplit, hlen, List.take_left, List.drop_left, List.map_append, List.map_singleton,
    List.append_assoc, List.append_assoc]
  rfl

end Insertion

theorem version_not_mem (ls : List (List Char)) : .version ∉ ls.map (FragmentLine.ofText true) := by
  intro hmem
  obtain ⟨line, -, hline⟩ := List.mem_map.1 hmem
  exact (FragmentLine.ofText_true line).1 hline

/-- Lowering keeps the lines of every text. -/
theorem keepsLines_insertLines (added ls : List (List Char)) :
    KeepsLines Qualified added ls (insertLines added (FragmentLine.ofLines false ls)) := by
  obtain hnone | ⟨front, line, back, rfl, hfront, hline⟩ := versions_cases ls
  · have hkinds : FragmentLine.ofLines false ls = ls.map (FragmentLine.ofText true) := by
      simpa [FragmentLine.ofLines] using FragmentLine.ofLines_append hnone []
    rw [hkinds, insertLines_of_not_mem (version_not_mem ls)]
    exact .inFront hnone (FragmentLine.becomes_lowered ls)
  · rw [FragmentLine.ofLines_append hfront, FragmentLine.ofLines_version hline,
      insertLines_append (version_not_mem front)]
    exact .behind hfront hline (FragmentLine.becomes_lowered front)
      (FragmentLine.becomes_lowered back)

/-! ### The text -/

/-- The lines of a lowered fragment. -/
def loweredLines (source : String) : List (List Char) :=
  insertLines (addedLines (lowerFragment source).layout.slots)
    (FragmentLine.ofLines false (Text.lines source))

theorem source_lowerFragment (source : String) :
    (lowerFragment source).source = Text.unlines ((loweredLines source).map String.ofList) := rfl

theorem keepsLines_loweredLines (source : String) :
    KeepsLines Qualified (addedLines (lowerFragment source).layout.slots) (Text.lines source)
      (loweredLines source) :=
  keepsLines_insertLines ..

theorem Becomes.unbroken {line line' : List Char} (h : Becomes Qualified line line')
    (hn : '\n' ∉ line) : '\n' ∉ line' := by
  cases h with
  | declaration _ => exact List.not_mem_nil
  | output _ _ hq =>
    rw [hq, List.mem_append, not_or]
    exact ⟨by decide, fun hm => hn ((List.dropWhile_suffix _).mem hm)⟩
  | same _ _ => exact hn

/-- Lines that stand for lines without line feeds have none. -/
theorem KeepsLines.unbroken {added ls ls' : List (List Char)} (h : KeepsLines Qualified added ls ls')
    (hadded : ∀ l ∈ added, '\n' ∉ l) (hls : ∀ l ∈ ls, '\n' ∉ l) : ∀ l ∈ ls', '\n' ∉ l := by
  have hstand {xs ys : List (List Char)} (hxs : ∀ l ∈ xs, '\n' ∉ l)
      (hf : List.Forall₂ (Becomes Qualified) xs ys) : ∀ l ∈ ys, '\n' ∉ l := by
    induction hf with
    | nil => exact fun _ hm => absurd hm List.not_mem_nil
    | cons hline _ ih =>
      rw [List.forall_mem_cons] at hxs ⊢
      exact ⟨hline.unbroken hxs.1, ih hxs.2⟩
  have hversion : '\n' ∉ "#version 450".toList := by decide
  cases h with
  | behind _ _ hfront hback =>
    simp only [List.forall_mem_append, List.forall_mem_cons] at hls ⊢
    exact ⟨hstand hls.1 hfront, hversion, hadded, hstand hls.2.2 hback⟩
  | inFront _ hls' =>
    simp only [List.forall_mem_append, List.forall_mem_cons]
    exact ⟨hversion, hadded, hstand hls hls'⟩

theorem lines_of_mem_added {source : String} {line : List Char}
    (h : line ∈ addedLines (lowerFragment source).layout.slots) :
    '\n' ∉ line ∧ isMarker line = false :=
  lines_of_mem_addedLines (fun _ hs => Text.unbroken_of_all_isNameChar (isNameChar_of_mem_slots hs)) h

/-- The text of a lowered fragment has these lines, each with its line feed. -/
theorem splitLines_lowered (source : String) :
    Text.splitLines (lowerFragment source).source.toList = (loweredLines source).map (· ++ ['\n']) := by
  rw [source_lowerFragment]
  exact Text.splitLines_unlines ((keepsLines_loweredLines source).unbroken
    (fun _ h => (lines_of_mem_added h).1) fun _ h => Text.unbroken_of_mem_lines h)

/-- No other lines make up that text. -/
theorem eq_loweredLines {source : String} {ls' : List (List Char)}
    (h : Text.splitLines (lowerFragment source).source.toList = ls'.map (· ++ ['\n'])) :
    ls' = loweredLines source := by
  rw [splitLines_lowered] at h
  exact (List.map_injective_iff.2 (List.append_left_injective ['\n']) h).symm

/-! ### Markers -/

/-- How many lines in front of a line the last one stands that numbers lines, if there is one;
zero if it is the line itself. -/
def sinceMarker? (ls : List (List Char)) (i : Nat) : Option Nat :=
  (ls.take (i + 1)).reverse.findIdx? isMarker

/-- Where a line stands among those that stand for all, with a number of lines added. -/
def placeOf (ls : List (List Char)) (added i : Nat) : Nat :=
  match ls.findIdx? isVersion with
  | some version => if i ≤ version then i else i + added
  | none => i + added + 1

/-- No line in front of the version numbers lines. -/
def VersionLeads (ls : List (List Char)) : Prop :=
  ∀ version, ls.findIdx? isVersion = some version → ∀ l ∈ ls.take version, isMarker l = false

/-- In front of a line lines that do not number lines do not count; they have none in front
themselves. -/
theorem sinceMarker?_front {front : List (List Char)} (h : ∀ l ∈ front, isMarker l = false)
    (back : List (List Char)) {i : Nat} (hi : i < front.length) :
    sinceMarker? (front ++ back) i = none := by
  rw [sinceMarker?, List.findIdx?_eq_none_iff, List.take_append_of_le_length hi]
  exact fun l hl => h l (List.mem_of_mem_take (List.mem_reverse.1 hl))

theorem sinceMarker?_append {front : List (List Char)} (h : ∀ l ∈ front, isMarker l = false)
    (back : List (List Char)) (i : Nat) :
    sinceMarker? (front ++ back) (front.length + i) = sinceMarker? back i := by
  have hnone : front.reverse.findIdx? isMarker = none := by
    rw [List.findIdx?_eq_none_iff]
    exact fun l hl => h l (List.mem_reverse.1 hl)
  rw [sinceMarker?, sinceMarker?, Nat.add_assoc, List.take_length_add_append, List.reverse_append,
    List.findIdx?_append, hnone, Option.map_none, Option.or_none]

/-- Only which lines number lines matters. -/
theorem sinceMarker?_congr {ls ls' : List (List Char)} (h : ls.map isMarker = ls'.map isMarker)
    (i : Nat) : sinceMarker? ls i = sinceMarker? ls' i := by
  have hmap (ls : List (List Char)) :
      sinceMarker? ls i = ((ls.map isMarker).take (i + 1)).reverse.findIdx? id := by
    rw [← List.map_take, ← List.map_reverse, List.findIdx?_map]
    rfl
  rw [hmap, hmap, h]

theorem map_isMarker {ls ls' : List (List Char)} (h : List.Forall₂ (Becomes Qualified) ls ls') :
    ls.map isMarker = ls'.map isMarker := by
  induction h with
  | nil => rfl
  | cons hline _ ih => rw [List.map_cons, List.map_cons, hline.isMarker_eq, ih]

/-- Lines that do not number lines do not come to do so. -/
theorem unmarked_of_becomes {ls ls' : List (List Char)} (h : List.Forall₂ (Becomes Qualified) ls ls')
    (hls : ∀ l ∈ ls, isMarker l = false) : ∀ l ∈ ls', isMarker l = false := by
  have hbits : ∀ b ∈ ls.map isMarker, b = false := List.forall_mem_map.2 hls
  rw [map_isMarker h] at hbits
  exact List.forall_mem_map.1 hbits

theorem isMarker_of_isVersion {line : List Char} (h : isVersion line = true) :
    isMarker line = false :=
  Text.startsWith_eq_false (Text.startsWith_iff.1 h) (by decide) (by decide)

theorem findIdx?_isVersion {front : List (List Char)} (h : ∀ l ∈ front, isVersion l = false)
    {line : List Char} (hline : isVersion line = true) (back : List (List Char)) :
    (front ++ line :: back).findIdx? isVersion = some front.length := by
  rw [List.findIdx?_append, List.findIdx?_eq_none_iff.2 h, Option.none_or, List.findIdx?_cons, hline,
    if_pos rfl, Option.map_some, Nat.zero_add]

theorem becomes_getElem? {Output : List Char → List Char → Prop} {ls ls' : List (List Char)}
    (h : List.Forall₂ (Becomes Output) ls ls') {i : Nat} {line : List Char}
    (hl : ls[i]? = some line) : ∃ line', ls'[i]? = some line' ∧ Becomes Output line line' := by
  obtain ⟨hi, rfl⟩ := List.getElem?_eq_some_iff.1 hl
  have hi' : i < ls'.length := h.length_eq ▸ hi
  exact ⟨ls'[i], List.getElem?_eq_getElem hi', h.get hi hi'⟩

namespace KeepsLines

variable {added ls ls' : List (List Char)}

/-- If the version leads and the added lines number no lines, no line moves away from the one in
front of it that numbers lines. -/
theorem sinceMarker?_placeOf (h : KeepsLines Qualified added ls ls')
    (hadded : ∀ l ∈ added, isMarker l = false) (hleads : VersionLeads ls) (i : Nat) :
    sinceMarker? ls' (placeOf ls added.length i) = sinceMarker? ls i := by
  have hversion : isMarker "#version 450".toList = false := by decide
  cases h with
  | @behind front front' back back' line hfirst hline hfront hback =>
    have hidx := findIdx?_isVersion hfirst hline back
    -- up to the version no line numbers lines, in the source or behind it
    have hlead : ∀ l ∈ front, isMarker l = false := by
      have htake := hleads _ hidx
      rwa [List.take_left] at htake
    have hhead : ∀ l ∈ front ++ [line], isMarker l = false := by
      simp only [List.forall_mem_append, List.forall_mem_singleton]
      exact ⟨hlead, isMarker_of_isVersion hline⟩
    have hhead' : ∀ l ∈ front' ++ "#version 450".toList :: added, isMarker l = false := by
      simp only [List.forall_mem_append, List.forall_mem_cons]
      exact ⟨unmarked_of_becomes hfront hlead, hversion, hadded⟩
    have hls : front ++ line :: back = front ++ [line] ++ back := by simp
    have hls' : front' ++ "#version 450".toList :: (added ++ back') =
        front' ++ "#version 450".toList :: added ++ back' := by simp
    have hlen := hfront.length_eq
    rw [placeOf, hidx]
    dsimp only
    rw [hls, hls']
    split
    · next hi =>
      rw [sinceMarker?_front hhead _ (by simp; omega), sinceMarker?_front hhead' _ (by simp; omega)]
    · next hi =>
      obtain ⟨j, rfl⟩ : ∃ j, i = (front ++ [line]).length + j :=
        ⟨i - (front.length + 1), by simp; omega⟩
      have hplace : (front ++ [line]).length + j + added.length =
          (front' ++ "#version 450".toList :: added).length + j := by simp; omega
      rw [hplace, sinceMarker?_append hhead, sinceMarker?_append hhead',
        sinceMarker?_congr (map_isMarker hback)]
  | @inFront _ ls'' hnone hls =>
    have hidx : ls.findIdx? isVersion = none := List.findIdx?_eq_none_iff.2 hnone
    have hhead' : ∀ l ∈ "#version 450".toList :: added, isMarker l = false :=
      List.forall_mem_cons.2 ⟨hversion, hadded⟩
    have hplace : i + added.length + 1 = ("#version 450".toList :: added).length + i := by simp; omega
    rw [placeOf, hidx]
    dsimp only
    rw [hplace, ← List.cons_append, sinceMarker?_append hhead', sinceMarker?_congr (map_isMarker hls)]

/-- Where a line comes to stand is what becomes of it; for the first version that is another
one. -/
theorem getElem?_placeOf {Output : List Char → List Char → Prop} (h : KeepsLines Output added ls ls')
    {i : Nat} {line : List Char} (hl : ls[i]? = some line) :
    ∃ line', ls'[placeOf ls added.length i]? = some line' ∧
      (Becomes Output line line' ∨ ls.findIdx? isVersion = some i ∧ line' = "#version 450".toList) := by
  cases h with
  | @behind front front' back back' first hfirst hline hfront hback =>
    have hidx := findIdx?_isVersion hfirst hline back
    have hlen := hfront.length_eq
    rw [placeOf, hidx]
    dsimp only
    rcases Nat.lt_trichotomy i front.length with hi | rfl | hi
    · rw [List.getElem?_append_left hi] at hl
      obtain ⟨line', hl', hbecomes⟩ := becomes_getElem? hfront hl
      rw [if_pos (Nat.le_of_lt hi), List.getElem?_append_left (hlen ▸ hi)]
      exact ⟨line', hl', .inl hbecomes⟩
    · rw [if_pos (Nat.le_refl _), hlen, List.getElem?_append_right (Nat.le_refl _), Nat.sub_self]
      exact ⟨_, rfl, .inr ⟨rfl, rfl⟩⟩
    · obtain ⟨j, rfl⟩ : ∃ j, i = front.length + 1 + j := ⟨i - (front.length + 1), by omega⟩
      rw [List.getElem?_append_right (by omega), show front.length + 1 + j - front.length = j + 1 by omega,
        List.getElem?_cons_succ] at hl
      obtain ⟨line', hl', hbecomes⟩ := becomes_getElem? hback hl
      rw [if_neg (by omega), List.getElem?_append_right (by omega),
        show front.length + 1 + j + added.length - front'.length = added.length + j + 1 by omega,
        List.getElem?_cons_succ, List.getElem?_append_right (by omega), Nat.add_sub_cancel_left]
      exact ⟨line', hl', .inl hbecomes⟩
  | @inFront _ ls'' hnone hls =>
    have hidx : ls.findIdx? isVersion = none := List.findIdx?_eq_none_iff.2 hnone
    obtain ⟨line', hl', hbecomes⟩ := becomes_getElem? hls hl
    rw [placeOf, hidx]
    dsimp only
    rw [List.getElem?_cons_succ, List.getElem?_append_right (by omega), Nat.add_sub_cancel]
    exact ⟨line', hl', .inl hbecomes⟩

end KeepsLines

/-! ### Lines keep their places -/

/-- Lowering keeps the lines of every fragment, with the lines of the block and of the bindings
put in at one place. If the version leads, each line also keeps its distance to the line in front
of it that numbers lines. -/
theorem lines_keep_their_places (source : String) :
    ∃ ls' : List (List Char),
      Text.splitLines (lowerFragment source).source.toList = ls'.map (· ++ ['\n']) ∧
      KeepsLines Qualified (addedLines (lowerFragment source).layout.slots) (Text.lines source) ls' ∧
      (VersionLeads (Text.lines source) → ∀ (i : Nat) (line : List Char),
        (Text.lines source)[i]? = some line →
          let place := placeOf (Text.lines source)
            (addedLines (lowerFragment source).layout.slots).length i
          (∃ line', ls'[place]? = some line' ∧ (Becomes Qualified line line' ∨
            (Text.lines source).findIdx? isVersion = some i ∧ line' = "#version 450".toList)) ∧
          sinceMarker? ls' place = sinceMarker? (Text.lines source) i) := by
  have hkeeps := keepsLines_loweredLines source
  refine ⟨loweredLines source, splitLines_lowered source, hkeeps, fun hleads i line hline => ?_⟩
  exact ⟨hkeeps.getElem?_placeOf hline,
    hkeeps.sinceMarker?_placeOf (fun _ h => (lines_of_mem_added h).2) hleads i⟩

/-- A version, a line that numbers lines, a declaration and an output. -/
def numberedFragment : String :=
  "#version 330\n#line 1 2\nuniform float gain;\nout vec4 color;\nvoid main() { color.r = gain; }\n"

theorem lines_keep_their_places_numberedFragment :
    VersionLeads (Text.lines numberedFragment) ∧ ∃ ls' : List (List Char),
      Text.splitLines (lowerFragment numberedFragment).source.toList = ls'.map (· ++ ['\n']) ∧
      ls'[7]? = some "layout(location = 0) out vec4 color;".toList ∧
      sinceMarker? (Text.lines numberedFragment) 3 = some 2 ∧ sinceMarker? ls' 7 = some 2 := by
  have hlines : Text.lines numberedFragment = ["#version 330".toList, "#line 1 2".toList,
      "uniform float gain;".toList, "out vec4 color;".toList,
      "void main() { color.r = gain; }".toList] := by decide +kernel
  have hleads : VersionLeads (Text.lines numberedFragment) := by
    rw [hlines]
    intro version h
    obtain rfl : 0 = version := Option.some.inj h
    decide
  have hadded : (addedLines (lowerFragment numberedFragment).layout.slots).length = 4 := by
    decide +kernel
  obtain ⟨ls', htext, -, hplaces⟩ := lines_keep_their_places numberedFragment
  obtain ⟨⟨line', hl', hline'⟩, hsince⟩ := hplaces hleads 3 "out vec4 color;".toList (by rw [hlines]; rfl)
  rw [hlines, hadded] at hl' hsince
  refine ⟨hleads, ls', htext, ?_, by rw [hlines]; decide, hsince.trans (by decide)⟩
  obtain hbecomes | ⟨hversion, -⟩ := hline'
  · cases hbecomes with
    | declaration h => exact absurd h (by decide)
    | output _ _ hq => exact hl'.trans (congrArg some hq)
    | same _ h => exact absurd ⟨⟨"vec4 color;".toList, by decide⟩, by decide⟩ h
  · rw [hlines] at hversion
    cases hversion

/-- A text is put into the line, which stays as it is otherwise. -/
def Gains (line line' : List Char) : Prop :=
  ∃ front gained back, line = front ++ back ∧ line' = front ++ gained ++ back

theorem Gains.suffix {line line' : List Char} (h : Gains line line')
    (hhead : line.head? ≠ line'.head?) : line <:+ line' := by
  obtain ⟨_ | ⟨c, front⟩, gained, back, rfl, rfl⟩ := h
  · exact ⟨gained, rfl⟩
  · exact absurd rfl hhead

/-- An output with blanks in front of it. -/
def indentedFragment : String := "  out vec4 c;\n"

/-- An output does not only gain its place: it loses the blanks in front of it. -/
theorem not_keepsLines_gains_indentedFragment :
    ¬∃ added ls' : List (List Char),
      Text.splitLines (lowerFragment indentedFragment).source.toList = ls'.map (· ++ ['\n']) ∧
      KeepsLines Gains added (Text.lines indentedFragment) ls' := by
  rintro ⟨added, ls', htext, hkeeps⟩
  have hlines : Text.lines indentedFragment = ["  out vec4 c;".toList] := by decide
  have hlast : (loweredLines indentedFragment).getLast? =
      some "layout(location = 0) out vec4 c;".toList := by decide
  rw [hlines] at hkeeps
  obtain ⟨back, hback, hbecomes⟩ := hkeeps.of_no_version (by decide)
  obtain ⟨line', _, hline', hrest, rfl⟩ := List.forall₂_cons_left_iff.1 hbecomes
  rw [← eq_loweredLines htext, hback, List.forall₂_nil_left_iff.1 hrest, ← List.cons_append,
    List.getLast?_concat] at hlast
  obtain rfl : line' = "layout(location = 0) out vec4 c;".toList := Option.some.inj hlast
  cases hline' with
  | output _ _ hq => exact absurd (hq.suffix (by decide)) (by decide)

end AudioShader
