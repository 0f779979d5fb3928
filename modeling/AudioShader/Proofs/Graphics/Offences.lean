/-
# What a compiler's scan reports

The lines that a scan refuses are told line by line, without the scan's state:
an `#error` line, and a uniform whose name an earlier line declares. The scan
reports exactly these, in order (`errors_foldl_step`), at the file and the line
that the map has for them, if the map mirrors the `#line` lines of the text.

Key definitions: `offence?`, `offences`, `position`, `Mirrors`.
Key theorems: `errors_foldl_step`, `resolve_eq_position`.
-/
import AudioShader.Graphics.Compile
import AudioShader.Proofs.Source.Markers
import AudioShader.Proofs.Text.Cuts
import AudioShader.Proofs.Text.Words

namespace AudioShader

/-! ### Lines that are refused -/

/-- The uniforms that lines declare. -/
def declaredNames (ls : List (List Char)) : List String :=
  ls.filterMap fun line =>
    match ShaderLine.ofText (Text.trim line) with
    | .uniform _ name => some name
    | _ => none

/-- What is wrong with a line behind earlier ones. -/
def offence? (earlier : List (List Char)) (line : List Char) : Option String :=
  match ShaderLine.ofText (Text.trim line) with
  | .error message =>
    let shown := String.ofList message
    some s!"'#error' : {shown}"
  | .uniform _ name =>
    if name ∈ declaredNames earlier then some s!"'{name}' : redefinition" else none
  | _ => none

/-- The numbers of the lines that are refused, behind earlier ones, with what is
wrong with them. -/
def offencesFrom (earlier : List (List Char)) : List (List Char) → List (Nat × String)
  | [] => []
  | line :: rest =>
    (offence? earlier line).toList.map (fun what => (earlier.length + 1, what)) ++
      offencesFrom (earlier ++ [line]) rest

def offences (ls : List (List Char)) : List (Nat × String) := offencesFrom [] ls

theorem offencesFrom_append : ∀ (earlier ls more : List (List Char)),
    offencesFrom earlier (ls ++ more) =
      offencesFrom earlier ls ++ offencesFrom (earlier ++ ls) more
  | earlier, [], more => by simp [offencesFrom]
  | earlier, line :: ls, more => by
    simp only [List.cons_append, offencesFrom, List.append_assoc,
      offencesFrom_append (earlier ++ [line]) ls more, List.nil_append]

theorem lt_of_mem_offencesFrom : ∀ {earlier ls : List (List Char)} {n : Nat} {what : String},
    (n, what) ∈ offencesFrom earlier ls → earlier.length < n ∧ n ≤ earlier.length + ls.length
  | earlier, [], n, what, h => by simp [offencesFrom] at h
  | earlier, line :: ls, n, what, h => by
    rw [offencesFrom, List.mem_append] at h
    rcases h with h | h
    · obtain ⟨_, -, heq⟩ := List.mem_map.1 h
      cases heq
      simp only [List.length_cons]
      omega
    · have := lt_of_mem_offencesFrom h
      simp only [List.length_append, List.length_cons, List.length_nil] at this ⊢
      omega

section Kinds

variable {line : List Char} (hl : Text.after? "#line".toList line = none)
  (he : Text.after? "#error".toList line = none)
include hl he

theorem ofText_of_declared? {type : ValueType} {name : String}
    (hd : declared? line = some (type, name)) : ShaderLine.ofText line = .uniform type name := by
  simp only [ShaderLine.ofText, hl, he, hd]

theorem ofText_of_not_declared? (hd : declared? line = none) :
    ShaderLine.ofText line = .code line := by
  simp only [ShaderLine.ofText, hl, he, hd]

end Kinds

/-! ### Where the map has a line -/

/-- The number of the file and the line of it that a map's markers tell for a
line of the output; in front of the first marker, file zero and the line itself. -/
def position (markers : List LineOrigin) (n : Nat) : Nat × Nat :=
  match (markers.takeWhile fun m => m.outputLine ≤ n).getLast? with
  | some m => (m.file, m.line + (n - m.outputLine))
  | none => (0, n)

theorem resolve_eq_position {map : SourceMap} {n : Nat} {m : LineOrigin}
    (h : map.markers.head? = some m) (hn : m.outputLine ≤ n) :
    map.resolve n = (map.files[(position map.markers n).1]?).map fun path =>
      ⟨path, (position map.markers n).2⟩ := by
  obtain ⟨rest, hm⟩ := List.head?_eq_some_iff.1 h
  have hne : map.markers.takeWhile (fun k => decide (k.outputLine ≤ n)) ≠ [] := by
    rw [hm, List.takeWhile_cons_of_pos (by simpa using hn)]
    simp
  simp only [SourceMap.resolve, position, List.getLast?_eq_getLast_of_ne_nil hne, Option.bind_eq_bind,
    Option.bind_some]
  generalize (map.markers.takeWhile fun k => decide (k.outputLine ≤ n)).getLast hne = k
  cases hf : map.files[k.file]? <;> rfl

/-- Behind the first marker the place is told by a marker that is not behind it. -/
theorem position_eq {markers : List LineOrigin} {n : Nat} {m : LineOrigin}
    (h : markers.head? = some m) (hn : m.outputLine ≤ n) :
    ∃ k ∈ markers, k.outputLine ≤ n ∧ position markers n = (k.file, k.line + (n - k.outputLine)) := by
  obtain ⟨rest, rfl⟩ := List.head?_eq_some_iff.1 h
  have hne : (m :: rest).takeWhile (fun k => decide (k.outputLine ≤ n)) ≠ [] := by
    rw [List.takeWhile_cons_of_pos (by simpa using hn)]
    simp
  have hmem := List.getLast_mem hne
  refine ⟨_, (List.takeWhile_subset _) hmem, ?_, ?_⟩
  · simpa using List.mem_takeWhile_imp hmem
  · rw [position, List.getLast?_eq_getLast_of_ne_nil hne]

theorem takeWhile_congr_of_mem {α : Type} {p q : α → Bool} : ∀ {xs : List α},
    (∀ x ∈ xs, p x = q x) → xs.takeWhile p = xs.takeWhile q
  | [], _ => rfl
  | x :: xs, h => by
    have hx := h x (List.mem_cons_self ..)
    have ih := takeWhile_congr_of_mem fun y hy => h y (List.mem_cons_of_mem _ hy)
    rw [List.takeWhile_cons, List.takeWhile_cons, hx, ih]

/-- A line where no marker begins is the next one of its file. -/
theorem position_succ {markers : List LineOrigin} {n : Nat}
    (h : ∀ m ∈ markers, m.outputLine ≠ n + 1) :
    position markers (n + 1) = ((position markers n).1, (position markers n).2 + 1) := by
  have ht : markers.takeWhile (fun m => decide (m.outputLine ≤ n + 1)) =
      markers.takeWhile fun m => decide (m.outputLine ≤ n) := by
    refine takeWhile_congr_of_mem fun m hm => ?_
    have := h m hm
    rw [decide_eq_decide]
    omega
  rw [position, position, ht]
  cases hl : (markers.takeWhile fun m => decide (m.outputLine ≤ n)).getLast? with
  | none => rfl
  | some m =>
    have hm := List.mem_takeWhile_imp (List.mem_of_getLast? hl)
    simp only [decide_eq_true_eq] at hm
    simp only [Prod.mk.injEq, true_and]
    omega

theorem position_of_marker {markers : List LineOrigin} {m : LineOrigin}
    (hs : markers.Pairwise fun a b => a.outputLine < b.outputLine) (hm : m ∈ markers) :
    position markers m.outputLine = (m.file, m.line) := by
  obtain ⟨a, b, rfl⟩ := List.append_of_mem hm
  obtain ⟨-, hb, hab⟩ := List.pairwise_append.1 hs
  have ha : ∀ k ∈ a, decide (k.outputLine ≤ m.outputLine) = true := by
    intro k hk
    simpa using Nat.le_of_lt (hab k hk m (List.mem_cons_self ..))
  have hnil : b.takeWhile (fun k => decide (k.outputLine ≤ m.outputLine)) = [] := by
    rw [List.takeWhile_eq_nil_iff]
    intro hpos
    simpa using (List.pairwise_cons.1 hb).1 _ (List.getElem_mem hpos)
  rw [position, List.takeWhile_append_of_pos ha, List.takeWhile_cons_of_pos (by simp), hnil]
  simp

/-! ### Lines that renumber -/

/-- The markers of a map mirror the `#line` lines of a text: each is on the line
behind its own one, there are no others, and all numbers fit a machine word. -/
structure Mirrors (markers : List LineOrigin) (ls : List (List Char)) : Prop where
  sorted : markers.Pairwise fun a b => a.outputLine < b.outputLine
  shown : ∀ m ∈ markers, ∃ n, m.outputLine = n + 2 ∧ ls[n]? = some m.shown
  only : ∀ n line, ls[n]? = some line → Text.startsWith "#line".toList (Text.trim line) = true →
    ∃ m ∈ markers, m.outputLine = n + 2
  fits : ∀ m ∈ markers, 1 ≤ m.line ∧ m.line < UInt64.size ∧ m.file < UInt64.size

namespace Text

theorem dropEnd_eq_self {p : Char → Bool} {cs : List Char} {c : Char} (hl : cs.getLast? = some c)
    (hc : p c = false) : dropEnd p cs = cs := by
  obtain ⟨front, rfl⟩ := List.getLast?_eq_some_iff.1 hl
  simp [dropEnd, hc]

theorem trimStart_cons {c : Char} (hc : isBlank c = false) (cs : List Char) :
    trimStart (c :: cs) = c :: cs := by
  rw [trimStart, List.dropWhile_cons_of_neg (by simp [hc])]

/-- A text without blanks at its ends. -/
theorem trim_eq_self {c d : Char} {cs : List Char} (hc : isBlank c = false)
    (hl : (c :: cs).getLast? = some d) (hd : isBlank d = false) : trim (c :: cs) = c :: cs := by
  rw [trim, trimStart_cons hc, trimEnd, dropEnd_eq_self hl hd]

end Text

theorem getLast?_shown (m : LineOrigin) :
    ∃ d, m.shown.getLast? = some d ∧ d ∈ (toString m.file).toList := by
  obtain ⟨front, d, hd⟩ := (List.eq_nil_or_concat (toString m.file).toList).resolve_left
    (toString_ne_nil m.file)
  refine ⟨d, ?_, by rw [hd]; simp⟩
  rw [LineOrigin.shown_eq, hd, List.concat_eq_append, ← List.cons_append, ← List.append_assoc]
  exact List.getLast?_concat

theorem trim_shown (m : LineOrigin) : Text.trim m.shown = m.shown := by
  obtain ⟨d, hl, hd⟩ := getLast?_shown m
  have hshown : m.shown = '#' :: m.shown.tail := rfl
  rw [hshown] at hl ⊢
  exact Text.trim_eq_self (by decide) hl (isBlank_eq_false_of_isDigit (isDigit_of_mem_toString hd))

theorem ofText_shown {m : LineOrigin} (hl : m.line < UInt64.size) (hf : m.file < UInt64.size) :
    ShaderLine.ofText (Text.trim m.shown) = .renumber (some m.line) (some m.file) := by
  have hafter : Text.after? "#line".toList m.shown =
      some (' ' :: ((toString m.line).toList ++ ' ' :: (toString m.file).toList)) :=
    Text.after?_append "#line".toList _
  have hwords : words (' ' :: ((toString m.line).toList ++ ' ' :: (toString m.file).toList)) =
      [(toString m.line).toList, (toString m.file).toList] := by
    rw [words_cons_blank, words_append (isWord_toString _), words_singleton (isWord_toString _)]
  rw [trim_shown, ShaderLine.ofText, hafter]
  simp only [hwords, List.map_cons, List.map_nil, readWord64?_toString hl, readWord64?_toString hf]
  rfl

theorem startsWith_shown (m : LineOrigin) :
    Text.startsWith "#line".toList (Text.trim m.shown) = true := by
  rw [trim_shown, Text.startsWith, LineOrigin.shown_eq]
  rw [show "#line ".toList = "#line".toList ++ [' '] from rfl, List.append_assoc, List.append_assoc,
    Text.after?_append]
  rfl

/-- Only a line that renumbers starts with `#line`. -/
theorem startsWith_line_eq_false {line : List Char}
    (h : ∀ n file, ShaderLine.ofText line ≠ .renumber n file) :
    Text.startsWith "#line".toList line = false := by
  rw [Text.startsWith, Option.isSome_eq_false_iff, Option.isNone_iff_eq_none]
  cases hline : Text.after? "#line".toList line with
  | none => rfl
  | some rest =>
    rw [ShaderLine.ofText, hline] at h
    exact absurd rfl (h _ _)

/-! ### The scan -/

/-- What the scan has come to behind earlier lines. -/
structure Follows (markers : List LineOrigin) (earlier : List (List Char)) (s : Scan) : Prop where
  place : position markers (earlier.length + 1) = (s.file, s.line + 1)
  names : s.uniforms.map (·.2) = declaredNames earlier

/-- The line of a log for a line that is refused. -/
def logLine (markers : List LineOrigin) (o : Nat × String) : String :=
  s!"ERROR: {(position markers o.1).1}:{(position markers o.1).2}: {o.2}"

theorem declaredNames_concat (ls : List (List Char)) (line : List Char) :
    declaredNames (ls ++ [line]) = declaredNames ls ++ declaredNames [line] := by
  rw [declaredNames, List.filterMap_append]
  rfl

section Follows

variable {markers : List LineOrigin} {ls earlier : List (List Char)} {line : List Char} {s : Scan}

/-- Where no marker begins behind a line, the next line follows it. -/
theorem Mirrors.position_succ (hm : Mirrors markers ls) (hl : ls[earlier.length]? = some line)
    (hn : Text.startsWith "#line".toList (Text.trim line) = false) :
    position markers (earlier.length + 1 + 1) =
      ((position markers (earlier.length + 1)).1, (position markers (earlier.length + 1)).2 + 1) := by
  refine AudioShader.position_succ fun m hmem he => ?_
  obtain ⟨n, hout, hshown⟩ := hm.shown m hmem
  obtain rfl : n = earlier.length := by omega
  rw [hl] at hshown
  cases hshown
  rw [startsWith_shown] at hn
  cases hn

theorem ofText_ne_renumber (hn : Text.startsWith "#line".toList (Text.trim line) = false)
    (n file : Option Nat) : ShaderLine.ofText (Text.trim line) ≠ .renumber n file := by
  intro h
  rw [Text.startsWith, Option.isSome_eq_false_iff, Option.isNone_iff_eq_none] at hn
  unfold ShaderLine.ofText at h
  rw [hn] at h
  dsimp only at h
  split at h
  · cases h
  · split at h <;> cases h

/-- A `#line` line sets the place, any other one moves it on by one; and what is
wrong with the line is reported at its place. -/
theorem Follows.step (hm : Mirrors markers ls) (hs : Follows markers earlier s)
    (hl : ls[earlier.length]? = some line) :
    Follows markers (earlier ++ [line]) (s.step line) ∧
      (s.step line).errors = s.errors ++
        ((offence? earlier line).toList.map fun what => logLine markers (earlier.length + 1, what)) := by
  have hlen : (earlier ++ [line]).length = earlier.length + 1 := by simp
  by_cases hn : Text.startsWith "#line".toList (Text.trim line) = true
  · obtain ⟨m, hmem, hout⟩ := hm.only _ _ hl hn
    obtain ⟨n, hout', hshown⟩ := hm.shown m hmem
    obtain rfl : n = earlier.length := by omega
    rw [hl] at hshown
    cases hshown
    obtain ⟨hpos, hline, hfile⟩ := hm.fits m hmem
    have hkind := ofText_shown hline hfile
    have hstep : s.step m.shown = { s with line := m.line - 1, file := m.file } := by
      simp only [Scan.step, hkind, Option.getD_some]
    rw [hstep]
    refine ⟨⟨?_, ?_⟩, ?_⟩
    · rw [hlen, ← hout, position_of_marker hm.sorted hmem, Nat.sub_add_cancel hpos]
    · rw [declaredNames_concat, hs.names]
      simp [declaredNames, hkind]
    · simp [offence?, hkind]
  · have hn' : Text.startsWith "#line".toList (Text.trim line) = false := by simpa using hn
    have hplace : position markers (earlier.length + 1 + 1) = (s.file, s.line + 1 + 1) := by
      rw [hm.position_succ hl hn', hs.place]
    have hlog : ∀ what, logLine markers (earlier.length + 1, what) =
        s!"ERROR: {s.file}:{s.line + 1}: {what}" := by
      intro what
      rw [logLine, hs.place]
    cases hkind : ShaderLine.ofText (Text.trim line) with
    | renumber n file => exact absurd hkind (ofText_ne_renumber hn' n file)
    | error message =>
      refine ⟨⟨?_, ?_⟩, ?_⟩
      · simpa only [Scan.step, hkind, Scan.report, hlen] using hplace
      · rw [declaredNames_concat]
        simp [Scan.step, hkind, Scan.report, hs.names, declaredNames]
      · simp [Scan.step, hkind, Scan.report, offence?, hlog]
    | uniform type name =>
      have hmem : (s.uniforms.any fun u => u.2 == name) = true ↔ name ∈ declaredNames earlier := by
        rw [← hs.names]
        simp
      have hnames : declaredNames (earlier ++ [line]) = declaredNames earlier ++ [name] := by
        rw [declaredNames_concat]
        simp [declaredNames, hkind]
      by_cases hdup : name ∈ declaredNames earlier
      · have hany := hmem.2 hdup
        refine ⟨⟨?_, ?_⟩, ?_⟩
        · simpa only [Scan.step, hkind, Scan.report, hany, if_true, hlen] using hplace
        · simp [Scan.step, hkind, Scan.report, hany, hnames, hs.names]
        · simp [Scan.step, hkind, Scan.report, hany, offence?, hdup, hlog]
      · have hany : (s.uniforms.any fun u => u.2 == name) = false := by
          rw [← Bool.not_eq_true, hmem]
          exact hdup
        refine ⟨⟨?_, ?_⟩, ?_⟩
        · simpa only [Scan.step, hkind, hany, Bool.false_eq_true, if_false, hlen] using hplace
        · simp [Scan.step, hkind, hany, hnames, hs.names]
        · simp [Scan.step, hkind, hany, offence?, hdup]
    | code text =>
      refine ⟨⟨?_, ?_⟩, ?_⟩
      · simpa only [Scan.step, hkind, hlen] using hplace
      · rw [declaredNames_concat]
        simp [Scan.step, hkind, hs.names, declaredNames]
      · simp [Scan.step, hkind, offence?]

theorem Follows.foldl (hm : Mirrors markers ls) : ∀ {rest earlier : List (List Char)} {s : Scan},
    ls = earlier ++ rest → Follows markers earlier s →
    (rest.foldl Scan.step s).errors =
      s.errors ++ (offencesFrom earlier rest).map (logLine markers)
  | [], earlier, s, _, _ => by simp [offencesFrom]
  | line :: rest, earlier, s, hls, hs => by
    have hl : ls[earlier.length]? = some line := by
      rw [hls, List.getElem?_append_right (Nat.le_refl _), Nat.sub_self]
      rfl
    obtain ⟨hs', herr⟩ := hs.step hm hl
    have hls' : ls = earlier ++ [line] ++ rest := by rw [hls, List.append_assoc, List.singleton_append]
    have ih := Follows.foldl hm hls' hs'
    rw [List.foldl_cons, ih, herr, offencesFrom, List.map_append, List.append_assoc, List.map_map]
    rfl

end Follows

/-- The scan reports exactly the lines that are refused, in order. -/
theorem errors_foldl_step {markers : List LineOrigin} {ls : List (List Char)}
    (hm : Mirrors markers ls) :
    (ls.foldl Scan.step {}).errors = (offences ls).map (logLine markers) := by
  have hzero : ∀ m ∈ markers, ¬ m.outputLine ≤ 1 := by
    intro m hmem
    obtain ⟨n, hout, -⟩ := hm.shown m hmem
    omega
  have hnil : markers.takeWhile (fun m => decide (m.outputLine ≤ 1)) = [] := by
    rw [List.takeWhile_eq_nil_iff]
    intro hpos
    simpa using hzero _ (List.getElem_mem hpos)
  have hstart : Follows markers [] {} := ⟨by simp [position, hnil], rfl⟩
  have := Follows.foldl hm (List.nil_append ls).symm hstart
  simpa [offences] using this

end AudioShader
