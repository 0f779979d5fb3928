/-
# Diagnostics of a stage

A stage is compiled behind its header. If the compiler refuses it, the
diagnostics read from the log are those of the lines that are refused, each at
the file and line that the map resolves the raw line to: numbering lines by the
`#line` lines and looking them up in the map come to the same
(`diagnose_stage`).

Key theorems: `mirrors_stage`, `diagnose_stage`.
-/
import Mathlib.Algebra.Group.Nat.Defs
import AudioShader.Graphics.Headless
import AudioShader.Proofs.Graphics.Diagnosis
import AudioShader.Proofs.Stage.Header

namespace AudioShader

open AudioShader.Action (Gives Fails)

/-! ### Sources behind a lead -/

theorem withLead_eq (s : ProcessedSource) {lead : String} (h : Text.endsLine lead.toList = true) :
    s.withLead lead = ⟨lead ++ s.text, s.map.shift (Text.countBreaks lead.toList)⟩ := by
  have hne : lead.isEmpty = false := by
    by_contra hempty
    have : lead = "" := by simpa using hempty
    rw [this] at h
    cases h
  rw [ProcessedSource.withLead, hne]
  simp [h]

section Stage

variable {C : Type} [Substitutions C] {setup : Setup C} {unit : SourceUnit} {c : C}
  {src : ProcessedSource} {r : Run C}

/-- The first marker of a source is that of its first line. -/
theorem head?_markers (h : Gives (process setup unit) { context := c } src r) :
    src.map.markers.head? = some ⟨2, 0, 1⟩ := by
  obtain ⟨hproc, rfl⟩ := processed_of_process h
  obtain ⟨more, hmore⟩ := hproc.pieces_grow
  have hfirst : ((Output.ofPieces [.marker 0 1]).markers.toList) = [⟨2, 0, 1⟩] := by
    rw [← List.nil_append [Piece.marker 0 1], Output.ofPieces_concat, Output.write_marker]
    simp only [Array.toList_push, Output.push_line, Output.countBreaks_marker]
    rfl
  have hext := (Output.extends_foldl (Output.ofPieces [.marker 0 1]) more).markers
  obtain ⟨later, hlater, -⟩ := hext
  have hpieces : r.pieces.toList = [.marker 0 1] ++ more := by
    rw [← hmore, Run.opened_pieces]
    rfl
  rw [Run.source, hpieces, Output.ofPieces_append]
  simp only [hlater, hfirst]
  rfl

/-- A source begins with the line that shows its first marker. -/
theorem lines_process (h : Gives (process setup unit) { context := c } src r) :
    ∃ rest, Text.lines src.text = LineOrigin.shown ⟨2, 0, 1⟩ :: rest := by
  have hhead := head?_markers h
  obtain ⟨-, rfl⟩ := processed_of_process h
  obtain ⟨n, hn, hline⟩ := (Output.shows_ofPieces r.pieces.toList).line (List.mem_of_head? hhead)
  obtain rfl : n = 0 := by
    simp only at hn
    omega
  rw [← List.head?_eq_getElem?] at hline
  exact List.head?_eq_some_iff.1 hline

/-- No text in a machine's memory has that many lines. -/
def lineLimit : Nat := 2 ^ 63

/-- The markers of a source mirror the `#line` lines of a stage, if the source
and the lead have no others and all texts fit into a machine's memory. -/
theorem mirrors_stage {lead : String} (h : Gives (process setup unit) { context := c } src r)
    (hlead : Text.endsLine lead.toList = true)
    (hplain : ∀ line ∈ Text.lines lead, Text.startsWith "#line".toList (Text.trim line) = false)
    (hunit : (Text.lines unit.text).length < lineLimit)
    (hfiles : ∀ path text, setup.files.readText path = .ok text →
      (Text.lines text).length < lineLimit)
    (hsize : (Text.lines (src.withLead lead).text).length < lineLimit)
    (honly : ∀ n line, (Text.lines src.text)[n]? = some line →
      Text.startsWith "#line".toList (Text.trim line) = true →
      ∃ m ∈ src.map.markers, m.outputLine = n + 2) :
    Mirrors (src.withLead lead).map.markers (Text.lines (src.withLead lead).text) ∧
      (∀ m ∈ (src.withLead lead).map.markers,
        m.file < (src.withLead lead).map.files.length ∧ m.line < lineLimit) ∧
      (src.withLead lead).map.files.length < lineLimit := by
  have hlimit : 1 ≤ lineLimit - 1 := by decide
  have hnum := numbered_of_process hlimit (Nat.le_sub_one_of_lt hunit)
    (fun path text ht => Nat.le_sub_one_of_lt (hfiles path text ht)) h
  obtain ⟨-, rfl⟩ := processed_of_process h
  rw [withLead_eq _ hlead] at hsize ⊢
  set o := Output.ofPieces r.pieces.toList with ho
  have hsound : o.Sound := Output.sound_ofPieces _
  have hshows : Shows o.text o.markers.toList := Output.shows_ofPieces _
  have hmarkers : ∀ m ∈ o.markers.toList, m.file < r.files.size ∧ 1 ≤ m.line ∧ m.line < lineLimit := by
    intro m hm
    have hpiece : Piece.marker m.file m.line ∈ r.pieces.toList := by
      rcases Output.mem_of_mem_markers hm with hm | hm
      · cases hm
      · exact hm
    obtain ⟨hf, h1, hl⟩ := hnum.markers _ _ hpiece
    exact ⟨hf, h1, by omega⟩
  have hlines : Text.lines (lead ++ o.text) = Text.lines lead ++ Text.lines o.text :=
    Text.lines_append hlead _
  have hlength : r.files.size < lineLimit := by
    have hlt : o.markers.size < o.line := Output.markers_lt_line (by decide) r.pieces.toList
    have hbreaks := Text.countBreaks_le_length_splitLines o.text.toList
    have hline := hsound.line
    have hfiles : r.files.size ≤ o.markers.size := hnum.files
    have hsize : (Text.lines (lead ++ o.text)).length < lineLimit := hsize
    rw [hlines, List.length_append, Text.lines, Text.lines, List.length_map, List.length_map] at hsize
    omega
  refine ⟨⟨?_, ?_, ?_, ?_⟩, ?_, hlength⟩
  · refine List.pairwise_map.2 (hsound.sorted.imp fun hlt => ?_)
    exact Nat.add_lt_add_right hlt _
  · exact fun m hm => (hshows.lead hlead).line hm
  · intro n line hl hstart
    change (Text.lines (lead ++ o.text))[n]? = some line at hl
    rw [hlines] at hl
    by_cases hn : n < (Text.lines lead).length
    · rw [List.getElem?_append_left hn] at hl
      rw [hplain line (List.mem_of_getElem? hl)] at hstart
      cases hstart
    · have hn : (Text.lines lead).length ≤ n := Nat.le_of_not_lt hn
      rw [List.getElem?_append_right hn] at hl
      obtain ⟨m, hm, hout⟩ := honly _ line hl hstart
      refine ⟨_, List.mem_map_of_mem hm, ?_⟩
      rw [Text.length_lines hlead] at hout hn
      dsimp only
      omega
  · intro m hm
    obtain ⟨k, hk, rfl⟩ := List.mem_map.1 hm
    obtain ⟨hf, h1, hl⟩ := hmarkers k hk
    have hword : lineLimit ≤ UInt64.size := by decide
    exact ⟨h1, Nat.lt_of_lt_of_le hl hword, by dsimp only; omega⟩
  · intro m hm
    obtain ⟨k, hk, rfl⟩ := List.mem_map.1 hm
    obtain ⟨hf, -, hl⟩ := hmarkers k hk
    exact ⟨hf, hl⟩

/-- The lines of a stage that are refused are behind its first marker. -/
theorem offences_stage {settings : PipelineSettings} {binds : List BindDecl} {o : Nat × String}
    (h : Gives (process setup unit) { context := c } src r)
    (hc : ∀ b ∈ binds, ∀ c ∈ b.name.toList, Text.isNameChar c = true)
    (hd : (binds.map (·.name)).Nodup)
    (ho : o ∈ offences (Text.lines (src.withLead (stageHeader settings binds)).text)) :
    ∃ first, (src.withLead (stageHeader settings binds)).map.markers.head? = some first ∧
      first.outputLine ≤ o.1 := by
  have hlead := endsLine_stageHeader settings binds
  obtain ⟨rest, hrest⟩ := lines_process h
  have hhead := head?_markers h
  have hnone : ∀ earlier, offence? earlier (LineOrigin.shown ⟨2, 0, 1⟩) = none := by
    intro earlier
    rw [offence?, ofText_shown (by decide) (by decide)]
  rw [withLead_eq _ hlead] at ho ⊢
  refine ⟨⟨2 + Text.countBreaks (stageHeader settings binds).toList, 0, 1⟩, ?_, ?_⟩
  · simp only [SourceMap.shift, List.head?_map, hhead, Option.map_some]
  · rw [Text.lines_append hlead, hrest, offences, offencesFrom_append, List.nil_append,
      offencesFrom, hnone] at ho
    have hheader := offences_stageHeader_eq_nil settings hc hd
    rw [offences] at hheader
    rw [hheader] at ho
    have hlt := (lt_of_mem_offencesFrom (by simpa using ho)).1
    rw [List.length_append, Text.length_lines hlead, List.length_singleton] at hlt
    dsimp only
    omega

theorem compileProgram_fails {label fragment : String} {b b' : HeadlessBackend} {e : BackendError}
    (h : Fails (HeadlessBackend.compileProgram label fragment) b e b') :
    ∃ log, scanFragment fragment = .error log ∧ e = .compile log := by
  unfold HeadlessBackend.compileProgram at h
  cases hs : scanFragment fragment with
  | error text =>
    rw [hs] at h
    obtain ⟨rfl, -⟩ := Fails.of_throw h
    exact ⟨text, rfl, rfl⟩
  | ok uniforms =>
    rw [hs] at h
    obtain ⟨log, log', h⟩ := h
    cases h

/-- Numbering lines by `#line` lines and looking them up in the map agree: the
map's markers increase and are each shown on the line in front; and if the
backend refuses the text, the log reads back as one located diagnostic for each
line that is refused, in order, where the map resolves that line to. -/
structure DiagnosesAgree (s : ProcessedSource) : Prop where
  sorted : s.map.markers.Pairwise fun a b => a.outputLine < b.outputLine
  shown : ∀ m ∈ s.map.markers, ∃ n, m.outputLine = n + 2 ∧ (Text.lines s.text)[n]? = some m.shown
  read : ∀ {label : String} {device device' : HeadlessBackend} {e : BackendError},
    Fails (GraphicsBackend.compile label s.text) device e device' → ∃ log, e = .compile log ∧
      diagnose log s.map = (offences (Text.lines s.text)).map (fun o => ⟨s.map.resolve o.1, o.2⟩)
  located : ∀ o ∈ offences (Text.lines s.text), (s.map.resolve o.1).isSome = true ∧
    ∃ first, s.map.markers.head? = some first ∧ first.outputLine ≤ o.1

/-- For every source in which only its own markers are `#line` lines, behind a
header whose binds have distinct names of name characters, the map and the
`#line` lines agree on where the lines that are refused come from. -/
theorem diagnose_stage {settings : PipelineSettings} {binds : List BindDecl} {s : ProcessedSource}
    (h : Gives (process setup unit) { context := c } src r)
    (hs : s = src.withLead (stageHeader settings binds))
    (hc : ∀ b ∈ binds, ∀ ch ∈ b.name.toList, Text.isNameChar ch = true)
    (hd : (binds.map (·.name)).Nodup)
    (honly : ∀ n line, (Text.lines src.text)[n]? = some line →
      Text.startsWith "#line".toList (Text.trim line) = true →
      ∃ m ∈ src.map.markers, m.outputLine = n + 2)
    (hunit : (Text.lines unit.text).length < lineLimit)
    (hfiles : ∀ path text, setup.files.readText path = .ok text →
      (Text.lines text).length < lineLimit)
    (hsize : (Text.lines s.text).length < lineLimit) : DiagnosesAgree s := by
  subst hs
  have hheader := fun line => @startsWith_line_stageHeader settings binds
    (fun b hb => unbroken_bindLine (hc b hb)) (fun b hb => ⟨_, _, ofText_bindLine (hc b hb)⟩) line
  obtain ⟨hm, hnumbers, hlength⟩ :=
    mirrors_stage h (endsLine_stageHeader settings binds) hheader hunit hfiles hsize honly
  have hword : lineLimit + lineLimit ≤ UInt64.size := by decide
  have hbehind : ∀ o ∈ offences (Text.lines (src.withLead (stageHeader settings binds)).text),
      ∃ first, (src.withLead (stageHeader settings binds)).map.markers.head? = some first ∧
        first.outputLine ≤ o.1 := fun o ho => offences_stage h hc hd ho
  refine ⟨hm.sorted, hm.shown, ?_, ?_⟩
  · intro label device device' e hfails
    obtain ⟨log, hlog, rfl⟩ := compileProgram_fails hfails
    refine ⟨log, rfl, diagnose_scan hm (fun m hmem => (hnumbers m hmem).1) (by omega)
      (fun m hmem => ?_) hbehind hlog⟩
    have := (hnumbers m hmem).2
    omega
  · intro o ho
    obtain ⟨first, hfirst, hle⟩ := hbehind o ho
    exact ⟨isSome_resolve (fun m hmem => (hnumbers m hmem).1) hfirst hle, first, hfirst, hle⟩

end Stage

/-- A stage has the lines of its header and those of its source. -/
theorem length_lines_stage (src : ProcessedSource) (settings : PipelineSettings)
    {binds : List BindDecl} (hn : ∀ b ∈ binds, '\n' ∉ (bindLine b).toList) :
    (Text.lines (src.withLead (stageHeader settings binds)).text).length =
      (headerLines settings binds).length + (Text.lines src.text).length := by
  have hlead := endsLine_stageHeader settings binds
  rw [withLead_eq _ hlead, Text.lines_append hlead, List.length_append,
    lines_stageHeader settings hn, List.length_map]

/-! ### Refused stages -/

/-- A setup without files and requests. -/
def bareSetup : Setup Unit where
  files := {}
  requests := ⟨[]⟩

theorem readText_bareSetup {path : Path} {text : String} :
    bareSetup.files.readText path ≠ .ok text := by
  intro h
  unfold FileTree.readText at h
  cases hl : bareSetup.files.locate path with
  | error e =>
    rw [hl] at h
    cases h
  | ok place =>
    rw [hl] at h
    cases place <;> cases h

/-- An error, and a uniform that a header declares for a bind named `x`. -/
def refusedUnit : SourceUnit := .ofText ⟨"1.frag"⟩ "#error bad\nuniform float _IN_x;\n"

def refusedSource : ProcessedSource :=
  ⟨"#line 1 0\n#error bad\nuniform float _IN_x;\n", ⟨[⟨"1.frag"⟩], [⟨2, 0, 1⟩]⟩⟩

theorem diagnose_refusedSource :
    DiagnosesAgree (refusedSource.withLead (stageHeader {} [⟨"x", .float, none⟩])) := by
  have hc : ∀ b ∈ [(⟨"x", .float, none⟩ : BindDecl)],
      ∀ ch ∈ b.name.toList, Text.isNameChar ch = true := by
    intro b hb
    rw [List.mem_singleton.1 hb]
    exact List.all_eq_true.1 (by decide)
  have hprocess : Gives (process bareSetup refusedUnit) { context := () } refusedSource
      (process bareSetup refusedUnit { context := () } #[]).1.2 := .of_eq_ok (by decide +kernel)
  have hlines : Text.lines refusedSource.text =
      ["#line 1 0".toList, "#error bad".toList, "uniform float _IN_x;".toList] := by decide
  refine diagnose_stage hprocess rfl hc (by decide) ?_ (by decide)
    (fun path text h => absurd h readText_bareSetup) ?_
  · intro n line hl hstart
    rw [hlines] at hl
    match n with
    | 0 => exact ⟨⟨2, 0, 1⟩, by decide, rfl⟩
    | 1 => cases hl; exact absurd hstart (by decide)
    | 2 => cases hl; exact absurd hstart (by decide)
    | n + 3 => cases hl
  · rw [length_lines_stage _ _ fun b hb => unbroken_bindLine (hc b hb), hlines]
    decide

/-- Two binds with distinct names that declare one uniform: what is read of a
name ends at a blank. -/
def blankBinds : List BindDecl := [⟨"a b", .float, none⟩, ⟨"a c", .float, none⟩]

def plainUnit : SourceUnit := .ofText ⟨"1.frag"⟩ "void main() {}\n"

def plainSource : ProcessedSource :=
  ⟨"#line 1 0\nvoid main() {}\n", ⟨[⟨"1.frag"⟩], [⟨2, 0, 1⟩]⟩⟩

theorem process_plainUnit : Gives (process bareSetup plainUnit) { context := () } plainSource
    (process bareSetup plainUnit { context := () } #[]).1.2 :=
  .of_eq_ok (by decide +kernel)

theorem lines_plainSource :
    Text.lines plainSource.text = ["#line 1 0".toList, "void main() {}".toList] := by decide

theorem only_plainSource (n : Nat) (line : List Char)
    (hl : (Text.lines plainSource.text)[n]? = some line)
    (hstart : Text.startsWith "#line".toList (Text.trim line) = true) :
    ∃ m ∈ plainSource.map.markers, m.outputLine = n + 2 := by
  rw [lines_plainSource] at hl
  match n with
  | 0 => exact ⟨⟨2, 0, 1⟩, by decide, rfl⟩
  | 1 => cases hl; exact absurd hstart (by decide)
  | n + 2 => cases hl

/-- The stage behind the header of these binds. -/
def blankStage : ProcessedSource := plainSource.withLead (stageHeader {} blankBinds)

theorem blankStage_eq : blankStage = plainSource.withLead (stageHeader {} blankBinds) := rfl

theorem unbroken_blankBinds : ∀ b ∈ blankBinds, '\n' ∉ (bindLine b).toList := by decide

theorem ofText_blankBinds : ∀ b ∈ blankBinds,
    ShaderLine.ofText (Text.trim (bindLine b).toList) = .uniform .float "_IN_a" := by
  have hkind : ∀ b ∈ blankBinds, Text.after? "#line".toList (Text.trim (bindLine b).toList) = none ∧
      Text.after? "#error".toList (Text.trim (bindLine b).toList) = none ∧
      declared? (Text.trim (bindLine b).toList) = some (.float, "_IN_a") := by decide
  intro b hb
  obtain ⟨hline, herror, hdeclared⟩ := hkind b hb
  exact ofText_of_declared? hline herror hdeclared

theorem map_blankStage : blankStage.map = ⟨[⟨"1.frag"⟩], [⟨9, 0, 1⟩]⟩ := by
  have hlead := endsLine_stageHeader {} blankBinds
  have hcount : Text.countBreaks (stageHeader {} blankBinds).toList = 7 := by
    rw [← Text.length_lines hlead, lines_stageHeader {} unbroken_blankBinds, List.length_map]
    rfl
  rw [blankStage_eq, withLead_eq _ hlead, hcount]
  rfl

/-- The second bind's line is refused, and no other one. -/
theorem offences_blankStage :
    offences (Text.lines blankStage.text) = [(4, "'_IN_a' : redefinition")] := by
  have hlead := endsLine_stageHeader {} blankBinds
  have hbinds : offences (Text.lines (stageHeader {} blankBinds)) =
      [(4, "'_IN_a' : redefinition")] := by
    have hfirst := ofText_blankBinds ⟨"a b", .float, none⟩ (by decide)
    have hsecond := ofText_blankBinds ⟨"a c", .float, none⟩ (by decide)
    have hname : declaredNames [(bindLine ⟨"a b", .float, none⟩).toList] = ["_IN_a"] := by
      simp only [declaredNames, List.filterMap_cons, hfirst, List.filterMap_nil]
    rw [offences_stageHeader {} unbroken_blankBinds]
    simp only [blankBinds, List.map_cons, List.map_nil, offencesFrom, offence?, hfirst, hsecond,
      declaredNames_concat, declaredNames_headerStart, hname, List.nil_append, List.not_mem_nil,
      if_false, List.mem_singleton, if_true]
    rfl
  have hmarker : ∀ earlier, offence? earlier "#line 1 0".toList = none := by
    have hshown : "#line 1 0".toList = LineOrigin.shown ⟨2, 0, 1⟩ := rfl
    intro earlier
    rw [offence?, hshown, ofText_shown (by decide) (by decide)]
  have hmain : ∀ earlier, offence? earlier "void main() {}".toList = none := by
    intro earlier
    rw [offence?, ofText_of_not_declared? (by decide) (by decide)
      (by decide)]
  rw [offences] at hbinds
  rw [blankStage_eq, withLead_eq _ hlead, Text.lines_append hlead, offences, offencesFrom_append,
    hbinds, lines_plainSource, offencesFrom, offencesFrom, offencesFrom, hmarker, hmain]
  rfl

theorem scanFragment_blankStage :
    scanFragment blankStage.text = .error "ERROR: 0:4: '_IN_a' : redefinition" := by
  have hheader := fun line => @startsWith_line_stageHeader {} blankBinds unbroken_blankBinds
    (fun b hb => ⟨_, _, ofText_blankBinds b hb⟩) line
  have hsize : (Text.lines blankStage.text).length < lineLimit := by
    rw [blankStage_eq, length_lines_stage _ _ unbroken_blankBinds, lines_plainSource]
    decide
  have hlead := endsLine_stageHeader {} blankBinds
  obtain ⟨hm, -⟩ := mirrors_stage process_plainUnit hlead hheader (by decide)
    (fun path text h => absurd h readText_bareSetup) hsize only_plainSource
  rw [← blankStage_eq] at hm
  rw [scanFragment, errors_foldl_step hm, offences_blankStage, map_blankStage]
  rfl

/-- Behind a header with these binds the map and the log disagree: the log is
traced to the fourth line of the unit, and the map has nothing for that line. -/
theorem not_diagnosesAgree_blankBinds : ∃ src r log,
    Gives (process bareSetup plainUnit) { context := () } src r ∧
    (blankBinds.map (·.name)).Nodup ∧
    (∀ n line, (Text.lines src.text)[n]? = some line →
      Text.startsWith "#line".toList (Text.trim line) = true →
      ∃ m ∈ src.map.markers, m.outputLine = n + 2) ∧
    Fails (GraphicsBackend.compile "1.frag" (src.withLead (stageHeader {} blankBinds)).text)
      ({ screen := (2, 2) } : HeadlessBackend) (.compile log) { screen := (2, 2) } ∧
    diagnose log (src.withLead (stageHeader {} blankBinds)).map =
      [⟨some ⟨⟨"1.frag"⟩, 4⟩, "'_IN_a' : redefinition"⟩] ∧
    (src.withLead (stageHeader {} blankBinds)).map.resolve 4 = none ∧
    ¬ DiagnosesAgree (src.withLead (stageHeader {} blankBinds)) := by
  have hresolve : blankStage.map.resolve 4 = none := by
    rw [map_blankStage]
    decide
  refine ⟨plainSource, _, "ERROR: 0:4: '_IN_a' : redefinition", process_plainUnit, by decide,
    only_plainSource, ?_⟩
  rw [← blankStage_eq]
  refine ⟨⟨#[], #[], ?_⟩, ?_, hresolve, fun h => ?_⟩
  · change HeadlessBackend.compileProgram "1.frag" blankStage.text _ _ = _
    rw [HeadlessBackend.compileProgram, scanFragment_blankStage]
    rfl
  · rw [map_blankStage]
    decide
  · have hmem : (4, "'_IN_a' : redefinition") ∈ offences (Text.lines blankStage.text) := by
      rw [offences_blankStage]
      exact List.mem_singleton.2 rfl
    have hsome := (h.located _ hmem).1
    rw [hresolve] at hsome
    cases hsome

end AudioShader
