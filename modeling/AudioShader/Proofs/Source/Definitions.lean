/-
# The `#` of a definition

A definition is recognised behind any white space. The scan that replaces its colors
passes over the `#` of the definition itself, but finds it behind ASCII blanks only.
Behind other white space it looks at the `#` as at any other: a name right behind it is
taken for a color, which `define` is not.

Key definitions: `IsDefinition`, `HashStands`, `definitionSource`.
Key theorems: `scanDefine_kept`, `scanDefine_refused`, `definition_line_kept`.
-/
import AudioShader.Proofs.Color
import AudioShader.Proofs.Source.Inlining
import AudioShader.Proofs.Source.LineByLine
import AudioShader.Proofs.Source.Verbatim
import AudioShader.Proofs.Source.Written
import AudioShader.Proofs.Text.Lines

namespace AudioShader

/-- A line that defines `name`: white space, a `#` and what stands behind it, in which
nothing is replaced. -/
structure IsDefinition (lead rest : List Char) (name : String) : Prop where
  isLine : Text.IsLine (lead ++ '#' :: rest)
  blank : ∀ c ∈ lead, Text.isBlank c = true
  reads : readDirective (lead ++ '#' :: rest) = .ok (some (.define name))
  hashless : '#' ∉ rest
  bindless : '@' ∉ rest

/-- The `#` of the line stands for itself: it is found behind ASCII blanks, or white space
is right behind it, so that no color can begin there. -/
def HashStands (lead rest : List Char) : Prop :=
  (∀ c ∈ lead, Text.isAsciiBlank c = true) ∨ ∃ c ∈ rest.head?, Text.isBlank c = true

/-! ### White space in code -/

theorem look_space {c : Char} (hc : Text.isBlank c = true) (cs : List Char) :
    look .code (c :: cs) = .copy [c] .code cs := by
  have hmark (d : Char) (hd : Text.isBlank d = false) : c ≠ d := by
    rintro rfl
    rw [hc] at hd
    cases hd
  have hslash := hmark '/' rfl
  have hhash := hmark '#' rfl
  exact look.eq_13 c cs (fun _ h _ => hslash h) (fun _ h _ => hslash h) (hmark '"' rfl)
    (fun _ h _ => hhash h) hhash (hmark '@' rfl)

theorem scan_blanks (bound : String → Option String) (cs : List Char) : ∀ {lead : List Char},
    (∀ c ∈ lead, Text.isBlank c = true) →
      scan bound .code (lead ++ cs) = prepend lead (scan bound .code cs)
  | [], _ => by
    cases h : scan bound .code cs <;> simp [prepend, h, Except.map]
  | c :: lead, h => by
    rw [List.cons_append, scan_look, look_space (h c (List.mem_cons_self ..))]
    dsimp only
    rw [scan_blanks bound cs fun d hd => h d (List.mem_cons_of_mem c hd)]
    cases scan bound .code cs <;> rfl

/-- Behind ASCII blanks the `#` of a definition is passed over. -/
theorem scanDefine_of_blanks (bound : String → Option String) {lead : List Char}
    (h : ∀ c ∈ lead, Text.isAsciiBlank c = true) (rest : List Char) :
    scanDefine bound (lead ++ '#' :: rest) = prepend (lead ++ ['#']) (scan bound .code rest) := by
  have hhash : ∀ c ∈ ('#' :: rest).head?, Text.isAsciiBlank c = false := by simp [Text.isAsciiBlank]
  obtain ⟨htake, hdrop⟩ := Text.takeWhile_run h hhash
  unfold scanDefine
  rw [hdrop, htake]
  rfl

/-- Behind other white space it is looked at as any other `#`. -/
theorem scanDefine_of_space (bound : String → Option String) {lead : List Char}
    (hblank : ∀ c ∈ lead, Text.isBlank c = true) (h : ¬∀ c ∈ lead, Text.isAsciiBlank c = true)
    (rest : List Char) :
    scanDefine bound (lead ++ '#' :: rest) = scan bound .code (lead ++ '#' :: rest) := by
  unfold scanDefine
  cases hlead : lead.dropWhile Text.isAsciiBlank with
  | nil => exact absurd (List.dropWhile_eq_nil_iff.1 hlead) h
  | cons c behind =>
    have hmem : c ∈ lead := (List.dropWhile_suffix _).subset (hlead ▸ List.mem_cons_self ..)
    have hhash : c ≠ '#' := by
      rintro rfl
      exact absurd (hblank _ hmem) (by decide)
    rw [List.dropWhile_append, hlead]
    simp [hhash]

section Lines

variable {lead rest : List Char} {name : String} (h : IsDefinition lead rest name)

include h

theorem IsDefinition.keyword :
    (Text.trimStart rest).takeWhile Text.isNameChar = "define".toList := by
  rw [← directiveBody_lead h.blank]
  exact keyword_of_define h.reads

/-- The name right behind the `#` is the keyword, if there is one. -/
theorem IsDefinition.hashRun_eq (hblank : ¬∃ c ∈ rest.head?, Text.isBlank c = true) :
    hashRun rest = "define".toList := by
  have htrim : Text.trimStart rest = rest := by
    cases rest with
    | nil => rfl
    | cons c rest =>
      have hc : ¬Text.isBlank c = true := fun hc => hblank ⟨c, rfl, hc⟩
      exact List.dropWhile_cons_of_neg hc
  rw [hashRun, ← h.keyword, htrim]

/-! ### The scan -/

variable (bound : String → Option String)

/-- What stands behind the `#` is copied. -/
theorem IsDefinition.scan_rest : ∃ inComment, scan bound .code rest = .ok (rest, inComment) :=
  (quiet_of_notMem h.hashless h.bindless).scan_eq bound

theorem IsDefinition.scan_hash : scan bound .code ('#' :: rest) = match Color.scan rest with
    | .ok none => prepend ['#'] (scan bound .code rest)
    | .ok (some (color, more)) => prepend color.toGlsl.toList (scan bound .code more)
    | .error fault => .error (.color fault) :=
  AudioShader.scan_hash bound fun hhead => h.hashless (List.mem_of_head? hhead)

/-- In code, the `#` is left alone if white space follows. -/
theorem IsDefinition.scan_line_of_blank (hblank : ∃ c ∈ rest.head?, Text.isBlank c = true) :
    ∃ inComment, scan bound .code (lead ++ '#' :: rest) = .ok (lead ++ '#' :: rest, inComment) := by
  obtain ⟨c, hc, hspace⟩ := hblank
  obtain ⟨inComment, hrest⟩ := h.scan_rest bound
  have hrun : hashRun rest = [] := by
    cases rest with
    | nil => cases hc
    | cons d rest =>
      cases hc
      refine List.takeWhile_cons_of_neg fun hname => ?_
      rw [isBlank_eq_false_of_isNameChar hname] at hspace
      cases hspace
  have hcolor : Color.scan rest = .ok none := by rw [Color.scan_eq, if_pos hrun]
  rw [scan_blanks bound _ h.blank, h.scan_hash, hcolor, hrest]
  exact ⟨inComment, rfl⟩

/-- In code, the keyword right behind the `#` is no color. -/
theorem IsDefinition.scan_line_of_name (hblank : ¬∃ c ∈ rest.head?, Text.isBlank c = true) :
    scan bound .code (lead ++ '#' :: rest) = .error (.color (.badDigit 'i')) := by
  have hcolor : Color.scan rest = .error (.badDigit 'i') := by
    have hrun : ¬IsHexRun "define".toList := fun hrun => absurd (hrun.2 'i' (by decide)) (by decide)
    rw [Color.scan_eq, h.hashRun_eq hblank, if_neg (by decide), if_neg hrun]
    rfl
  rw [scan_blanks bound _ h.blank, h.scan_hash, hcolor]
  rfl

theorem scanDefine_kept (hstands : HashStands lead rest) : ∃ inComment,
    scanDefine bound (lead ++ '#' :: rest) = .ok (lead ++ '#' :: rest, inComment) := by
  by_cases hlead : ∀ c ∈ lead, Text.isAsciiBlank c = true
  · obtain ⟨inComment, hrest⟩ := h.scan_rest bound
    rw [scanDefine_of_blanks bound hlead, hrest]
    exact ⟨inComment, by simp [prepend, Except.map]⟩
  · rw [scanDefine_of_space bound h.blank hlead]
    exact h.scan_line_of_blank bound (hstands.resolve_left hlead)

theorem scanDefine_refused (hstands : ¬HashStands lead rest) :
    scanDefine bound (lead ++ '#' :: rest) = .error (.color (.badDigit 'i')) := by
  obtain ⟨hlead, hblank⟩ := not_or.1 hstands
  rw [scanDefine_of_space bound h.blank hlead]
  exact h.scan_line_of_name bound hblank

end Lines

/-! ### The line -/

section Process

variable {C : Type} [Substitutions C] {lead rest : List Char} {name : String}

theorem IsDefinition.lineDirective_eq (h : IsDefinition lead rest name) :
    lineDirective {} (lead ++ '#' :: rest) = .ok (some (.define name)) := by
  have hstarts : startsDirective (lead ++ '#' :: rest) = true := by
    rw [startsDirective, trimStart_lead h.blank]
    rfl
  unfold lineDirective
  rw [hstarts]
  exact h.reads

/-- A definition at the front of a file is written behind its guard and a marker, as
its scan tells. -/
theorem processLine_define {setup : Setup C}
    {nested : LineRef → String → Action (Run C) SourceError Unit} {file : Nat} {place : LineRef}
    {line : List Char} {name : String}
    (hd : lineDirective {} line = .ok (some (.define name))) (r : Run C) (log : Log) :
    processLine setup nested file place {} line r log =
      match scanDefine (Substitutions.bound? r.context) line with
      | .ok (text, inComment) =>
        ((.ok { inComment, continued := isContinued line, pending := true },
          r.add [.guard name, .marker file place.line, .line file place.line text]), log)
      | .error fault =>
        ((.error (.refused place fault), r.add [.guard name, .marker file place.line]), log) := by
  have hsteps : processLine setup nested file place {} line r log =
      (Run.orRefuse place (scanDefine (Substitutions.bound? r.context) line) >>= fun p => do
        Run.emit (.line file place.line p.1)
        return { inComment := p.2, continued := isContinued line, pending := true })
      (r.add [.guard name, .marker file place.line]) log := by
    unfold processLine
    rw [hd]
    rfl
  rw [hsteps]
  cases scanDefine (Substitutions.bound? r.context) line with
  | error fault => rfl
  | ok p => rfl

variable (setup : Setup C) (root : SourceUnit) (c : C) (log : Log)

/-- The line alone in a file. -/
theorem IsDefinition.rootLines_eq (h : IsDefinition lead rest name) :
    setup.rootLines root c (Text.splitLines (lead ++ '#' :: rest)) log =
      match scanDefine (Substitutions.bound? c) (lead ++ '#' :: rest) with
      | .ok (text, _) =>
        ((.ok (), (({ context := c } : Run C).opened root.origin).add
          [.guard name, .marker 0 1, .line 0 1 text]), log)
      | .error fault =>
        ((.error (.refused ⟨root.origin, 1⟩ fault), (({ context := c } : Run C).opened
          root.origin).add [.guard name, .marker 0 1]), log) := by
  rw [Text.splitLines_of_isLine h.isLine (by simp)]
  unfold Setup.rootLines processLines
  rw [Action.bind_apply, processLine_define h.lineDirective_eq]
  dsimp only [Run.opened]
  cases scanDefine (Substitutions.bound? c) (lead ++ '#' :: rest) with
  | error fault => rfl
  | ok p => rfl

end Process

/-! ### The output -/

section Guards

variable {name : String}

theorem toList_defineGuard (name : String) : (defineGuard name).toList =
    "#ifdef ".toList ++ name.toList ++ "\n#undef ".toList ++ name.toList ++ "\n#endif\n".toList := by
  simp only [defineGuard, String.toList_append]
  rfl

theorem countBreaks_defineGuard (h : '\n' ∉ name.toList) :
    Text.countBreaks (defineGuard name).toList = 3 := by
  have hname := Text.countBreaks_eq_zero.2 h
  simp only [toList_defineGuard, Text.countBreaks_append, hname]
  decide

theorem endsLine_defineGuard (name : String) : Text.endsLine (defineGuard name).toList = true := by
  rw [toList_defineGuard, Text.endsLine_append _ (by decide)]
  decide

/-- A guard is three lines. -/
theorem Output.write_guard (o : Output) (h : '\n' ∉ name.toList) :
    o.write (.guard name) = ⟨o.text ++ defineGuard name, o.line + 3, true, o.markers⟩ := by
  have hne : (defineGuard name).toList.isEmpty = false := by
    rw [toList_defineGuard]
    simp
  show o.push (defineGuard name) = _
  unfold Output.push
  dsimp only
  rw [countBreaks_defineGuard h, endsLine_defineGuard, hne]
  rfl

/-- What is written for a definition that is the only line of `origin`: behind the marker
of the file the guard, a marker and the line as it is. -/
def definitionSource (origin : Path) (name : String) (line : List Char) : ProcessedSource :=
  ⟨"#line 1 0\n" ++ defineGuard name ++ "#line 1 0\n" ++ String.ofList line,
    ⟨[origin], [⟨2, 0, 1⟩, ⟨6, 0, 1⟩]⟩⟩

theorem source_definition {C : Type} (c : C) (origin : Path) (h : '\n' ∉ name.toList)
    (line : List Char) : ((({ context := c } : Run C).opened origin).add
      [.guard name, .marker 0 1, .line 0 1 line]).source = definitionSource origin name line := by
  have hfirst : Output.write {} (.marker 0 1) = ⟨"#line 1 0\n", 2, true, #[⟨2, 0, 1⟩]⟩ := rfl
  have hpieces : ((({ context := c } : Run C).opened origin).add
      [.guard name, .marker 0 1, .line 0 1 line]).pieces.toList =
        [.marker 0 1, .guard name, .marker 0 1, .line 0 1 line] := rfl
  unfold Run.source Output.ofPieces
  rw [hpieces]
  simp only [List.foldl_cons, List.foldl_nil]
  rw [hfirst, Output.write_guard _ h]
  rfl

end Guards

/-! ### Units of one line -/

/-- **A definition keeps its `#` behind ASCII blanks.** A unit is one line that is read as
the definition of a macro, with no color or bind behind its `#`. If all that stands in
front of the `#` are ASCII blanks, or white space stands behind it, then the unit is
processed, and the guard of the macro, a marker and the line as it is are written. If
neither holds, the unit is refused: the `#` is taken for that of a color, and `define`
is none. -/
theorem definition_line_kept {C : Type} [Substitutions C] {lead rest : List Char} {name : String}
    (h : IsDefinition lead rest name) (setup : Setup C) (root : SourceUnit) (c : C) (log : Log) :
    HashStands lead rest ∧ (∃ r log', process setup (root.withText (lead ++ '#' :: rest))
        { context := c } log =
          ((.ok (definitionSource root.origin name (lead ++ '#' :: rest)), r), log') ∧
        r.context = c ∧ r.calls = #[]) ∨
      ¬HashStands lead rest ∧ ∃ r log', process setup (root.withText (lead ++ '#' :: rest))
        { context := c } log =
          ((.error (.refused ⟨root.origin, 1⟩ (.color (.badDigit 'i'))), r), log') := by
  have hlines := h.rootLines_eq setup root c log
  by_cases hstands : HashStands lead rest
  · obtain ⟨inComment, hscan⟩ := scanDefine_kept h (Substitutions.bound? c) hstands
    rw [hscan] at hlines
    obtain ⟨log', hprocess⟩ := process_of_ok hlines
    have hname : '\n' ∉ name.toList :=
      fun hmem => absurd (isNameChar_of_define h.reads _ hmem) (by decide)
    rw [source_definition c root.origin hname] at hprocess
    exact .inl ⟨hstands, _, log', hprocess, rfl, rfl⟩
  · rw [scanDefine_refused h _ hstands] at hlines
    exact .inr ⟨hstands, _, log, process_of_error hlines⟩

/-- A definition behind two blanks is kept. -/
theorem definition_line_kept_indented :
    IsDefinition " \t".toList "define A 1\n".toList "A" ∧
      ∃ r log', process idleSetup
          ((SourceUnit.ofText ⟨"1.frag"⟩ "").withText " \t#define A 1\n".toList)
          { context := () } #[] =
        ((.ok (definitionSource ⟨"1.frag"⟩ "A" " \t#define A 1\n".toList), r), log') := by
  have hunbroken : Text.IsLine " \t#define A 1\n".toList := by
    unfold Text.IsLine
    decide
  have hascii : ∀ c ∈ " \t".toList, Text.isAsciiBlank c = true := List.all_eq_true.1 (by decide)
  have hblank := fun c hc => Text.isBlank_of_isAsciiBlank c (hascii c hc)
  have hline : IsDefinition " \t".toList "define A 1\n".toList "A" :=
    ⟨hunbroken, hblank, by decide, by decide, by decide⟩
  have hstands : HashStands " \t".toList "define A 1\n".toList := .inl hascii
  rcases definition_line_kept hline idleSetup (.ofText ⟨"1.frag"⟩ "") () #[] with
    ⟨-, r, log', hprocess, -, -⟩ | ⟨hnot, -⟩
  · exact ⟨hline, r, log', hprocess⟩
  · exact absurd hstands hnot

/-- A definition behind a no-break space. -/
def spacedDefinition : String := "\u00a0#define A\n"

/-- It is recognised, and refused. -/
theorem spacedDefinition_refused :
    readDirective spacedDefinition.toList = .ok (some (.define "A")) ∧
      (process idleSetup (.ofText ⟨"1.frag"⟩ spacedDefinition) { context := () } #[]).1.1 =
        .error (.refused ⟨⟨"1.frag"⟩, 1⟩ (.color (.badDigit 'i'))) := by
  decide +kernel

end AudioShader
