/-
# What including files makes of their text

If a tree of units has no binds, and no `#` but those that begin directives,
then processing it copies. What it writes, without its markers and guards, is
the lines of the units, depth first and in order: requests dropped, includes
replaced by what they include and expansions by their calls.

Key definitions: `SourceUnit.Plain`, `Piece.kept`, `Piece.spell`.
Key theorems: `scan_eq_self`, `Processed.inlines`, `inlines_of_process`.
-/
import AudioShader.Proofs.Source.Inclusion
import AudioShader.Proofs.Source.Markers
import AudioShader.Proofs.Text.Letters

namespace AudioShader

open AudioShader.Action (Gives)

/-! ### Lines that are copied -/

/-- A scan copies a text in which it finds neither a bind nor a color. -/
theorem scan_eq_self {bound : String → Option String} : ∀ {z : Zone} {cs t : List Char}
    {inComment : Bool}, scan bound z cs = .ok (t, inComment) → '@' ∉ cs →
      (∀ front rest p, cs = front ++ '#' :: rest → Color.scan rest ≠ .ok (some p)) → t = cs := by
  intro z cs t inComment h ha hh
  rw [scan_look] at h
  match hl : look z cs with
  | .finish =>
    rw [hl] at h
    cases h
    rfl
  | .copy lead z' rest =>
    have := look_copy_length hl
    rw [hl] at h
    obtain ⟨t', ht', rfl⟩ := prepend_eq_ok.1 h
    obtain ⟨-, rfl⟩ := look_copy hl
    rw [scan_eq_self ht' (fun hm => ha (List.mem_append_right _ hm))]
    intro front more p hr
    refine hh (lead ++ front) more p ?_
    rw [hr, List.append_assoc]
  | .color color rest =>
    obtain ⟨more, rfl, hc⟩ := look_color hl
    exact absurd hc (hh [] more _ rfl)
  | .badColor fault =>
    rw [hl] at h
    cases h
  | .bind b =>
    obtain ⟨more, rfl, -⟩ := look_bind hl
    exact absurd (List.mem_cons_self ..) ha
termination_by _ cs => cs.length

theorem isHexDigit_iff {c : Char} : isHexDigit c = true ↔
    48 ≤ c.toNat ∧ c.toNat ≤ 57 ∨ 97 ≤ c.toNat ∧ c.toNat ≤ 102 ∨ 65 ≤ c.toNat ∧ c.toNat ≤ 70 := by
  have h : ∀ d e : Char, d ≤ e ↔ d.toNat ≤ e.toNat := fun d e => by
    rw [Char.le_def, UInt32.le_iff_toNat_le]
    rfl
  simp only [isHexDigit, hexValue?, h, Char.reduceToNat]
  split_ifs <;> simp_all

theorem isNameChar_of_isHexDigit {c : Char} (h : isHexDigit c = true) : Text.isNameChar c = true := by
  rw [isHexDigit_iff] at h
  rw [Text.isNameChar_iff]
  omega

/-- A color is a word of hexadecimal digits. -/
theorem Color.scan_word {cs rest : List Char} {color : Color}
    (h : Color.scan cs = .ok (some (color, rest))) :
    cs.takeWhile Text.isNameChar ≠ [] ∧ ∀ c ∈ cs.takeWhile Text.isNameChar, isHexDigit c = true := by
  obtain ⟨digits, x, rfl, hd, -⟩ := Color.split_digits cs
  have hhex : ∀ c ∈ digits, isHexDigit c = true := by
    intro c hc
    rw [← hd] at hc
    exact List.mem_takeWhile_imp hc
  unfold Color.scan at h
  simp only [hd, List.drop_left, bind, Except.bind, pure, Except.pure, throw, throwThe,
    MonadExceptOf.throw] at h
  have hne : digits ≠ [] := by
    rintro rfl
    cases hx : x.head? with
    | none => simp [hx] at h
    | some c => by_cases hn : Text.isNameChar c = true <;> simp [hx, hn] at h
  have hx : ∀ c, x.head? = some c → Text.isNameChar c = false := by
    intro c hc
    by_contra hn
    rw [Bool.not_eq_false] at hn
    by_cases hh : isHexDigit c = true <;> simp [hc, hn, hh, hne] at h
  have hword : (digits ++ x).takeWhile Text.isNameChar = digits := by
    rw [List.takeWhile_append_of_pos fun c hc => isNameChar_of_isHexDigit (hhex c hc)]
    cases x with
    | nil => simp
    | cons c x => simp [hx c rfl]
  rw [hword]
  exact ⟨hne, hhex⟩

/-- The keyword of a definition stands behind its `#`. -/
theorem keyword_of_define {line : List Char} {name : String}
    (h : readDirective line = .ok (some (.define name))) :
    (directiveBody line).takeWhile Text.isNameChar = "define".toList := by
  have hk : String.ofList ((directiveBody line).takeWhile Text.isNameChar) = "define" := by
    unfold readDirective at h
    grind
  rw [← hk, String.toList_ofList]

theorem trimStart_lead {front : List Char} (hf : ∀ c ∈ front, Text.isBlank c = true)
    (rest : List Char) : Text.trimStart (front ++ '#' :: rest) = '#' :: rest := by
  rw [Text.trimStart, List.dropWhile_append_of_pos hf, List.dropWhile_cons_of_neg (by decide)]

/-- The blanks in front of a `#` and the blanks behind it do not count. -/
theorem directiveBody_lead {front : List Char} (hf : ∀ c ∈ front, Text.isBlank c = true)
    (rest : List Char) : directiveBody (front ++ '#' :: rest) = Text.trimStart rest := by
  rw [directiveBody, trimStart_lead hf]
  rfl

/-- No color begins at the `#` of a definition. -/
theorem not_color_of_define {line front rest : List Char} {name : String} {p : Color × List Char}
    (h : readDirective line = .ok (some (.define name))) (hl : line = front ++ '#' :: rest)
    (hf : ∀ c ∈ front, Text.isBlank c = true) : Color.scan rest ≠ .ok (some p) := by
  intro hc
  obtain ⟨hne, hhex⟩ := Color.scan_word hc
  have htrim : Text.trimStart rest = rest := by
    cases rest with
    | nil => rfl
    | cons c rest =>
      have hn : Text.isNameChar c = true := by
        by_contra hn
        exact hne (by simp [hn])
      rw [Text.trimStart, List.dropWhile_cons_of_neg]
      simpa using isBlank_eq_false_of_isNameChar hn
  have hk := keyword_of_define h
  rw [hl, directiveBody_lead hf, htrim] at hk
  rw [hk] at hhex
  exact absurd (hhex 'i' (by decide)) (by decide)

theorem mem_of_startsDirective {line : List Char} (h : startsDirective line = true) : '#' ∈ line := by
  rw [startsDirective, beq_iff_eq] at h
  exact (List.dropWhile_suffix _).subset (List.mem_of_head? h)

/-- In front of the only `#` of a directive are blanks. -/
theorem blank_of_only_hash {line front rest : List Char} (hs : startsDirective line = true)
    (hh : '#' ∉ (Text.trimStart line).tail) (hl : line = front ++ '#' :: rest) :
    ∀ c ∈ front, Text.isBlank c = true := by
  have hsplit := List.takeWhile_append_dropWhile (p := Text.isBlank) (l := line)
  have hblank : ∀ c ∈ line.takeWhile Text.isBlank, Text.isBlank c = true :=
    fun c hc => List.mem_takeWhile_imp hc
  rw [startsDirective, beq_iff_eq] at hs
  obtain ⟨tail, ht⟩ := List.head?_eq_some_iff.1 hs
  rw [ht, List.tail_cons] at hh
  rw [Text.trimStart] at ht
  rw [ht] at hsplit
  have hfront : '#' ∉ line.takeWhile Text.isBlank := fun hm => absurd (hblank _ hm) (by decide)
  have heq := (List.append_cons_inj_of_notMem hfront hh).1 (hsplit.trans hl)
  rwa [heq.1] at hblank

/-- A definition without binds whose only `#` is its own is copied. -/
theorem scanDefine_eq_self {bound : String → Option String} {line t : List Char} {inComment : Bool}
    {name : String} (h : scanDefine bound line = .ok (t, inComment))
    (hd : readDirective line = .ok (some (.define name))) (ha : '@' ∉ line)
    (hs : startsDirective line = true) (hh : '#' ∉ (Text.trimStart line).tail) : t = line := by
  have hfront : ∀ front rest, line = front ++ '#' :: rest → ∀ c ∈ front, Text.isBlank c = true :=
    fun _ _ => blank_of_only_hash hs hh
  unfold scanDefine at h
  split at h
  · next rest hr =>
    obtain ⟨t', ht', rfl⟩ := prepend_eq_ok.1 h
    have hsplit := List.takeWhile_append_dropWhile (p := Text.isAsciiBlank) (l := line)
    rw [hr] at hsplit
    generalize line.takeWhile Text.isAsciiBlank = front at *
    have hrest : t' = rest := by
      refine scan_eq_self ht' (fun hm => ha ?_) fun more rest' p hr' => ?_
      · rw [← hsplit]
        exact List.mem_append_right _ (List.mem_cons_of_mem _ hm)
      · -- the `#` of the definition would stand in front of another one
        have := hfront (front ++ '#' :: more) rest' (by rw [← hsplit, hr', List.append_assoc]; rfl) '#'
          (by simp)
        exact absurd this (by decide)
    rw [hrest, List.append_assoc]
    exact hsplit
  · exact scan_eq_self h ha fun front rest p hl => not_color_of_define hd hl (hfront front rest hl)

/-! ### Units without binds and colors -/

namespace SourceUnit

/-- No bind stands in the unit, and no `#` but those that begin directives: they
are the first character of a line that is no blank, and nothing is open there. -/
structure Plain (u : SourceUnit) : Prop where
  unbound : ∀ s line, u.HasLine s line → '@' ∉ line
  hashes : ∀ s line, u.HasLine s line → '#' ∈ line →
    s = {} ∧ startsDirective line = true ∧ '#' ∉ (Text.trimStart line).tail

instance (u : SourceUnit) : Decidable u.Plain :=
  decidable_of_iff
    ((∀ p ∈ Lexer.readings {} u.lines, '@' ∉ p.2) ∧
      ∀ p ∈ Lexer.readings {} u.lines, '#' ∈ p.2 →
        p.1 = {} ∧ startsDirective p.2 = true ∧ '#' ∉ (Text.trimStart p.2).tail)
    ⟨fun h => ⟨fun _ _ hl => h.1 _ hl, fun _ _ hl => h.2 _ hl⟩,
      fun h => ⟨fun _ hl => h.unbound _ _ hl, fun _ hl => h.hashes _ _ hl⟩⟩

end SourceUnit

variable {C : Type}

/-! ### What is left of the output -/

/-- The text of a piece that stands for a source line; markers and guards are
not kept. -/
def Piece.kept : Piece → List Char
  | .line _ _ text => text
  | .calls _ _ name count => (expansion name count).toList
  | _ => []

/-- The text of pieces without markers and guards. -/
def keptText (ps : List Piece) : List Char := ps.flatMap Piece.kept

theorem keptText_append (ps qs : List Piece) : keptText (ps ++ qs) = keptText ps ++ keptText qs :=
  List.flatMap_append

/-- What a line and a call amount to where everything is copied. -/
abbrev Copies [Substitutions C] (setup : Setup C) :=
  Inlines (C := C) (fun _ line => line) (fun name count => (expansion name count).toList) setup

variable [Substitutions C] {setup : Setup C} {unit : SourceUnit}

/-- The pieces of a line hold the line. -/
theorem Stands.keptText_eq {c : C} {k : Carry} {s : Lexer} {file number : Nat} {line : List Char}
    {d : Option Directive} {ps : List Piece} (h : Stands c k file number line d ps)
    (hf : k.Follows s) (hd : s.directive line = .ok d) (hp : unit.Plain) (hl : unit.HasLine s line)
    (hk : ∀ d', d = some d' → d'.isReplaced = false) : keptText ps = line := by
  have ha := hp.unbound s line hl
  cases h with
  | @define name t inComment ht =>
    obtain rfl := Lexer.eq_start_of_directive hd
    obtain ⟨hstarts, hread⟩ := Lexer.of_directive hd
    obtain ⟨-, -, honly⟩ := hp.hashes _ _ hl (mem_of_startsDirective hstarts)
    obtain rfl := scanDefine_eq_self ht hread ha hstarts honly
    simp [keptText, Piece.kept]
  | expand hc => cases hk _ rfl
  | verbatim hc => simp [keptText, Piece.kept]
  | @body t inComment hc ht =>
    have hno : ∀ front rest p, line = front ++ '#' :: rest → Color.scan rest ≠ .ok (some p) := by
      intro front rest p hr
      -- the line begins with its `#` where a directive can stand
      obtain ⟨rfl, hstarts, -⟩ := hp.hashes _ _ hl (by simp [hr])
      rw [hf.copies, hstarts] at hc
      cases hc
    obtain rfl := scan_eq_self ht ha hno
    simp [keptText, Piece.kept]

/-- A run that succeeds writes what its lines amount to, and opens what they
include. -/
theorem Processed.inlines {root : SourceUnit} (hplain : ∀ u, Reaches setup.files root u → u.Plain)
    (hsettled : ∀ u, Reaches setup.files root u → u.Settled) {stack : List FileIdentity}
    {file number : Nat} {k : Carry} {lines : List (List Char)} {r r' : Run C}
    (h : Processed setup stack unit file number k lines r r') :
    ∀ front : List (List Char), Reaches setup.files root unit → unit.lines = front ++ lines →
      (lines ≠ [] → k.Follows (Lexer.run {} front.flatten)) →
      ∃ text paths, Copies setup unit (Lexer.run {} front.flatten) lines r.context text paths
          r'.context ∧
        keptText r'.pieces.toList = keptText r.pieces.toList ++ text ∧
        r'.files.toList = r.files.toList ++ paths := by
  induction h with
  | done =>
    intro front _ _ _
    exact ⟨[], [], .done, by simp, by simp⟩
  | @includeFile stack unit file number k line rest r r₁ r' target path text hd hp hroom hin htext
      hnested hrest ihn ihr =>
    intro front hreach hlines hk
    have hf := hk (by simp)
    have hl := SourceUnit.hasLine_of_eq hlines
    rw [hf.lineDirective] at hd
    have hin := SourceUnit.mem_includes hl hd hp htext
    obtain ⟨inner, innerPaths, hinner, hkept₁, hfiles₁⟩ :=
      ihn [] (hreach.tail hin) rfl fun _ => .start
    obtain ⟨outer, outerPaths, houter, hkept₂, hfiles₂⟩ :=
      ihr (front ++ [line]) hreach (by simp [hlines])
        (hf.behind_replaced (hsettled _ hreach) hlines hd rfl)
    rw [Lexer.run_concat_line] at houter
    refine ⟨_, _, .includeFile hd hp htext hinner houter, ?_, ?_⟩
    · rw [hkept₂, hkept₁, Run.opened_pieces, keptText_append]
      simp [keptText, Piece.kept]
    · rw [hfiles₂, hfiles₁, Run.opened_files]
      simp
  | @request stack unit file number k line rest r r₁ r' name args hd hdisp hrest ih =>
    intro front hreach hlines hk
    have hf := hk (by simp)
    rw [hf.lineDirective] at hd
    obtain ⟨text, paths, htext, hkept, hfiles⟩ :=
      ih (front ++ [line]) hreach (by simp [hlines])
        (hf.behind_replaced (hsettled _ hreach) hlines hd rfl)
    rw [Lexer.run_concat_line] at htext
    cases hdisp with
    | intro hget hargs hcall => exact ⟨text, paths, .request hd hget hargs hcall htext, hkept, hfiles⟩
  | @written stack unit file number k line rest r r' d ps hd hs hrest ih =>
    intro front hreach hlines hk
    have hf := hk (by simp)
    have hl := SourceUnit.hasLine_of_eq hlines
    rw [hf.lineDirective] at hd
    have hlead : keptText (k.lead d file number) = [] := by
      unfold Carry.lead
      split <;> rfl
    by_cases hr : ∀ d', d = some d' → d'.isReplaced = false
    · have hline := (SourceUnit.isLine_of_eq hlines).1
      obtain ⟨-, -, -, -, ho⟩ := hs.copied hf hd hr hline
        (Lexer.binds_of_not_mem ((hplain _ hreach).unbound _ _ hl) _)
      obtain ⟨text, paths, htext, hkept, hfiles⟩ :=
        ih (front ++ [line]) hreach (by simp [hlines])
          (hf.behind (hsettled _ hreach) hlines fun _ => ho)
      rw [Lexer.run_concat_line] at htext
      refine ⟨_, paths, .kept hd hr htext, ?_, hfiles⟩
      rw [hkept, Run.add_pieces, keptText_append, keptText_append, hlead,
        hs.keptText_eq hf hd (hplain _ hreach) hl hr]
      simp
    · cases hs with
      | define => exact absurd (by rintro _ ⟨⟩; rfl) hr
      | @expand name control count hc =>
        obtain ⟨text, paths, htext, hkept, hfiles⟩ :=
          ih (front ++ [line]) hreach (by simp [hlines])
            (hf.behind_replaced (hsettled _ hreach) hlines hd rfl)
        rw [Lexer.run_concat_line] at htext
        refine ⟨_, paths, .expand hd hc htext, ?_, hfiles⟩
        rw [hkept, Run.add_pieces, keptText_append, keptText_append, hlead]
        simp [keptText, Piece.kept]
      | verbatim => exact absurd nofun hr
      | body => exact absurd nofun hr

/-- The pieces written out: a marker that would not begin a line is given a line
feed first. -/
def Piece.spell : (fresh : Bool) → List Piece → List Char
  | _, [] => []
  | fresh, .marker file number :: ps =>
    (if fresh then [] else ['\n']) ++ (Piece.marker file number).body.toList ++ Piece.spell true ps
  | fresh, p :: ps =>
    p.body.toList ++
      Piece.spell (if p.body.toList.isEmpty then fresh else Text.endsLine p.body.toList) ps

theorem Output.toList_foldl_write (o : Output) (ps : List Piece) :
    (ps.foldl Output.write o).text.toList = o.text.toList ++ Piece.spell o.fresh ps := by
  induction ps generalizing o with
  | nil => simp [Piece.spell]
  | cons p ps ih =>
    rw [List.foldl_cons, ih]
    cases p with
    | marker file number =>
      have hbody : (Piece.marker file number).body.toList.isEmpty = false := by
        rw [toList_body_marker ⟨0, file, number⟩]
        simp
      have hends : Text.endsLine (Piece.marker file number).body.toList = true := by
        rw [toList_body_marker ⟨0, file, number⟩]
        simp [Text.endsLine]
      have hfresh : (o.write (.marker file number)).fresh = true := by
        simp only [write_marker, Output.push, hbody, hends]
        rfl
      rw [hfresh, Piece.spell, write_marker]
      cases hf : o.fresh <;> simp [freshened, hf, Output.push]
    | _ =>
      simp only [Piece.spell, Output.write, Output.push, String.toList_append, List.append_assoc]

/-- **Inlining loses, doubles and moves nothing.** -/
theorem inlines_of_process {c : C} {s : ProcessedSource} {r' : Run C}
    (hplain : ∀ u, Reaches setup.files unit u → u.Plain)
    (hsettled : ∀ u, Reaches setup.files unit u → u.Settled)
    (h : Gives (process setup unit) { context := c } s r') :
    ∃ text paths, Copies setup unit {} unit.lines c text paths r'.context ∧
      keptText r'.pieces.toList = text ∧
      s.text.toList = Piece.spell true r'.pieces.toList ∧
      s.map.files = unit.origin :: paths := by
  obtain ⟨hproc, rfl⟩ := processed_of_process h
  obtain ⟨text, paths, htext, hkept, hfiles⟩ :=
    hproc.inlines hplain hsettled [] .refl rfl fun _ => .start
  refine ⟨text, paths, htext, ?_, ?_, ?_⟩
  · rw [hkept, Run.opened_pieces]
    rfl
  · exact Output.toList_foldl_write {} _
  · rw [Run.source, hfiles, Run.opened_files]
    rfl

/-- A file to include, and a request that does nothing. -/
def includingSetup : Setup Unit where
  files := { files := [(["a"], "float x;".toUTF8)] }
  requests := ⟨[{ name := "idle", signature := "", handler := fun _ => pure () }]⟩

/-- A file is included and a request made; a comment goes on over a line. -/
def includingUnit : SourceUnit := .ofText ⟨"1.frag"⟩ "#include <a>\n#request idle\n/* b\n*/ float y;\n"

def includingSource : ProcessedSource :=
  ⟨"#line 1 0\n#line 1 1\nfloat x;\n#line 3 0\n/* b\n*/ float y;\n",
    ⟨[⟨"1.frag"⟩, ⟨"./a"⟩], [⟨2, 0, 1⟩, ⟨3, 1, 1⟩, ⟨5, 0, 3⟩]⟩⟩

def includingUnits : List SourceUnit := [includingUnit, includingUnit.nested ⟨"./a"⟩ "float x;"]

theorem inlines_includingUnit : ∃ (r' : Run Unit) (text : List Char) (paths : List Path),
    Gives (process includingSetup includingUnit) { context := () } includingSource r' ∧
      Copies includingSetup includingUnit {} includingUnit.lines () text paths r'.context ∧
      keptText r'.pieces.toList = text ∧
      includingSource.text.toList = Piece.spell true r'.pieces.toList ∧
      includingSource.map.files = includingUnit.origin :: paths := by
  have hprocess : Gives (process includingSetup includingUnit) { context := () } includingSource
      (process includingSetup includingUnit { context := () } #[]).1.2 :=
    .of_eq_ok (by decide +kernel)
  have hmem {u : SourceUnit} (h : Reaches includingSetup.files includingUnit u) :
      u ∈ includingUnits := h.mem (by simp [includingUnits]) (by decide +kernel)
  have hunits : ∀ u ∈ includingUnits, u.Plain ∧ u.Settled := by decide +kernel
  obtain ⟨text, paths, h⟩ := inlines_of_process (fun u h => (hunits u (hmem h)).1)
    (fun u h => (hunits u (hmem h)).2) hprocess
  exact ⟨_, text, paths, hprocess, h⟩

/-! ### A comment opened behind an include -/

/-- A comment is opened behind the target of the include, and closed in the next
line: the last line is a request. -/
def openingUnit : SourceUnit := .ofText ⟨"1.frag"⟩ "#include <a> /*\n/*/\n#request idle\n"

def openingSource : ProcessedSource :=
  ⟨"#line 1 0\n#line 1 1\nfloat x;\n#line 2 0\n/*/\n#request idle\n",
    ⟨[⟨"1.frag"⟩, ⟨"./a"⟩], [⟨2, 0, 1⟩, ⟨3, 1, 1⟩, ⟨5, 0, 2⟩]⟩⟩

theorem inlines_openingUnit : Copies includingSetup openingUnit {} openingUnit.lines ()
    ("float x;".toList ++ "/*/\n".toList) [⟨"./a"⟩] () := by
  have hopening : openingUnit.lines =
      ["#include <a> /*\n".toList, "/*/\n".toList, "#request idle\n".toList] := by decide
  have hline : Lexer.directive {} "float x;".toList = .ok none := by decide
  have hlines : (openingUnit.nested ⟨"./a"⟩ "float x;").lines = ["float x;".toList] := by
    decide
  have hinner : Copies includingSetup (openingUnit.nested ⟨"./a"⟩ "float x;") {}
      (openingUnit.nested ⟨"./a"⟩ "float x;").lines () "float x;".toList [] () := by
    rw [hlines]
    exact .kept hline nofun .done
  have hinclude : Lexer.directive {} "#include <a> /*\n".toList = .ok (some (.includeFile "a")) := by
    decide
  have hpath : openingUnit.resolve "a" = .ok ⟨"./a"⟩ := by decide
  have htext : includingSetup.files.readText ⟨"./a"⟩ = .ok "float x;" := by decide
  -- the comment is open in front of the second line and closed behind it
  have hclosing : (Lexer.run {} "#include <a> /*\n".toList).directive "/*/\n".toList = .ok none := by
    decide
  have hrequest : ((Lexer.run {} "#include <a> /*\n".toList).run "/*/\n".toList).directive
      "#request idle\n".toList = .ok (some (.request "idle" [])) := by decide +kernel
  rw [hopening]
  exact .includeFile hinclude hpath htext hinner
    (.kept hclosing nofun (.request hrequest rfl rfl rfl .done))

/-- The request is written, though it is outside the comment. -/
theorem not_inlines_openingUnit :
    (∀ u, Reaches includingSetup.files openingUnit u → u.Plain) ∧
      ∃ s r', Gives (process includingSetup openingUnit) { context := () } s r' ∧
        ¬∃ text paths c', Copies includingSetup openingUnit {} openingUnit.lines () text paths c' ∧
          keptText r'.pieces.toList = text := by
  have hprocess : Gives (process includingSetup openingUnit) { context := () } openingSource
      (process includingSetup openingUnit { context := () } #[]).1.2 :=
    .of_eq_ok (by decide +kernel)
  refine ⟨fun u h => ?_, _, _, hprocess, ?_⟩
  · have hmem : u ∈ [openingUnit, openingUnit.nested ⟨"./a"⟩ "float x;"] :=
      h.mem (by simp) (by decide +kernel)
    exact (by decide : ∀ u ∈ [openingUnit, openingUnit.nested ⟨"./a"⟩ "float x;"], u.Plain)
      u hmem
  · rintro ⟨text, paths, c', hin, hkept⟩
    obtain ⟨rfl, -, -⟩ := inlines_openingUnit.unique hin
    revert hkept
    decide +kernel

end AudioShader
