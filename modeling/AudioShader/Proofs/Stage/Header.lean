/-
# A stage's header is accepted

The header of a stage has one line for each thing it says. A scan refuses none
of them, if the names bound from outside are distinct and made of name
characters: each bind declares a uniform of its own, and the other lines are
code.

Key definitions: `headerLines`.
Key theorems: `lines_stageHeader`, `offences_stageHeader_eq_nil`.
-/
import AudioShader.Proofs.Graphics.Offences
import AudioShader.Proofs.Text.Letters
import AudioShader.Stage.Header

namespace AudioShader

/-! ### Characters -/

theorem ne_of_isNameChar {c d : Char} (h : Text.isNameChar c = true)
    (hd : Text.isNameChar d = false) : c ≠ d := by
  rintro rfl
  rw [h] at hd
  cases hd

theorem blankless_of_all {cs : List Char} (h : (cs.all fun c => !Text.isBlank c) = true) :
    ∀ c ∈ cs, Text.isBlank c = false := by
  intro c hc
  simpa using List.all_eq_true.1 h c hc

namespace FloatText

/-- The text of a number has no blanks. -/
theorem blankless_fixed32 (places : Nat) (x : Float32) :
    ∀ c ∈ (fixed32 places x).toList, Text.isBlank c = false := by
  have hwords : ∀ s ∈ ["NaN", "-inf", "inf"], ∀ c ∈ s.toList, Text.isBlank c = false := by
    have hall : ∀ s ∈ ["NaN", "-inf", "inf"], (s.toList.all fun c => !Text.isBlank c) = true := by
      decide
    exact fun s hs => blankless_of_all (hall s hs)
  have hfixed : ∀ c ∈ ((Binary.ofFloat32 x).fixed places).toList, Text.isBlank c = false := by
    intro c hc
    rcases Binary.mem_fixed hc with hd | rfl
    · exact isBlank_eq_false_of_isDigit hd
    · decide
  unfold fixed32
  split
  · next hx =>
    unfold render32
    split
    · exact hwords _ (by simp)
    · next hnan =>
      have hinf : x.isInf = true := by
        rw [Bool.eq_false_iff.2 hnan, Bool.false_or] at hx
        exact hx
      rw [if_pos hinf]
      split
      · exact hwords _ (by simp)
      · exact hwords _ (by simp)
  · dsimp only
    split
    · intro c hc
      rw [String.toList_append] at hc
      rcases List.mem_append.1 hc with hc | hc
      · exact blankless_of_all (by decide) c hc
      · exact hfixed c hc
    · exact hfixed

end FloatText

/-! ### Lines of code -/

theorem Text.dropEnd_cons {p : Char → Bool} {a : Char} (ha : p a = false) (cs : List Char) :
    Text.dropEnd p (a :: cs) = a :: Text.dropEnd p cs := by
  have hsingle : [a].dropWhile p = [a] := List.dropWhile_cons_of_neg (by simp [ha])
  simp only [Text.dropEnd, List.reverse_cons, List.dropWhile_append, hsingle]
  split
  · next h =>
    rw [List.isEmpty_iff] at h
    rw [h]
    rfl
  · simp

/-- A line that starts with a `#`, but not as `#line` and `#error` do, is code. -/
theorem ofText_hash {c : Char} (hb : Text.isBlank c = false) (hl : c ≠ 'l') (he : c ≠ 'e')
    (cs : List Char) : ∃ text, ShaderLine.ofText (Text.trim ('#' :: c :: cs)) = .code text := by
  have htrim : Text.trim ('#' :: c :: cs) = '#' :: c :: Text.dropEnd Text.isBlank cs := by
    rw [Text.trim, Text.trimStart_cons (by decide), Text.trimEnd, Text.dropEnd_cons (by decide),
      Text.dropEnd_cons hb]
  have hline : "#line".toList = ['#', 'l', 'i', 'n', 'e'] := by decide
  have herror : "#error".toList = ['#', 'e', 'r', 'r', 'o', 'r'] := by decide
  have huniform : "uniform ".toList = ['u', 'n', 'i', 'f', 'o', 'r', 'm', ' '] := by decide
  refine ⟨'#' :: c :: Text.dropEnd Text.isBlank cs, ?_⟩
  rw [htrim]
  simp [ShaderLine.ofText, hline, herror, Text.after?, Ne.symm hl, Ne.symm he, declared?,
    typeAndWord?, huniform]

/-- Lines of code are not refused, and declare nothing. -/
theorem offencesFrom_code : ∀ {ls : List (List Char)} (earlier : List (List Char)),
    (∀ line ∈ ls, ∃ text, ShaderLine.ofText (Text.trim line) = .code text) →
    offencesFrom earlier ls = [] ∧ declaredNames ls = []
  | [], _, _ => ⟨rfl, rfl⟩
  | line :: ls, earlier, h => by
    obtain ⟨text, ht⟩ := h line (List.mem_cons_self ..)
    obtain ⟨ho, hd⟩ := offencesFrom_code (earlier ++ [line])
      fun l hl => h l (List.mem_cons_of_mem _ hl)
    constructor
    · simp [offencesFrom, offence?, ht, ho]
    · simpa [declaredNames, ht] using hd

/-! ### Binds -/

/-- The line of a header for a name bound from outside. -/
def bindLine (b : BindDecl) : String :=
  "uniform " ++ b.type.name ++ " " ++ externalName b.name ++ ";"

theorem isWord_typeName (t : BindType) : IsWord t.name.toList ∧ isPrecision t.name.toList = false := by
  cases t <;> exact ⟨⟨by decide, blankless_of_all (by decide)⟩, by decide⟩

theorem ofName?_typeName (t : BindType) :
    ValueType.ofName? (String.ofList t.name.toList) = some (.ofBind t) := by
  cases t <;> decide

theorem isNameChar_externalName {name : String}
    (h : ∀ c ∈ name.toList, Text.isNameChar c = true) :
    ∀ c ∈ (externalName name).toList, Text.isNameChar c = true := by
  have hlead : ∀ c ∈ "_IN_".toList, Text.isNameChar c = true := List.all_eq_true.1 (by decide)
  intro c hc
  rw [externalName, String.toList_append] at hc
  exact (List.mem_append.1 hc).elim (hlead c) (h c)

theorem head?_externalName (name : String) :
    ∃ rest, (externalName name).toList = '_' :: rest := by
  have hlead : "_IN_".toList = ['_', 'I', 'N', '_'] := by decide
  rw [externalName, String.toList_append, hlead]
  exact ⟨_, rfl⟩

theorem toList_bindLine (b : BindDecl) : (bindLine b).toList =
    "uniform ".toList ++ (b.type.name.toList ++ ' ' :: ((externalName b.name).toList ++ [';'])) := by
  have hblank : " ".toList = [' '] := by decide
  have hend : ";".toList = [';'] := by decide
  simp only [bindLine, String.toList_append, hblank, hend, List.append_assoc]
  rfl

theorem dropEnd_semicolon {w : List Char} (h : ∀ c ∈ w, Text.isNameChar c = true) :
    Text.dropEnd (· == ';') (w ++ [';']) = w := by
  rw [Text.dropEnd, List.reverse_append, List.reverse_singleton, List.singleton_append,
    List.dropWhile_cons_of_pos (by decide)]
  cases hw : w.reverse with
  | nil => simpa using hw
  | cons d ds =>
    have hd : (d == ';') = false := by
      have hmem : d ∈ w := List.mem_reverse.1 (by rw [hw]; simp)
      simpa using ne_of_isNameChar (h d hmem) (by decide : Text.isNameChar ';' = false)
    rw [List.dropWhile_cons_of_neg (by simp [hd]), ← hw, List.reverse_reverse]

/-- A scan takes a bind's line as the declaration of its uniform. -/
theorem declared?_bindLine {b : BindDecl} (h : ∀ c ∈ b.name.toList, Text.isNameChar c = true) :
    declared? (bindLine b).toList = some (.ofBind b.type, externalName b.name) := by
  have hname := isNameChar_externalName h
  obtain ⟨rest, hrest⟩ := head?_externalName b.name
  obtain ⟨htype, hprec⟩ := isWord_typeName b.type
  have hword : IsWord ((externalName b.name).toList ++ [';']) := by
    refine ⟨by simp, fun c hc => ?_⟩
    rcases List.mem_append.1 hc with hc | hc
    · exact isBlank_eq_false_of_isNameChar (hname c hc)
    · rw [List.mem_singleton.1 hc]
      decide
  have hprec' : isPrecision ((externalName b.name).toList ++ [';']) = false := by
    have hlow : "lowp".toList = ['l', 'o', 'w', 'p'] := by decide
    have hmedium : "mediump".toList = ['m', 'e', 'd', 'i', 'u', 'm', 'p'] := by decide
    have hhigh : "highp".toList = ['h', 'i', 'g', 'h', 'p'] := by decide
    rw [hrest, isPrecision, hlow, hmedium, hhigh]
    rfl
  have hwords : words (b.type.name.toList ++ ' ' :: ((externalName b.name).toList ++ [';'])) =
      [b.type.name.toList, (externalName b.name).toList ++ [';']] := by
    rw [words_append htype, words_singleton hword]
  have htype : typeAndWord? (bindLine b).toList =
      some (.ofBind b.type, (externalName b.name).toList ++ [';']) := by
    rw [typeAndWord?, toList_bindLine, Text.after?_append]
    simp only [hwords, List.filter_cons, hprec, hprec', List.filter_nil, Bool.not_false, if_true,
      ofName?_typeName, Option.map_some]
  have htake : (externalName b.name).toList.takeWhile (· != '[') = (externalName b.name).toList := by
    rw [List.takeWhile_eq_self_iff]
    intro c hc
    simpa using ne_of_isNameChar (hname c hc) (by decide : Text.isNameChar '[' = false)
  rw [declared?, htype]
  simp only [Option.bind_eq_bind, Option.bind_some, dropEnd_semicolon hname, htake]
  rw [hrest, List.isEmpty_cons, if_neg Bool.false_ne_true, ← hrest, String.ofList_toList]
  rfl

theorem getLast?_bindLine (b : BindDecl) : (bindLine b).toList.getLast? = some ';' := by
  rw [toList_bindLine, ← List.cons_append, ← List.append_assoc, ← List.append_assoc]
  exact List.getLast?_concat

theorem ofText_bindLine {b : BindDecl} (h : ∀ c ∈ b.name.toList, Text.isNameChar c = true) :
    ShaderLine.ofText (Text.trim (bindLine b).toList) = .uniform (.ofBind b.type) (externalName b.name) := by
  have hline : "#line".toList = ['#', 'l', 'i', 'n', 'e'] := by decide
  have herror : "#error".toList = ['#', 'e', 'r', 'r', 'o', 'r'] := by decide
  have huniform : "uniform ".toList = ['u', 'n', 'i', 'f', 'o', 'r', 'm', ' '] := by decide
  have hdeclared := declared?_bindLine h
  have hlast := getLast?_bindLine b
  obtain ⟨rest, hrest⟩ : ∃ rest, (bindLine b).toList = 'u' :: rest := by
    rw [toList_bindLine, huniform]
    exact ⟨_, rfl⟩
  rw [hrest] at hdeclared hlast ⊢
  rw [Text.trim_eq_self (by decide) hlast (by decide)]
  simp [ShaderLine.ofText, hline, herror, Text.after?, hdeclared]

theorem externalName_inj {a b : String} (h : externalName a = externalName b) : a = b := by
  have hl := congrArg String.toList h
  rw [externalName, externalName, String.toList_append, String.toList_append] at hl
  exact String.toList_inj.1 (List.append_cancel_left hl)

theorem unbroken_bindLine {b : BindDecl} (h : ∀ c ∈ b.name.toList, Text.isNameChar c = true) :
    '\n' ∉ (bindLine b).toList := by
  have hlead : '\n' ∉ "uniform ".toList := by decide
  have htype : '\n' ∉ b.type.name.toList := by
    cases b.type <;> decide
  have hname : '\n' ∉ (externalName b.name).toList := fun hm =>
    ne_of_isNameChar (isNameChar_externalName h _ hm) (by decide : Text.isNameChar '\n' = false) rfl
  rw [toList_bindLine]
  simp only [List.mem_append, List.mem_cons, not_or]
  exact ⟨hlead, htype, by decide, hname, by decide⟩

/-- Binds of distinct names declare distinct uniforms. -/
theorem offencesFrom_binds : ∀ {binds : List BindDecl} {earlier : List (List Char)},
    (∀ b ∈ binds, ∀ c ∈ b.name.toList, Text.isNameChar c = true) → (binds.map (·.name)).Nodup →
    (∀ b ∈ binds, externalName b.name ∉ declaredNames earlier) →
    offencesFrom earlier (binds.map fun b => (bindLine b).toList) = []
  | [], _, _, _, _ => rfl
  | b :: binds, earlier, hc, hd, hn => by
    have hkind := ofText_bindLine (hc b (List.mem_cons_self ..))
    rw [List.map_cons, List.nodup_cons] at hd
    have hb := hn b (List.mem_cons_self ..)
    have hdeclared : declaredNames (earlier ++ [(bindLine b).toList]) =
        declaredNames earlier ++ [externalName b.name] := by
      rw [declaredNames_concat]
      simp [declaredNames, hkind]
    have ih := @offencesFrom_binds binds (earlier ++ [(bindLine b).toList])
      (fun b' hb' => hc b' (List.mem_cons_of_mem _ hb')) hd.2 (by
        intro b' hb' hmem
        rw [hdeclared] at hmem
        rcases List.mem_append.1 hmem with hmem | hmem
        · exact hn b' (List.mem_cons_of_mem _ hb') hmem
        · have hsame := externalName_inj (List.mem_singleton.1 hmem)
          exact hd.1 (List.mem_map.2 ⟨b', hb', hsame⟩))
    rw [List.map_cons, offencesFrom, ih]
    simp [offence?, hkind, hb]

/-! ### The header -/

/-- The first lines of a header: the version and a constant. -/
def headerStart (settings : PipelineSettings) : List String :=
  ["#version " ++ toString settings.glslVersion,
    "#define _SMOOTH_FACTOR " ++ FloatText.fixed32 6 settings.smoothFactor]

/-- The last lines of a header: what expansions count. -/
def headerEnd (settings : PipelineSettings) : List String :=
  (controls settings).map fun c => "#define " ++ c.1 ++ " " ++ toString c.2

def headerLines (settings : PipelineSettings) (binds : List BindDecl) : List String :=
  headerStart settings ++ binds.map bindLine ++ headerEnd settings

theorem stageHeader_eq (settings : PipelineSettings) (binds : List BindDecl) :
    stageHeader settings binds = Text.unlines (headerLines settings binds) := rfl

/-- A line of a header that declares nothing. -/
structure IsPlain (s : String) : Prop where
  code : ∃ text, ShaderLine.ofText (Text.trim s.toList) = .code text
  unbroken : '\n' ∉ s.toList
  last : s.toList.getLast? ≠ some '\r'

theorem code_of_isPlain {ls : List String} (h : ∀ s ∈ ls, IsPlain s) :
    ∀ line ∈ ls.map String.toList, ∃ text, ShaderLine.ofText (Text.trim line) = .code text := by
  intro line hline
  obtain ⟨s, hs, rfl⟩ := List.mem_map.1 hline
  exact (h s hs).code

theorem isPlain_append {lead t : String} {c : Char} {rest : List Char}
    (hlead : lead.toList = '#' :: c :: rest) (hb : Text.isBlank c = false) (hl : c ≠ 'l')
    (he : c ≠ 'e') (hn : '\n' ∉ lead.toList) (hr : '\r' ∉ lead.toList)
    (ht : ∀ d ∈ t.toList, Text.isBlank d = false) : IsPlain (lead ++ t) where
  code := by
    rw [String.toList_append, hlead]
    exact ofText_hash hb hl he _
  unbroken := by
    rw [String.toList_append, List.mem_append, not_or]
    exact ⟨hn, fun hm => absurd (ht _ hm) (by decide)⟩
  last := by
    intro hlast
    have hm := List.mem_of_getLast? hlast
    rw [String.toList_append] at hm
    rcases List.mem_append.1 hm with hm | hm
    · exact hr hm
    · exact absurd (ht _ hm) (by decide)

theorem isPlain_headerStart (settings : PipelineSettings) :
    ∀ s ∈ headerStart settings, IsPlain s := by
  intro s hs
  have hversion : "#version ".toList = ['#', 'v', 'e', 'r', 's', 'i', 'o', 'n', ' '] := by decide
  have hsmooth : "#define _SMOOTH_FACTOR ".toList =
      '#' :: 'd' :: "efine _SMOOTH_FACTOR ".toList := by decide
  rcases List.mem_cons.1 hs with rfl | hs
  · exact isPlain_append hversion (by decide) (by decide) (by decide) (by decide) (by decide)
      (isWord_toString _).blankless
  · rw [List.mem_singleton.1 hs]
    exact isPlain_append hsmooth (by decide) (by decide) (by decide) (by decide) (by decide)
      (FloatText.blankless_fixed32 6 _)

theorem isPlain_headerEnd (settings : PipelineSettings) : ∀ s ∈ headerEnd settings, IsPlain s := by
  have hplain : ∀ name ∈ ["_AVG_FRAMES", "_CHANNELS", "_UNIFORM_LIMIT"], ∀ n : Nat,
      IsPlain ("#define " ++ name ++ " " ++ toString n) := by
    intro name hname n
    have hlead : ∃ rest, ("#define " ++ name ++ " ").toList = '#' :: 'd' :: rest ∧
        '\n' ∉ ("#define " ++ name ++ " ").toList ∧ '\r' ∉ ("#define " ++ name ++ " ").toList := by
      simp only [List.mem_cons, List.not_mem_nil, or_false] at hname
      rcases hname with rfl | rfl | rfl
      · exact ⟨"efine _AVG_FRAMES ".toList, by decide, by decide, by decide⟩
      · exact ⟨"efine _CHANNELS ".toList, by decide, by decide, by decide⟩
      · exact ⟨"efine _UNIFORM_LIMIT ".toList, by decide, by decide, by decide⟩
    obtain ⟨rest, hl, hn, hr⟩ := hlead
    exact isPlain_append hl (by decide) (by decide) (by decide) hn hr (isWord_toString n).blankless
  intro s hs
  obtain ⟨c, hc, rfl⟩ := List.mem_map.1 hs
  simp only [controls, List.mem_cons, List.not_mem_nil, or_false] at hc
  rcases hc with rfl | rfl | rfl
  · exact hplain _ (by simp) _
  · exact hplain _ (by simp) _
  · exact hplain _ (by simp) _

section Binds

variable (settings : PipelineSettings) {binds : List BindDecl}

/-- A header has one line for each thing it says. -/
theorem lines_stageHeader (hn : ∀ b ∈ binds, '\n' ∉ (bindLine b).toList) :
    Text.lines (stageHeader settings binds) = (headerLines settings binds).map String.toList := by
  rw [stageHeader_eq, Text.lines_unlines]
  intro s hs
  rw [headerLines, List.mem_append, List.mem_append] at hs
  rcases hs with (hs | hs) | hs
  · exact ⟨(isPlain_headerStart settings s hs).unbroken, (isPlain_headerStart settings s hs).last⟩
  · obtain ⟨b, hb, rfl⟩ := List.mem_map.1 hs
    refine ⟨hn b hb, ?_⟩
    rw [getLast?_bindLine]
    decide
  · exact ⟨(isPlain_headerEnd settings s hs).unbroken, (isPlain_headerEnd settings s hs).last⟩

/-- No line of a header renumbers. -/
theorem startsWith_line_stageHeader (hn : ∀ b ∈ binds, '\n' ∉ (bindLine b).toList)
    (hu : ∀ b ∈ binds, ∃ type name,
      ShaderLine.ofText (Text.trim (bindLine b).toList) = .uniform type name)
    {line : List Char} (h : line ∈ Text.lines (stageHeader settings binds)) :
    Text.startsWith "#line".toList (Text.trim line) = false := by
  rw [lines_stageHeader settings hn, headerLines] at h
  obtain ⟨s, hs, rfl⟩ := List.mem_map.1 h
  rw [List.mem_append, List.mem_append] at hs
  refine startsWith_line_eq_false fun n file => ?_
  rcases hs with (hs | hs) | hs
  · obtain ⟨text, hcode⟩ := (isPlain_headerStart settings s hs).code
    rw [hcode]
    exact ShaderLine.noConfusion
  · obtain ⟨b, hb, rfl⟩ := List.mem_map.1 hs
    obtain ⟨type, name, huniform⟩ := hu b hb
    rw [huniform]
    exact ShaderLine.noConfusion
  · obtain ⟨text, hcode⟩ := (isPlain_headerEnd settings s hs).code
    rw [hcode]
    exact ShaderLine.noConfusion

/-- What is refused in a header is refused in the lines of its binds. -/
theorem offences_stageHeader (hn : ∀ b ∈ binds, '\n' ∉ (bindLine b).toList) :
    offences (Text.lines (stageHeader settings binds)) =
      offencesFrom ((headerStart settings).map String.toList)
        (binds.map fun b => (bindLine b).toList) := by
  have hstart := (offencesFrom_code [] (code_of_isPlain (isPlain_headerStart settings))).1
  have hend := fun earlier =>
    (offencesFrom_code earlier (code_of_isPlain (isPlain_headerEnd settings))).1
  rw [lines_stageHeader settings hn, headerLines, List.map_append, List.map_append, List.map_map,
    offences, offencesFrom_append, offencesFrom_append, hstart, hend, List.nil_append,
    List.append_nil, List.nil_append]
  rfl

theorem declaredNames_headerStart :
    declaredNames ((headerStart settings).map String.toList) = [] :=
  (offencesFrom_code [] (code_of_isPlain (isPlain_headerStart settings))).2

/-- No line of a header is refused, if distinct names of name characters are bound. -/
theorem offences_stageHeader_eq_nil (hc : ∀ b ∈ binds, ∀ c ∈ b.name.toList, Text.isNameChar c = true)
    (hd : (binds.map (·.name)).Nodup) :
    offences (Text.lines (stageHeader settings binds)) = [] := by
  rw [offences_stageHeader settings fun b hb => unbroken_bindLine (hc b hb)]
  refine offencesFrom_binds hc hd fun b _ => ?_
  rw [declaredNames_headerStart]
  simp

end Binds

theorem endsLine_stageHeader (settings : PipelineSettings) (binds : List BindDecl) :
    Text.endsLine (stageHeader settings binds).toList = true := by
  rw [stageHeader_eq]
  exact Text.endsLine_unlines (by simp [headerLines, headerStart])

end AudioShader
