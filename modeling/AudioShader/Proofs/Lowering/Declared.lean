/-
# Plain declarations

A lowering moves only the uniforms that are declared plainly: with the name right behind the
type, and one semicolon right behind the name. These are declarations to the scan of a compiler
too, and the scan reads the same of them; but it takes other lines for declarations as well,
as `uniform float gain ;` (`filterMap_declaredExactly?`). So the uniforms of a fragment
are the same for both exactly if all of its declarations are plain.

Key definitions: `DeclaresPlainly`.
Key theorems: `declaredExactly?_eq_some_iff`, `uniforms_lowerFragment`, `declaration?_eq`,
`filterMap_declaredExactly?`, `filterMap_filter_eq_iff`, `uniforms_agree_iff_plain`.
-/
import AudioShader.Lowering.Fragment
import AudioShader.Proofs.Graphics.Live
import AudioShader.Proofs.Lowering.Placement
import AudioShader.Proofs.Stage.Declared

namespace AudioShader

open AudioShader.Action (Gives)

namespace Text

theorem startsWith_iff {lead cs : List Char} : startsWith lead cs = true ↔ lead <+: cs := by
  rw [startsWith, Option.isSome_iff_exists]
  constructor
  · rintro ⟨rest, h⟩
    exact ⟨rest, (eq_append_of_after? h).symm⟩
  · rintro ⟨rest, rfl⟩
    exact ⟨rest, after?_append lead rest⟩

/-- A text does not begin with words of which none begins the other. -/
theorem startsWith_eq_false {lead other cs : List Char} (h : other <+: cs)
    (hne : ¬lead <+: other) (hne' : ¬other <+: lead) : startsWith lead cs = false := by
  rw [← Bool.not_eq_true, startsWith_iff]
  intro hlead
  exact (List.prefix_or_prefix_of_prefix hlead h).elim hne hne'

theorem trim_prefix (cs : List Char) : trim cs <+: trimStart cs := by
  rw [trim, trimEnd, dropEnd, ← List.reverse_suffix, List.reverse_reverse]
  exact List.dropWhile_suffix _

end Text

/-! ### What is declared plainly -/

/-- The word behind the type is a name with one semicolon right behind it. -/
def DeclaresPlainly (line : List Char) : Prop :=
  ∃ type name, typeAndWord? (Text.trim line) = some (type, name ++ [';']) ∧ name ≠ [] ∧
    ∀ c ∈ name, Text.isNameChar c = true

theorem declaredExactly?_eq_some_iff {line : List Char} {type : ValueType} {name : String} :
    declaredExactly? line = some (type, name) ↔
      typeAndWord? (Text.trim line) = some (type, name.toList ++ [';']) ∧ name.toList ≠ [] ∧
        ∀ c ∈ name.toList, Text.isNameChar c = true := by
  unfold declaredExactly?
  constructor
  · intro h
    cases hw : typeAndWord? (Text.trim line) with
    | none => simp [hw] at h
    | some found =>
      obtain ⟨type', word⟩ := found
      simp only [hw, Option.bind_eq_bind, Option.bind_some] at h
      split at h
      · next rest hrest =>
        split at h
        · next hname =>
          cases h
          have hword : word = rest.reverse ++ [';'] := by simpa using congrArg List.reverse hrest
          rw [Bool.and_eq_true, Bool.not_eq_true', List.isEmpty_eq_false_iff, List.all_eq_true] at hname
          rw [hword, String.toList_ofList]
          exact ⟨rfl, hname⟩
        · cases h
      · cases h
  · rintro ⟨hw, hne, hname⟩
    have hok : (!name.toList.isEmpty && name.toList.all Text.isNameChar) = true := by
      rw [Bool.and_eq_true, Bool.not_eq_true', List.isEmpty_eq_false_iff, List.all_eq_true]
      exact ⟨hne, hname⟩
    simp only [hw, Option.bind_eq_bind, Option.bind_some, List.reverse_append, List.reverse_cons,
      List.reverse_nil, List.nil_append, List.singleton_append, List.reverse_reverse]
    rw [if_pos hok, String.ofList_toList]
    rfl

theorem declaresPlainly_iff {line : List Char} :
    DeclaresPlainly line ↔ (declaredExactly? line).isSome := by
  rw [Option.isSome_iff_exists]
  constructor
  · rintro ⟨type, name, h⟩
    exact ⟨(type, String.ofList name), declaredExactly?_eq_some_iff.2 (by simpa using h)⟩
  · rintro ⟨⟨type, name⟩, h⟩
    exact ⟨type, name.toList, declaredExactly?_eq_some_iff.1 h⟩

instance : DecidablePred DeclaresPlainly := fun _ => decidable_of_iff _ declaresPlainly_iff.symm

theorem lead_of_typeAndWord? {line : List Char} {found : ValueType × List Char}
    (h : typeAndWord? line = some found) : "uniform ".toList <+: line := by
  unfold typeAndWord? at h
  split at h
  · cases h
  · next rest hrest => exact ⟨rest, (Text.eq_append_of_after? hrest).symm⟩

/-- A plain declaration begins with its keyword. -/
theorem lead_of_declaredExactly? {line : List Char} (h : (declaredExactly? line).isSome) :
    "uniform ".toList <+: Text.trimStart line := by
  obtain ⟨type, name, hw, -⟩ := declaresPlainly_iff.2 h
  exact (lead_of_typeAndWord? hw).trans (Text.trim_prefix line)

/-! ### The slots of a lowered fragment -/

/-- Whether a line tells a version. -/
def isVersion (line : List Char) : Bool := Text.startsWith "#version".toList (Text.trimStart line)

namespace FragmentLine

theorem ofText_false (line : List Char) :
    ofText false line = if isVersion line then .version else ofText true line := by
  unfold ofText
  simp only [Bool.not_false, Bool.true_and, Bool.not_true, Bool.false_and, Bool.false_eq_true,
    if_false]
  rfl

/-- What a line declares does not depend on what stands in front of it. -/
theorem declaration?_ofText (versioned : Bool) (line : List Char) :
    (ofText versioned line).declaration? = declaredExactly? line := by
  -- no line is both a version and a declaration
  have hversion (h : isVersion line = true) : declaredExactly? line = none := by
    by_contra hd
    have hlead := lead_of_declaredExactly? (Option.isSome_iff_ne_none.2 hd)
    rw [isVersion, Text.startsWith_eq_false hlead (by decide) (by decide)] at h
    cases h
  have htrue : (ofText true line).declaration? = declaredExactly? line := by
    unfold ofText
    simp only [Bool.not_true, Bool.false_and, Bool.false_eq_true, if_false]
    cases declaredExactly? line with
    | some found => rfl
    | none =>
      dsimp only
      split
      · split <;> rfl
      · rfl
  cases versioned with
  | true => exact htrue
  | false =>
    rw [ofText_false]
    split
    · next h => exact (hversion h).symm
    · exact htrue

theorem filterMap_declaration? : ∀ (versioned : Bool) (ls : List (List Char)),
    (ofLines versioned ls).filterMap declaration? = ls.filterMap declaredExactly?
  | _, [] => rfl
  | versioned, line :: ls => by
    rw [ofLines, List.filterMap_cons, List.filterMap_cons, declaration?_ofText,
      filterMap_declaration? _ ls]

end FragmentLine

/-- The uniforms of a lowered fragment by type and name. -/
def LoweredFragment.uniforms (t : LoweredFragment) : List (ValueType × String) :=
  t.layout.slots.map fun s => (s.type, s.name)

/-- The slots of a lowered fragment are its plain declarations, in order. -/
theorem uniforms_lowerFragment (source : String) :
    (lowerFragment source).uniforms = (Text.lines source).filterMap declaredExactly? := by
  rw [← FragmentLine.filterMap_declaration? false]
  exact SlotLayout.slots_ofDeclarations _

theorem isNameChar_of_mem_slots {source : String} {s : UniformSlot}
    (h : s ∈ (lowerFragment source).layout.slots) : ∀ c ∈ s.name.toList, Text.isNameChar c = true := by
  have hmem : (s.type, s.name) ∈ (Text.lines source).filterMap declaredExactly? := by
    rw [← uniforms_lowerFragment]
    exact List.mem_map_of_mem h
  obtain ⟨line, -, hline⟩ := List.mem_filterMap.1 hmem
  exact (declaredExactly?_eq_some_iff.1 hline).2.2

/-! ### The scan of a compiler -/

/-- What the scan takes for a declaration is neither a `#line` nor an `#error` line. -/
theorem declaration?_eq (line : List Char) : declaration? line = declared? (Text.trim line) := by
  unfold declaration?
  cases hd : declared? (Text.trim line) with
  | none =>
    cases hkind : ShaderLine.ofText (Text.trim line) with
    | uniform type name =>
      rw [declared?_of_ofText hkind] at hd
      cases hd
    | _ => rfl
  | some found =>
    have hlead : "uniform ".toList <+: Text.trim line := by
      unfold declared? at hd
      cases hw : typeAndWord? (Text.trim line) with
      | none => simp [hw] at hd
      | some found => exact lead_of_typeAndWord? hw
    have hnot (other : List Char) (hne : ¬other <+: "uniform ".toList)
        (hne' : ¬"uniform ".toList <+: other) : Text.after? other (Text.trim line) = none := by
      have hstart := Text.startsWith_eq_false hlead hne hne'
      rwa [Text.startsWith, Option.isSome_eq_false_iff, Option.isNone_iff_eq_none] at hstart
    rw [ofText_of_declared? (hnot _ (by decide) (by decide)) (hnot _ (by decide) (by decide)) hd]

/-- The scan reads of a plain declaration what the lowering reads of it. -/
theorem declaration?_of_declaredExactly? {line : List Char} {found : ValueType × String}
    (h : declaredExactly? line = some found) : declaration? line = some found := by
  obtain ⟨type, name⟩ := found
  obtain ⟨hw, hne, hname⟩ := declaredExactly?_eq_some_iff.1 h
  have hother (c : Char) (hc : Text.isNameChar c = false) : ∀ d ∈ name.toList, (d == c) = false := by
    intro d hd
    rw [beq_eq_false_iff_ne]
    rintro rfl
    rw [hname d hd] at hc
    cases hc
  have hend : Text.dropEnd (· == ';') (name.toList ++ [';']) = name.toList := by
    have hrev : name.toList.reverse.dropWhile (· == ';') = name.toList.reverse := by
      rw [List.dropWhile_eq_self_iff]
      intro hpos
      simpa using hother ';' (by decide) _ (List.mem_reverse.1 (List.getElem_mem hpos))
    rw [Text.dropEnd, List.reverse_append, List.reverse_singleton, List.singleton_append,
      List.dropWhile_cons_of_pos (by decide), hrev, List.reverse_reverse]
  have hsize : name.toList.takeWhile (· != '[') = name.toList := by
    rw [List.takeWhile_eq_self_iff]
    intro d hd
    simpa using hother '[' (by decide) d hd
  rw [declaration?_eq, declared?, hw]
  simp only [Option.bind_eq_bind, Option.bind_some, hend, hsize]
  rw [if_neg (by simpa using hne), String.ofList_toList]
  rfl

/-- The plain declarations are those of the scan on plain lines. -/
theorem filterMap_declaredExactly? (ls : List (List Char)) :
    ls.filterMap declaredExactly? = (ls.filter (DeclaresPlainly ·)).filterMap declaration? := by
  rw [List.filterMap_filter]
  refine List.filterMap_congr fun line _ => ?_
  cases hd : declaredExactly? line with
  | none =>
    have hnot : ¬DeclaresPlainly line := by simp [declaresPlainly_iff, hd]
    simp [hnot]
  | some found =>
    have hplain : DeclaresPlainly line := by simp [declaresPlainly_iff, hd]
    simp [hplain, declaration?_of_declaredExactly? hd]

/-- Nothing is lost if no line that tells something is left out. -/
theorem filterMap_filter_eq_iff {α β : Type} {P : α → Prop} [DecidablePred P] {f : α → Option β} :
    ∀ {xs : List α}, (xs.filter (P ·)).filterMap f = xs.filterMap f ↔
      ∀ x ∈ xs, (f x).isSome → P x
  | [] => by simp
  | x :: xs => by
    have ih : (xs.filter (P ·)).filterMap f = xs.filterMap f ↔ ∀ x ∈ xs, (f x).isSome → P x :=
      filterMap_filter_eq_iff
    rw [List.forall_mem_cons, ← ih]
    by_cases hx : P x
    · rw [List.filter_cons_of_pos (by simpa using hx)]
      cases hf : f x with
      | none => simp [hf]
      | some y => simp [hf, hx]
    · rw [List.filter_cons_of_neg (by simpa using hx)]
      cases hf : f x with
      | none => simp [hf]
      | some y =>
        -- the left side is shorter
        have hshort : ((xs.filter (P ·)).filterMap f).length ≤ (xs.filterMap f).length :=
          (List.filter_sublist.filterMap f).length_le
        have hne : (xs.filter (P ·)).filterMap f ≠ y :: xs.filterMap f := by
          intro heq
          rw [heq, List.length_cons] at hshort
          exact absurd hshort (Nat.not_succ_le_self _)
        simp [hf, hx, hne]

/-- The uniforms of a program by type and name. -/
def Program.declarations (p : Program) : List (ValueType × String) :=
  p.uniforms.map fun u => (u.type, u.name)

/-- A program has the uniforms that the scan takes for declared. -/
theorem declarations_of_compile {label fragment : String} {b b' : HeadlessBackend} {id : ProgramId}
    (h : Gives (GraphicsBackend.compile label fragment) b id b') :
    ∃ p, b'.programs.get? id = some p ∧
      p.declarations = (Text.lines fragment).filterMap declaration? := by
  obtain ⟨rfl, uniforms, hscan, rfl⟩ := (HeadlessBackend.ends_compile b label fragment).gives rfl h
  refine ⟨⟨label, fragment, uniforms⟩, Registry.get?_put_self .., ?_⟩
  unfold scanFragment at hscan
  dsimp only at hscan
  split at hscan
  · cases hscan
    have huniforms := Scan.uniforms_foldl_step (Text.lines fragment) {}
    rw [List.nil_append] at huniforms
    rw [Program.declarations, Scan.declarations, List.map_map, ← huniforms]
    exact List.map_id _
  · cases hscan

/-- A lowered fragment has those uniforms of the compiled program that are declared plainly, in
their order. They are all of them exactly if all declarations are plain. -/
theorem uniforms_agree_iff_plain {label fragment : String} {b b' : HeadlessBackend} {id : ProgramId}
    (h : Gives (GraphicsBackend.compile label fragment) b id b') :
    ∃ p, b'.programs.get? id = some p ∧
      p.declarations = (Text.lines fragment).filterMap declaration? ∧
      (lowerFragment fragment).uniforms =
        ((Text.lines fragment).filter (DeclaresPlainly ·)).filterMap declaration? ∧
      ((lowerFragment fragment).uniforms = p.declarations ↔
        ∀ line ∈ Text.lines fragment, (declaration? line).isSome → DeclaresPlainly line) := by
  obtain ⟨p, hp, hdeclared⟩ := declarations_of_compile h
  have hlowered : (lowerFragment fragment).uniforms =
      ((Text.lines fragment).filter (DeclaresPlainly ·)).filterMap declaration? := by
    rw [← filterMap_declaredExactly?]
    exact uniforms_lowerFragment fragment
  refine ⟨p, hp, hdeclared, hlowered, ?_⟩
  rw [hlowered, hdeclared]
  exact filterMap_filter_eq_iff

/-! ### Fragments -/

/-- A fragment without errors is compiled. -/
theorem exists_gives_compile {fragment : String}
    (h : ((Text.lines fragment).foldl Scan.step {}).errors = []) (label : String)
    (b : HeadlessBackend) : ∃ id b', Gives (GraphicsBackend.compile label fragment) b id b' := by
  have hends := HeadlessBackend.ends_compile b label fragment
  rcases hrun : HeadlessBackend.compileProgram label fragment b #[] with ⟨⟨e | id, b'⟩, log⟩
  · obtain ⟨-, _, -, hscan⟩ := hends.fails rfl ⟨#[], log, hrun⟩
    rw [scanFragment, h] at hscan
    cases hscan
  · exact ⟨id, b', #[], log, hrun⟩

/-- Two plain declarations, one with a precision and one with a comment. -/
def plainFragment : String :=
  "uniform highp float gain;\n  uniform sampler1D audio; // left\nvoid main() { gain; }\n"

theorem uniforms_agree_plainFragment : ∃ id b' p,
    Gives (GraphicsBackend.compile "1.frag" plainFragment) ({ screen := (2, 2) } : HeadlessBackend)
      id b' ∧
    b'.programs.get? id = some p ∧ p.declarations = [(.float, "gain"), (.sampler1D, "audio")] ∧
    (lowerFragment plainFragment).uniforms = p.declarations := by
  obtain ⟨id, b', h⟩ := @exists_gives_compile plainFragment (by decide +kernel) "1.frag"
    ({ screen := (2, 2) } : HeadlessBackend)
  obtain ⟨p, hp, hdeclared, -, hagree⟩ := uniforms_agree_iff_plain h
  exact ⟨id, b', p, h, hp, hdeclared.trans (by decide +kernel), hagree.2 (by decide +kernel)⟩

/-- A declaration with a blank in front of its semicolon. -/
def spacedFragment : String := "uniform float gain ;\nvoid main() { gain; }\n"

/-- It is compiled with its uniform, which the lowered fragment does not have. -/
theorem uniforms_differ_spacedFragment : ∃ id b' p,
    Gives (GraphicsBackend.compile "1.frag" spacedFragment) ({ screen := (2, 2) } : HeadlessBackend)
      id b' ∧
    b'.programs.get? id = some p ∧ p.declarations = [(.float, "gain")] ∧
    (lowerFragment spacedFragment).uniforms = [] := by
  obtain ⟨id, b', h⟩ := @exists_gives_compile spacedFragment (by decide) "1.frag"
    ({ screen := (2, 2) } : HeadlessBackend)
  obtain ⟨p, hp, hdeclared⟩ := declarations_of_compile h
  refine ⟨id, b', p, h, hp, hdeclared.trans (by decide), ?_⟩
  rw [uniforms_lowerFragment]
  decide

end AudioShader
