/-
# What a compiled stage declares

A fragment that the scan accepts declares each of its uniforms once. So in a
compiled stage the uniform that holds a value bound from outside has the type
that the header gives it, whatever else the stage says.

Key definitions: `Declares`.
Key theorems: `declares_of_scanFragment`, `declares_stage`, `isNameChar_of_checkBinds`.
-/
import AudioShader.Proofs.Graphics.Outline
import AudioShader.Proofs.Stage.Diagnosis

namespace AudioShader

/-! ### The uniforms that a scan collects -/

/-- The uniform that a line declares. -/
def declaration? (line : List Char) : Option (ValueType × String) :=
  match ShaderLine.ofText (Text.trim line) with
  | .uniform type name => some (type, name)
  | _ => none

namespace Scan

theorem uniforms_step (s : Scan) (line : List Char) :
    (s.step line).uniforms = s.uniforms ++ (declaration? line).toList := by
  unfold step declaration?
  cases ShaderLine.ofText (Text.trim line) with
  | renumber number file => cases number <;> exact (List.append_nil _).symm
  | error message => exact (List.append_nil _).symm
  | uniform type name =>
    dsimp only
    split <;> rfl
  | code text => exact (List.append_nil _).symm

theorem uniforms_foldl_step : ∀ (ls : List (List Char)) (s : Scan),
    (ls.foldl step s).uniforms = s.uniforms ++ ls.filterMap declaration?
  | [], s => (List.append_nil _).symm
  | line :: ls, s => by
    rw [List.foldl_cons, uniforms_foldl_step ls, uniforms_step, List.append_assoc,
      List.filterMap_cons]
    cases declaration? line <;> rfl

/-- Nothing is refused, and the uniforms have different names. -/
structure Clean (s : Scan) : Prop where
  errors : s.errors = []
  nodup : (s.uniforms.map (·.2)).Nodup

theorem errors_report (s : Scan) (what : String) : (s.report what).errors ≠ [] := by
  simp [report]

/-- If a line leaves no errors there were none before, and what it declares is
new. -/
theorem clean_of_step {s : Scan} {line : List Char} (h : (s.step line).errors = []) :
    s.errors = [] ∧ ((s.uniforms.map (·.2)).Nodup → Clean (s.step line)) := by
  have hold (kind : declaration? line = none) (hs : s.errors = []) :
      s.errors = [] ∧ ((s.uniforms.map (·.2)).Nodup → Clean (s.step line)) := by
    refine ⟨hs, fun hnodup => ⟨h, ?_⟩⟩
    rw [uniforms_step, kind, Option.toList_none, List.append_nil]
    exact hnodup
  cases hline : ShaderLine.ofText (Text.trim line) with
  | renumber number file =>
    refine hold (by rw [declaration?, hline]) ?_
    rw [step, hline] at h
    cases number <;> exact h
  | error message =>
    rw [step, hline] at h
    exact absurd h (errors_report _ _)
  | uniform type name =>
    have hstep := h
    rw [step, hline] at hstep
    dsimp only at hstep
    split at hstep
    · exact absurd hstep (errors_report _ _)
    · next hnew =>
      refine ⟨hstep, fun hnodup => ⟨h, ?_⟩⟩
      have hdeclared : declaration? line = some (type, name) := by rw [declaration?, hline]
      rw [uniforms_step, hdeclared, Option.toList_some, List.map_append, List.map_singleton]
      have habsent : name ∉ s.uniforms.map (·.2) := by
        simpa using hnew
      exact (List.perm_append_singleton ..).nodup_iff.2 (List.nodup_cons.2 ⟨habsent, hnodup⟩)
  | code text =>
    refine hold (by rw [declaration?, hline]) ?_
    rw [step, hline] at h
    exact h

theorem clean_foldl : ∀ {ls : List (List Char)} {s : Scan}, (ls.foldl step s).errors = [] →
    s.errors = [] ∧ ((s.uniforms.map (·.2)).Nodup → Clean (ls.foldl step s))
  | [], _, h => ⟨h, fun hnodup => ⟨h, hnodup⟩⟩
  | _ :: _, _, h => by
    obtain ⟨hmid, hrest⟩ := clean_foldl (List.foldl_cons .. ▸ h)
    obtain ⟨hs, hstep⟩ := clean_of_step hmid
    exact ⟨hs, fun hnodup => hrest (hstep hnodup).nodup⟩

end Scan

/-- The slots of a program in which each name is declared once, with the types
of certain declarations. -/
structure Declares (slots : List ProgramSlot) (known : List (ValueType × String)) : Prop where
  nodup : (slots.map (·.name)).Nodup
  known : ∀ d ∈ known, ∃ slot ∈ slots, slot.name = d.2 ∧ slot.type = d.1

theorem declares_of_scanFragment {fragment : String} {uniforms : List Declared}
    (h : scanFragment fragment = .ok uniforms) :
    Declares (uniforms.map Declared.slot) ((Text.lines fragment).filterMap declaration?) := by
  unfold scanFragment at h
  dsimp only at h
  split at h
  · next hempty =>
    cases h
    have hclean := (Scan.clean_foldl (List.isEmpty_iff.1 hempty)).2 List.nodup_nil
    have huniforms := Scan.uniforms_foldl_step (Text.lines fragment) {}
    refine ⟨?_, fun d hd => ?_⟩
    · have hnames : (((Text.lines fragment).foldl Scan.step {}).declarations.map Declared.slot).map
          (·.name) = ((Text.lines fragment).foldl Scan.step {}).uniforms.map (·.2) := by
        simp only [Scan.declarations, List.map_map]
        rfl
      rw [hnames]
      exact hclean.nodup
    · have hmem : d ∈ ((Text.lines fragment).foldl Scan.step {}).uniforms := by
        rw [huniforms]
        exact List.mem_append_right _ hd
      exact ⟨_, List.mem_map_of_mem (List.mem_map_of_mem hmem), rfl, rfl⟩
  · cases h

theorem Declares.mono {slots : List ProgramSlot} {known known' : List (ValueType × String)}
    (h : Declares slots known) (hsub : ∀ d ∈ known', d ∈ known) : Declares slots known' :=
  ⟨h.nodup, fun d hd => h.known d (hsub d hd)⟩

/-- A slot of a declared name has the declared type. -/
theorem Declares.type_eq {slots : List ProgramSlot} {known : List (ValueType × String)}
    (h : Declares slots known) {d : ValueType × String} (hd : d ∈ known) {slot : ProgramSlot}
    (hslot : slot ∈ slots) (hname : slot.name = d.2) : slot.type = d.1 := by
  obtain ⟨slot', hslot', hname', htype⟩ := h.known d hd
  rw [List.inj_on_of_nodup_map h.nodup hslot hslot' (hname.trans hname'.symm)]
  exact htype

/-! ### Binds -/

/-- Binds that pass the check have names of name characters. -/
theorem isNameChar_of_checkBinds : ∀ {seen : List String} {binds : List BindDecl},
    RunConfig.checkBinds seen binds = .ok () →
    ∀ b ∈ binds, ∀ c ∈ b.name.toList, Text.isNameChar c = true
  | _, [], _ => fun _ hb => nomatch hb
  | seen, b :: binds, h => by
    rw [RunConfig.checkBinds] at h
    cases hb : RunConfig.checkBind seen b with
    | error fault =>
      rw [hb] at h
      cases h
    | ok u =>
      rw [hb] at h
      have hname : Text.isName b.name = true := by
        unfold RunConfig.checkBind at hb
        split at hb
        · cases hb
        · next hname => simpa using hname
      exact List.forall_mem_cons.2 ⟨isNameChar_of_isName hname, isNameChar_of_checkBinds h⟩

/-- Binds that pass the check have different names. -/
theorem nodup_of_checkBinds : ∀ {seen : List String} {binds : List BindDecl},
    RunConfig.checkBinds seen binds = .ok () →
    (binds.map (·.name)).Nodup ∧ ∀ b ∈ binds, b.name ∉ seen
  | _, [], _ => ⟨List.nodup_nil, fun _ hb => nomatch hb⟩
  | seen, b :: binds, h => by
    rw [RunConfig.checkBinds] at h
    obtain ⟨_, hb, hrest⟩ := ok_of_bind h
    obtain ⟨hnodup, hnew⟩ := nodup_of_checkBinds hrest
    have hb' : b.name ∉ seen := by
      unfold RunConfig.checkBind at hb
      split at hb
      · cases hb
      · split at hb
        · cases hb
        · next hseen => simpa using hseen
    refine ⟨List.nodup_cons.2 ⟨fun hmem => ?_, hnodup⟩, List.forall_mem_cons.2 ⟨hb', fun b' hmem hs => ?_⟩⟩
    · obtain ⟨b', hmem, hname⟩ := List.mem_map.1 hmem
      exact hnew b' hmem (List.mem_append_right _ (List.mem_singleton.2 hname))
    · exact hnew b' hmem (List.mem_append_left _ hs)

/-- A run file that passes the check has requests that do, and binds that do. -/
theorem RunConfig.parts_of_check {run : RunConfig} (h : run.check = .ok ()) :
    run.requests.forM checkRequest = .ok () ∧ checkBinds [] run.binds = .ok () := by
  unfold RunConfig.check at h
  dsimp only at h
  split at h
  · cases h
  · split at h
    · cases h
    · obtain ⟨_, hrequests, h⟩ := ok_of_bind h
      obtain ⟨_, hbinds, -⟩ := ok_of_bind h
      exact ⟨hrequests, hbinds⟩

/-- The declarations that the header of a stage makes of binds. -/
def bindDeclarations (binds : List BindDecl) : List (ValueType × String) :=
  binds.map fun b => (.ofBind b.type, externalName b.name)

/-- A stage that is compiled declares its binds as its header does. -/
theorem declares_stage {src : ProcessedSource} {settings : PipelineSettings}
    {binds : List BindDecl} (hbinds : ∀ b ∈ binds, ∀ c ∈ b.name.toList, Text.isNameChar c = true)
    {uniforms : List Declared}
    (h : scanFragment (src.withLead (stageHeader settings binds)).text = .ok uniforms) :
    Declares (uniforms.map Declared.slot) (bindDeclarations binds) := by
  refine (declares_of_scanFragment h).mono fun d hd => ?_
  obtain ⟨b, hb, rfl⟩ := List.mem_map.1 hd
  have hunbroken : ∀ b ∈ binds, '\n' ∉ (bindLine b).toList :=
    fun b hb => unbroken_bindLine (hbinds b hb)
  rw [withLead_eq src (endsLine_stageHeader settings binds),
    Text.lines_append (endsLine_stageHeader settings binds), lines_stageHeader settings hunbroken,
    List.mem_filterMap]
  have hline : (bindLine b).toList ∈ (headerLines settings binds).map String.toList :=
    List.mem_map_of_mem (List.mem_append_left _ (List.mem_append_right _ (List.mem_map_of_mem hb)))
  exact ⟨_, List.mem_append_left _ hline, by rw [declaration?, ofText_bindLine (hbinds b hb)]⟩

end AudioShader
