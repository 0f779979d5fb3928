/-
# The stages that a build makes

A build on a headless backend makes one stage for each file of the run that is
not disabled, in order: with the program of what the file is processed to, and
with a binding for each uniform that the file asks for. All of them but the last
get a target of their own, with its texture.

Key definitions: `StageSetup.processed?`, `StageSetup.disables`, `Program.externals`,
`ShaderStage.MadeAs`, `Targeted`, `Building.Listed`, `Building.Aiming`, `Active`.
Key theorems: `Building.gathered_buildStage`, `Building.aiming_attachTargets`,
`active_buildStages`.
-/
import AudioShader.Proofs.Graphics.Growth
import AudioShader.Proofs.Graphics.Stores
import AudioShader.Proofs.Source.Unlogged
import AudioShader.Proofs.Stage.Attach
import AudioShader.Proofs.Stage.Declared
import AudioShader.Proofs.Stage.Files
import AudioShader.Proofs.Stage.Sources

namespace AudioShader

open AudioShader.Action (Ends Stays Gives)

/-! ### What a file says -/

namespace StageSetup

/-- What the file of a stage is processed to, and the uniforms that it asks for. -/
def processed? (s : StageSetup) (path : Path) : Option (ProcessedSource × List UniformRequest) :=
  match SourceUnit.ofFile s.files path with
  | .error _ => none
  | .ok unit =>
    match (s.process (s.equip unit) s.context #[]).1 with
    | (.ok source, context) => some (source, context.uniforms)
    | (.error _, _) => none

/-- The compiler refuses the file of a stage with a log that holds the sentinel. -/
def disables (s : StageSetup) (path : Path) : Bool :=
  match s.processed? path with
  | none => false
  | some (source, _) =>
    match scanFragment source.text with
    | .ok _ => false
    | .error log => Text.holds disableSentinel.toList log.toList

variable {s : StageSetup} {path : Path} {source : ProcessedSource} {uniforms : List UniformRequest}

theorem disables_of_refused {log : String} (h : s.processed? path = some (source, uniforms))
    (hscan : scanFragment source.text = .error log)
    (hlog : Text.holds disableSentinel.toList log.toList = true) : s.disables path = true := by
  rw [disables, h]
  dsimp only
  rw [hscan]
  exact hlog

theorem disables_of_accepted {declared : List Declared}
    (h : s.processed? path = some (source, uniforms))
    (hscan : scanFragment source.text = .ok declared) : s.disables path = false := by
  rw [disables, h]
  dsimp only
  rw [hscan]

theorem gives_of_processed? (h : s.processed? path = some (source, uniforms)) :
    ∃ unit context, context.uniforms = uniforms ∧
      Gives (s.process unit) s.context source context := by
  unfold processed? at h
  split at h
  · cases h
  · next unit _ =>
    rcases hp : s.process (s.equip unit) s.context #[] with ⟨⟨e | source', context⟩, log⟩
    · rw [hp] at h
      cases h
    · rw [hp] at h
      cases h
      exact ⟨s.equip unit, context, rfl, #[], log, hp⟩

/-- A file asks for each name once. -/
theorem nodup_of_processed? (h : s.processed? path = some (source, uniforms)) :
    (uniforms.map (·.name)).Nodup := by
  obtain ⟨unit, context, rfl, hgives⟩ := gives_of_processed? h
  exact nodup_names_of_process hgives

/-- A file asks for sources of the catalog. -/
theorem mem_catalog_of_processed? (h : s.processed? path = some (source, uniforms)) :
    ∀ u ∈ uniforms, u.source ∈ BindSource.catalog := by
  obtain ⟨unit, context, rfl, hgives⟩ := gives_of_processed? h
  exact (mem_catalog_of_process hgives).1

end StageSetup

/-- What a stage is processed to does not depend on the build. -/
theorem ends_processStage {σ : Type} (setup : StageSetup) (path : Path) (P : Building σ → Prop) :
    Ends P (processStage setup path)
      (fun processed b => P b ∧ setup.processed? path = some processed) fun _ _ => True := by
  unfold processStage StageSetup.processed?
  cases SourceUnit.ofFile setup.files path with
  | error e => exact Ends.throw fun _ _ => trivial
  | ok unit =>
    intro b hb log
    have hsame := setup.unlogged_process (setup.equip unit) setup.context log #[]
    dsimp only
    rw [Action.bind_apply, ← hsame]
    unfold Action.mapError Action.ofLogged Action.from?
    rcases setup.process (setup.equip unit) setup.context log with ⟨⟨e | source, context⟩, log'⟩
    · trivial
    · exact ⟨hb, rfl⟩

/-! ### Stages as they are made -/

/-- The uniforms bound from outside that a program uses, each with its place. -/
def Program.externals (p : Program) (binds : List BindDecl) : List (Nat × UniformLocation) :=
  binds.zipIdx.filterMap fun (d, i) => (p.place? (externalName d.name)).map fun l => (i, l)

theorem usedExternals_eq {d : HeadlessBackend} {id : ProgramId} {p : Program}
    (h : d.programs.get? id = some p) (binds : List BindDecl) :
    usedExternals d id binds = p.externals binds := by
  refine List.filterMap_congr fun x _ => ?_
  show (d.uniformLocation? id _).map _ = _
  rw [HeadlessBackend.uniformLocation?_eq h]

/-- What a stage keeps of a uniform that its file asks for. -/
def UniformBinding.wiring (x : UniformBinding) : String × BindSource × Option UniformLocation :=
  (x.name, x.source, x.location)

/-- What a program keeps of a uniform that is asked for. -/
def UniformRequest.wiring (u : UniformRequest) (p : Program) :
    String × BindSource × Option UniformLocation :=
  (u.name, u.source, p.place? u.name)

/-- A stage is made of its file: its program is what the file is processed to, and
it binds the uniforms that the file asks for and those from outside. -/
structure ShaderStage.MadeAs (setup : StageSetup) (p : Program) (uniforms : List UniformRequest)
    (d : HeadlessBackend) (st : ShaderStage) : Prop where
  processed : ∃ source, setup.processed? st.path = some (source, uniforms) ∧ p.source = source.text
  scanned : scanFragment p.source = .ok p.uniforms
  label : p.label = s!"stage {st.ordinal}"
  program : d.programs.get? st.program = some p
  bindings : st.bindings.map UniformBinding.wiring = uniforms.map (·.wiring p)
  externals : st.externals = p.externals setup.binds

namespace ShaderStage.MadeAs

variable {setup : StageSetup} {p : Program} {uniforms : List UniformRequest} {d : HeadlessBackend}
  {st : ShaderStage}

theorem nodup_uniforms (h : st.MadeAs setup p uniforms d) : (uniforms.map (·.name)).Nodup := by
  obtain ⟨source, hprocessed, -⟩ := h.processed
  exact StageSetup.nodup_of_processed? hprocessed

/-- A uniform that the file asks for is bound. -/
theorem exists_binding (h : st.MadeAs setup p uniforms d) {u : UniformRequest} (hu : u ∈ uniforms) :
    ∃ x ∈ st.bindings, x.name = u.name ∧ x.source = u.source ∧ x.location = p.place? u.name := by
  have hmem : u.wiring p ∈ st.bindings.map UniformBinding.wiring := by
    rw [h.bindings]
    exact List.mem_map_of_mem hu
  obtain ⟨x, hx, heq⟩ := List.mem_map.1 hmem
  simp only [UniformBinding.wiring, UniformRequest.wiring, Prod.mk.injEq] at heq
  exact ⟨x, hx, heq⟩

/-- A uniform that is bound is one that the file asks for. -/
theorem exists_request (h : st.MadeAs setup p uniforms d) {x : UniformBinding}
    (hx : x ∈ st.bindings) :
    ∃ u ∈ uniforms, x.name = u.name ∧ x.source = u.source ∧ x.location = p.place? u.name := by
  have hmem : x.wiring ∈ uniforms.map (·.wiring p) := by
    rw [← h.bindings]
    exact List.mem_map_of_mem hx
  obtain ⟨u, hu, heq⟩ := List.mem_map.1 hmem
  simp only [UniformBinding.wiring, UniformRequest.wiring, Prod.mk.injEq] at heq
  exact ⟨u, hu, heq.1.symm, heq.2.1.symm, heq.2.2.symm⟩

end ShaderStage.MadeAs

namespace HeadlessBackend

/-- Draws do not see the change from a backend to another one, whose handles are
numbered. -/
def Aside (d c : HeadlessBackend) : Prop := d.Unseen c ∧ c.outline.Numbered

theorem aside_addAudioTexture (d : HeadlessBackend) (len : Nat) :
    Stays d.Aside (addAudioTexture len) := by
  refine Ends.of_forall fun b hb => ?_
  refine ((stays_addAudioTexture (fun _ _ hc h => h.trans hc) len).both
    (ends_addAudioTexture b len)).weaken (fun _ h => ⟨h ▸ hb.1, h⟩) ?_ ?_
  · intro _ c hc
    obtain ⟨hunseen, -, houtline⟩ := hc
    exact ⟨hunseen, houtline ▸ hb.2.addTexture _⟩
  · intro _ c hc
    exact hc.2 ▸ hb

theorem aside_addOffload (d : HeadlessBackend) (tail : Tail) (params : TransformParams Float32) :
    Stays d.Aside (addOffload tail params) := by
  refine Ends.of_forall fun b hb => ?_
  refine ((stays_addOffload (fun _ _ hc h => h.trans hc) tail params).both
    (ends_addOffload b tail params)).weaken (fun _ h => ⟨h ▸ hb.1, h⟩) ?_ ?_
  · intro _ c hc
    obtain ⟨hunseen, -, houtline⟩ := hc
    exact ⟨hunseen, houtline ▸ hb.2.addOffload _⟩
  · intro _ c hc
    exact hc.2 ▸ hb

end HeadlessBackend

/-- Each stage is made of its file. -/
def AllMade (setup : StageSetup) (d : HeadlessBackend) (stages : List ShaderStage) : Prop :=
  ∀ st ∈ stages, ∃ p uniforms, st.MadeAs setup p uniforms d

theorem AllMade.grow {setup : StageSetup} {d d' : HeadlessBackend} {stages : List ShaderStage}
    (h : AllMade setup d stages)
    (hd : ∀ id p, d.programs.get? id = some p → d'.programs.get? id = some p) :
    AllMade setup d' stages := by
  intro st hst
  obtain ⟨p, uniforms, hmade⟩ := h st hst
  exact ⟨p, uniforms, { hmade with program := hd _ _ hmade.program }⟩

/-- Stages up to a number have targets that the device knows with their textures;
those behind have none. -/
def Targeted (d : HeadlessBackend) (k : Nat) (stages : List ShaderStage) : Prop :=
  ∀ i st, stages[i]? = some st →
    (i < k → ∃ target output, st.target = some target ∧ st.output = some output ∧
      d.targets.get? target = some output) ∧
    (k ≤ i → st.target = none ∧ st.output = none)

namespace Building

/-- The stages of a build are those of the files so far that are not disabled, in
order. -/
structure Listed (setup : StageSetup) (files : List (Nat × Path)) (b : Building HeadlessBackend) :
    Prop where
  numbered : b.device.outline.Numbered
  files : b.stages.map (fun st => (st.ordinal, st.path)) = files.filter fun f => !setup.disables f.2
  made : AllMade setup b.device b.stages

/-- Stages that are listed, none of which has a target yet. -/
structure Gathered (setup : StageSetup) (files : List (Nat × Path)) (b : Building HeadlessBackend) :
    Prop extends Listed setup files b where
  bare : ∀ st ∈ b.stages, st.target = none ∧ st.output = none

/-! ### Uniforms -/

/-- A build in which uniforms are bound to the last stage, which has the program
`p` and was added to the stages in front on a device `d`. -/
structure Wired (d : HeadlessBackend) (front : List ShaderStage) (st : ShaderStage) (p : Program)
    (done : List UniformRequest) (b : Building HeadlessBackend) : Prop where
  numbered : b.device.outline.Numbered
  unseen : d.Unseen b.device
  stages : ∃ bindings, b.stages = front ++ [{ st with bindings }] ∧
    bindings.map UniformBinding.wiring = done.map (·.wiring p)

section Wired

variable {d : HeadlessBackend} {front : List ShaderStage} {st : ShaderStage} {p : Program}
  {done : List UniformRequest}

/-- A uniform that is bound is the next one of the stage. -/
theorem wired_attachUniform (hp : d.programs.get? st.program = some p)
    (settings : PipelineSettings) (ordinal : Nat) (u : UniformRequest) :
    Ends (Wired d front st p done) (attachUniform settings front.length ordinal st.program u)
      (fun _ => Wired d front st p (done ++ [u])) fun _ _ => True := by
  refine Ends.of_forall fun b hb => ?_
  let R : UniformBinding → HeadlessBackend → Prop := fun x c => d.Aside c ∧ x.wiring = u.wiring p
  have hbinding (texture : Option TextureId) (offload : Option OffloadId) :
      (u.binding settings st.program b texture offload).wiring = u.wiring p := by
    have hprogram : b.device.programs.get? st.program = some p := by
      rw [hb.unseen.programs, hp]
    show (u.name, u.source, b.device.uniformLocation? st.program u.name) = _
    rw [HeadlessBackend.uniformLocation?_eq hprogram]
    rfl
  have hstart : d.Aside b.device := ⟨hb.unseen, hb.numbered⟩
  refine (ends_attachUniform (T := fun _ => d.Aside) (R := R) (E := fun _ _ => True) (fun _ => ?_)
    (fun _ => hstart) (fun _ texture c hc => ⟨hc, hbinding texture none⟩)
    (fun lead tail _ texture => ?_)).weaken (fun _ h => h) ?_ fun _ _ _ => trivial
  · exact (HeadlessBackend.aside_addAudioTexture d settings.bufferSize).weaken
      (fun _ h => h ▸ hstart) (fun _ _ h => h) fun _ _ _ => trivial
  · exact (HeadlessBackend.aside_addOffload d tail settings.params).weaken (fun _ h => h)
      (fun id _ h => ⟨h, hbinding texture (some id)⟩) fun _ _ _ => trivial
  · intro _ t ht
    obtain ⟨x, ⟨⟨hunseen, hnumbered⟩, hx⟩, hstages⟩ := ht
    obtain ⟨bindings, hb', hkeys⟩ := hb.stages
    refine ⟨hnumbered, hunseen, bindings ++ [x], ?_, ?_⟩
    · rw [hstages, hb', modify_concat]
      rfl
    · rw [List.map_append, List.map_append, hkeys, List.map_singleton, List.map_singleton, hx]

/-- A stage binds all uniforms that its file asks for, and those from outside. -/
theorem wired_attachAll (front : List ShaderStage) (hp : d.programs.get? st.program = some p)
    (setup : StageSetup) (ordinal : Nat) (uniforms : List UniformRequest) :
    Ends (Wired d front st p []) (attachAll setup front.length ordinal st.program uniforms)
      (fun _ b => b.device.outline.Numbered ∧ d.Unseen b.device ∧ ∃ bindings,
        b.stages = front ++ [{ st with bindings, externals := p.externals setup.binds }] ∧
        bindings.map UniformBinding.wiring = uniforms.map (·.wiring p))
      fun _ _ => True := by
  refine Ends.bind (Ends.forM_done (fun _ u => wired_attachUniform hp setup.settings ordinal u)
    uniforms []) fun _ => ?_
  refine Ends.get_bind fun b hb => Ends.modify fun t ht => ?_
  subst ht
  obtain ⟨bindings, hstages, hkeys⟩ := hb.stages
  refine ⟨hb.numbered, hb.unseen, bindings, ?_, hkeys⟩
  have hprogram : t.device.programs.get? st.program = some p := by
    rw [hb.unseen.programs, hp]
  dsimp only
  rw [hstages, modify_concat, usedExternals_eq hprogram]

end Wired

/-! ### Stages -/

/-- A source that is compiled becomes a program; one that is left out is refused
with the sentinel. -/
theorem ends_compileStage_scan (b : Building HeadlessBackend) (ordinal : Nat) (path : Path)
    (source : ProcessedSource) :
    Ends (fun t => t = b) (compileStage ordinal path source)
      (fun program? t => match program? with
        | none => t = b ∧ ∃ log, scanFragment source.text = .error log ∧
            Text.holds disableSentinel.toList log.toList = true
        | some id => id = ⟨b.device.next⟩ ∧ ∃ uniforms, scanFragment source.text = .ok uniforms ∧
            t = { b with
              device := b.device.withProgram ⟨s!"stage {ordinal}", source.text, uniforms⟩ })
      fun _ _ => True := by
  refine Ends.bind (R := fun compiled t => match compiled with
    | .ok id => id = ⟨b.device.next⟩ ∧ ∃ uniforms, scanFragment source.text = .ok uniforms ∧
        t = { b with device := b.device.withProgram ⟨s!"stage {ordinal}", source.text, uniforms⟩ }
    | .error e => t = b ∧ ∃ log, e = .compile log ∧ scanFragment source.text = .error log)
    (Ends.attempt ?_) fun compiled => ?_
  · refine (ends_onDevice (HeadlessBackend.ends_compile b.device _ _)).weaken (fun _ h => h) ?_ ?_
    · rintro id t ⟨d, rfl, hid, uniforms, hscan, rfl⟩
      exact ⟨hid, uniforms, hscan, rfl⟩
    · rintro e t ⟨d, rfl, rfl, hlog⟩
      exact ⟨rfl, hlog⟩
  · cases compiled with
    | ok id => exact Ends.record_bind (Ends.pure fun _ h => h)
    | error e =>
      cases e with
      | compile log =>
        dsimp only
        by_cases hlog : Text.holds disableSentinel.toList log.toList = true
        · rw [if_pos hlog]
          refine Ends.record_bind (Ends.pure fun t ht => ?_)
          obtain ⟨hsame, log', heq, hscan⟩ := ht
          cases heq
          exact ⟨hsame, log, hscan, hlog⟩
        · rw [if_neg hlog]
          exact Ends.throw fun _ _ => trivial
      | _ => exact Ends.throw fun _ _ => trivial

/-- A stage that is made of its file is the next one of the build. -/
theorem Gathered.concat {setup : StageSetup} {files : List (Nat × Path)}
    {b t : Building HeadlessBackend} (hb : Gathered setup files b)
    (hnumbered : t.device.outline.Numbered)
    (hprograms : ∀ id p, b.device.programs.get? id = some p → t.device.programs.get? id = some p)
    {st : ShaderStage} (hstages : t.stages = b.stages ++ [st])
    (hmade : ∃ p uniforms, st.MadeAs setup p uniforms t.device)
    (hbare : st.target = none ∧ st.output = none) (hkept : setup.disables st.path = false) :
    Gathered setup (files ++ [(st.ordinal, st.path)]) t := by
  refine ⟨⟨hnumbered, ?_, ?_⟩, ?_⟩
  · rw [hstages, List.map_append, hb.files, List.filter_append, List.map_singleton,
      List.filter_singleton, hkept]
    rfl
  · rw [hstages]
    refine List.forall_mem_append.2 ⟨hb.made.grow hprograms, fun st' hst' => ?_⟩
    rw [List.mem_singleton.1 hst']
    exact hmade
  · rw [hstages]
    refine List.forall_mem_append.2 ⟨hb.bare, fun st' hst' => ?_⟩
    rw [List.mem_singleton.1 hst']
    exact hbare

/-- A build goes on with the stage of a file, or without it if it is disabled. -/
theorem gathered_buildStage (setup : StageSetup) {files : List (Nat × Path)} (ordinal : Nat)
    (path : Path) :
    Ends (Gathered setup files) (buildStage setup ordinal path)
      (fun _ => Gathered setup (files ++ [(ordinal, path)])) fun _ _ => True := by
  refine Ends.bind (ends_processStage setup path _) fun processed => Ends.assume fun hprocessed => ?_
  obtain ⟨source, uniforms⟩ := processed
  refine Ends.of_forall fun b hb => ?_
  refine Ends.bind (ends_compileStage_scan b ordinal path source) fun program? => ?_
  cases program? with
  | none =>
    refine Ends.pure ?_
    rintro t ⟨rfl, log, hscan, hlog⟩
    refine { hb with files := ?_ }
    rw [hb.files, List.filter_append, List.filter_singleton,
      StageSetup.disables_of_refused hprocessed hscan hlog]
    exact (List.append_nil _).symm
  | some id =>
    refine Ends.get_bind fun b' hb' => ?_
    obtain ⟨rfl, declared, hscan, rfl⟩ := hb'
    let p : Program := ⟨s!"stage {ordinal}", source.text, declared⟩
    let st : ShaderStage := { ordinal, path, program := ⟨b.device.next⟩, map := source.map }
    have hp : (b.device.withProgram p).programs.get? st.program = some p := Registry.get?_put_self ..
    have hattach := wired_attachAll b.stages hp setup ordinal uniforms
    have hnumbered : (b.device.withProgram p).outline.Numbered := by
      rw [HeadlessBackend.outline_withProgram]
      exact hb.numbered.addProgram _
    have habsent : (⟨b.device.next⟩ : ProgramId) ∉ b.device.programs.keys := by
      have hkeys := hb.numbered.program
      rwa [HeadlessBackend.outline, Registry.keys_map] at hkeys
    refine Ends.bind (R := fun _ => Wired (b.device.withProgram p) b.stages st p [])
      (Ends.modify ?_) fun _ => Ends.mapError (hattach.weaken (fun _ h => h) ?_ fun _ _ _ => trivial)
    · rintro _ rfl
      exact ⟨hnumbered, .refl _, [], rfl, rfl⟩
    · intro _ t ht
      obtain ⟨htn, hunseen, bindings, hstages, hkeys⟩ := ht
      have hmade : ShaderStage.MadeAs setup p uniforms t.device
          { st with bindings, externals := p.externals setup.binds } :=
        ⟨⟨source, hprocessed, rfl⟩, hscan, rfl, hunseen.programs ▸ hp, hkeys, rfl⟩
      refine hb.concat htn (fun id q hq => ?_) hstages ⟨p, uniforms, hmade⟩ ⟨rfl, rfl⟩
        (StageSetup.disables_of_accepted hprocessed hscan)
      rw [hunseen.programs]
      exact Registry.get?_put_of_absent habsent hq

/-! ### Targets -/

/-- A stage that draws into a target. -/
def aimed (target : TargetId) (output : TextureId) (st : ShaderStage) : ShaderStage :=
  { st with target := some target, output := some output }

/-- A target is made and given to a stage with its texture. -/
theorem ends_attachTarget_aimed (b : Building HeadlessBackend) (size : Nat × Nat) (index : Nat) :
    Ends (fun t => t = b) (attachTarget size index)
      (fun _ t => t = { b with
        device := b.device.withTarget (.zeros size.1 size.2 4)
        stages := b.stages.modify index (aimed ⟨b.device.next + 1⟩ ⟨b.device.next⟩) })
      fun _ _ => True := by
  let made : Building HeadlessBackend :=
    { b with device := b.device.withTarget (.zeros size.1 size.2 4) }
  refine Ends.bind (R := fun target t => t = made ∧ target = ⟨b.device.next + 1⟩)
    ((ends_onDevice (HeadlessBackend.ends_makeTarget b.device size.1 size.2
      (E := fun _ _ => True))).weaken (fun _ h => h) ?_ fun _ _ _ => trivial) fun target =>
    Ends.assume fun htarget => ?_
  · rintro target t ⟨d, rfl, htarget, rfl⟩
    exact ⟨rfl, htarget⟩
  subst htarget
  let placed : Building HeadlessBackend := { made with
    stages := b.stages.modify index fun st => { st with target := some ⟨b.device.next + 1⟩ } }
  refine Ends.bind (R := fun _ t => t = placed) (Ends.modify (by rintro _ rfl; rfl)) fun _ => ?_
  refine Ends.bind (R := fun output t => t = placed ∧ output = ⟨b.device.next⟩)
    ((ends_onDevice (HeadlessBackend.ends_textureOf placed.device _)).weaken (fun _ h => h) ?_
      fun _ _ _ => trivial) fun output => Ends.assume fun houtput => Ends.modify ?_
  · rintro output t ⟨d, rfl, rfl, hget⟩
    have hself : placed.device.targets.get? ⟨b.device.next + 1⟩ = some ⟨b.device.next⟩ :=
      Registry.get?_put_self ..
    exact ⟨rfl, Option.some.inj (hget.symm.trans hself)⟩
  · rintro _ rfl
    subst houtput
    show ({ made with stages := (b.stages.modify index _).modify index _ } :
      Building HeadlessBackend) = _
    rw [List.modify_modify_eq]
    rfl

/-- A build that has stages with targets up to a number. -/
structure Aiming (setup : StageSetup) (files : List (Nat × Path)) (k n : Nat)
    (b : Building HeadlessBackend) : Prop extends Listed setup files b where
  targeted : Targeted b.device k b.stages
  length : b.stages.length = n

/-- One more stage gets a target. -/
theorem aiming_attachTarget {setup : StageSetup} {files : List (Nat × Path)} {k n : Nat}
    (size : Nat × Nat) :
    Ends (Aiming setup files k n) (attachTarget size k) (fun _ => Aiming setup files (k + 1) n)
      fun _ _ => True := by
  refine Ends.of_forall fun b hb => ?_
  refine (ends_attachTarget_aimed b size k).weaken (fun _ h => h) ?_ fun _ _ _ => trivial
  rintro _ _ rfl
  have hnumbered : (b.device.withTarget (.zeros size.1 size.2 4)).outline.Numbered := by
    rw [HeadlessBackend.outline_withTarget]
    exact hb.numbered.addTarget _
  have habsent : (⟨b.device.next + 1⟩ : TargetId) ∉ b.device.targets.keys := hb.numbered.target
  refine ⟨⟨hnumbered, ?_, ?_⟩, ?_, ?_⟩
  · rw [← hb.files]
    refine map_modify_of_eq (fun st => ?_) b.stages k
    rfl
  · have hmade : AllMade setup (b.device.withTarget (.zeros size.1 size.2 4)) b.stages :=
      hb.made.grow fun _ _ h => h
    refine forall_mem_modify hmade fun st hst => ?_
    obtain ⟨p, uniforms, hst⟩ := hmade st (List.mem_of_getElem? hst)
    exact ⟨p, uniforms, { hst with }⟩
  · intro i st hst
    rw [List.getElem?_modify] at hst
    obtain ⟨st', hst', rfl⟩ := Option.map_eq_some_iff.1 hst
    by_cases hi : k = i
    · rw [if_pos hi]
      subst hi
      exact ⟨fun _ => ⟨_, _, rfl, rfl, Registry.get?_put_self ..⟩, fun hle => by omega⟩
    · rw [if_neg hi]
      obtain ⟨hbefore, hbehind⟩ := hb.targeted i st' hst'
      refine ⟨fun hlt => ?_, fun hle => hbehind (by omega)⟩
      obtain ⟨target, output, htarget, houtput, hget⟩ := hbefore (by omega)
      exact ⟨target, output, htarget, houtput, Registry.get?_put_of_absent habsent hget⟩
  · rw [List.length_modify, hb.length]

/-- All stages but the last get targets. -/
theorem aiming_attachTargets {setup : StageSetup} {files : List (Nat × Path)} {n : Nat} :
    Ends (Aiming setup files 0 n) attachTargets (fun _ => Aiming setup files (n - 1) n)
      fun _ _ => True := by
  refine Ends.get_bind fun b hb => ?_
  have hlength : b.stages.dropLast.length = n - 1 := by rw [List.length_dropLast, hb.length]
  refine (Ends.forM_zipIdx (J := fun k => Aiming setup files k n) (k := 0) fun k st hst =>
    Ends.mapError (aiming_attachTarget _)).weaken (by rintro _ rfl; exact hb) (fun _ t ht => ?_)
    fun _ _ h => h
  rwa [hlength, Nat.zero_add] at ht

end Building

open Building

/-! ### Modules -/

/-- The active stages of a module on a device: those of the longest run of files
that are not disabled, all but the last with targets. -/
structure Active (setup : StageSetup) (moduleDir : Path) (n : Nat) (d : HeadlessBackend)
    (stages : List ShaderStage) : Prop where
  run : setup.files.RunsTo moduleDir n
  files : stages.map (fun st => (st.ordinal, st.path)) =
    ((List.range n).map fun i => (i + 1, stageFile moduleDir (i + 1))).filter fun f =>
      !setup.disables f.2
  ne_nil : stages ≠ []
  made : AllMade setup d stages
  targeted : Targeted d (stages.length - 1) stages

/-- Files with their indices as the numbers and paths of stages. -/
def numberedFiles (files : List (Path × Nat)) : List (Nat × Path) := files.map fun x => (x.2 + 1, x.1)

/-- The files of a run are numbered from one on. -/
theorem numberedFiles_stageFiles (moduleDir : Path) (n : Nat) :
    numberedFiles ((List.range n).map fun i => stageFile moduleDir (i + 1)).zipIdx =
      (List.range n).map fun i => (i + 1, stageFile moduleDir (i + 1)) := by
  refine List.ext_getElem? fun i => ?_
  simp only [numberedFiles, List.getElem?_map, List.getElem?_zipIdx, Option.map_map]
  cases h : (List.range n)[i]? with
  | none => rfl
  | some j =>
    obtain ⟨hi, rfl⟩ := List.getElem?_eq_some_iff.1 h
    simp

/-- A build goes through all files. -/
theorem gathered_buildAll (setup : StageSetup) (files : List (Path × Nat)) :
    Ends (Gathered setup []) (files.forM fun x => buildStage setup (x.2 + 1) x.1)
      (fun _ => Gathered setup (numberedFiles files)) fun _ _ => True := by
  refine Ends.forM_done (J := fun done => Gathered setup (numberedFiles done)) (fun done x => ?_)
    files []
  have hconcat : numberedFiles (done ++ [x]) = numberedFiles done ++ [(x.2 + 1, x.1)] :=
    List.map_append
  rw [hconcat]
  exact gathered_buildStage setup (x.2 + 1) x.1

theorem aiming_buildFiles (setup : StageSetup) (moduleDir : Path) (files : List Path) :
    Ends (fun b => b.device.outline.Numbered ∧ b.stages = []) (buildFiles setup moduleDir files)
      (fun _ b => b.stages ≠ [] ∧ Aiming setup (numberedFiles files.zipIdx) (b.stages.length - 1)
        b.stages.length b)
      fun _ _ => True := by
  refine Ends.bind ((gathered_buildAll setup files.zipIdx).weaken ?_ (fun _ _ h => h)
    fun _ _ h => h) fun _ => ?_
  · intro b hb
    have hnone : ∀ st ∈ b.stages, False := by simp [hb.2]
    exact ⟨⟨hb.1, by rw [hb.2]; rfl, fun st hst => (hnone st hst).elim⟩,
      fun st hst => (hnone st hst).elim⟩
  refine Ends.get_bind fun b hb => ?_
  have hstart : Aiming setup (numberedFiles files.zipIdx) 0 b.stages.length b :=
    ⟨hb.toListed, fun i st hst => ⟨fun hi => absurd hi (Nat.not_lt_zero i), fun _ =>
      hb.bare st (List.mem_of_getElem? hst)⟩, rfl⟩
  dsimp only
  split
  · exact Ends.throw_bind fun _ _ => trivial
  · next hempty =>
    refine aiming_attachTargets.weaken (by rintro _ rfl; exact hstart) (fun _ t ht => ?_)
      fun _ _ h => h
    have hne : b.stages ≠ [] := fun hnil => hempty (List.isEmpty_iff.2 hnil)
    rw [ht.length]
    exact ⟨fun hnil => hne (List.length_eq_zero_iff.1 (by rw [← ht.length, hnil]; rfl)), ht⟩

/-- **A module that is built has its active stages.** -/
theorem active_buildStages (setup : StageSetup) {device : HeadlessBackend}
    (hdevice : device.outline.Numbered) (moduleDir : Path) :
    Ends (fun d => d = device) (buildStages setup moduleDir)
      (fun stages d => ∃ n, Active setup moduleDir n d stages) fun _ _ => True := by
  intro d hd log
  rw [hd]
  obtain ⟨n, hrun, hfiles⟩ := stageFiles_eq setup.files moduleDir
  have hnumbers := numberedFiles_stageFiles moduleDir n
  rw [← hfiles] at hnumbers
  have hend := aiming_buildFiles setup moduleDir (stageFiles setup.files moduleDir)
    (show ({ device } : Building HeadlessBackend).device.outline.Numbered ∧ _ from ⟨hdevice, rfl⟩) log
  unfold buildStages
  dsimp only
  by_cases hempty : (stageFiles setup.files moduleDir).isEmpty = true
  · rw [if_pos hempty]
    trivial
  · rw [if_neg hempty]
    rcases hb : buildFiles setup moduleDir (stageFiles setup.files moduleDir) { device } log
      with ⟨⟨e | u, b⟩, log'⟩
    · trivial
    · rw [hb] at hend
      obtain ⟨hne, haiming⟩ := hend
      refine ⟨n, hrun, ?_, hne, haiming.made, haiming.targeted⟩
      rw [← hnumbers]
      exact haiming.files

end AudioShader
