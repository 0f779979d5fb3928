/-
# Stages that ticks can draw

A build on a headless backend leaves stages for which all is there that a tick
asks for: programs, targets and textures, a place for each uniform that is used,
and for each declaration from outside a place of its own type. Only the types of
the other uniforms are not looked at.

Key definitions: `UniformBinding.Sound`, `ShaderStage.Sound`.
Key theorems: `Building.sound_attachUniform`, `sound_buildStage`, `sound_buildStages`.
-/
import AudioShader.Proofs.Graphics.Growth
import AudioShader.Proofs.Stage.Attach
import AudioShader.Proofs.Stage.Declared
import AudioShader.Proofs.Stage.Sources

namespace AudioShader

open AudioShader.Action (Ends Stays Gives)

/-- For a uniform of a program all is there that a tick asks for, with buffers of
`len` samples. -/
structure UniformBinding.Sound (o : Outline) (len : Nat) (program : ProgramId)
    (x : UniformBinding) : Prop where
  source : x.source ∈ BindSource.catalog
  texture : x.source.kind.isAudio = true → ∃ t, x.texture = some t ∧ o.Takes t len
  offload : x.mode.isOffloaded = true → ∃ id, x.offload = some id ∧ o.Runs id len
  place : ∀ l, x.location = some l → ∃ slot, o.slot? program l = some slot ∧ slot.active = true

/-- A place in a program for the value of a declaration from outside. -/
def Outline.HasExternal (o : Outline) (binds : List BindDecl) (program : ProgramId)
    (e : Nat × UniformLocation) : Prop :=
  ∃ d slot, binds[e.1]? = some d ∧ o.slot? program e.2 = some slot ∧ slot.active = true ∧
    slot.type = .ofBind d.type

/-- For a stage all is there that a tick asks for. -/
structure ShaderStage.Sound (o : Outline) (len : Nat) (binds : List BindDecl) (st : ShaderStage) :
    Prop where
  program : st.program ∈ o.programs.keys
  bindings : ∀ x ∈ st.bindings, x.Sound o len st.program
  externals : ∀ e ∈ st.externals, o.HasExternal binds st.program e
  target : ∀ t, st.target = some t → t ∈ o.targets.keys
  output : ∀ t, st.output = some t → t ∈ o.textures.keys

namespace Outline.Grows

variable {o o' : Outline} {len : Nat} {binds : List BindDecl}

theorem sound_binding (h : o.Grows o') {program : ProgramId} {x : UniformBinding}
    (hx : x.Sound o len program) : x.Sound o' len program where
  source := hx.source
  texture haudio := by
    obtain ⟨t, ht, htakes⟩ := hx.texture haudio
    exact ⟨t, ht, h.takes htakes⟩
  offload hmode := by
    obtain ⟨id, hid, hruns⟩ := hx.offload hmode
    exact ⟨id, hid, h.runs hruns⟩
  place l hl := by
    obtain ⟨slot, hslot, hactive⟩ := hx.place l hl
    exact ⟨slot, h.slot? hslot, hactive⟩

theorem sound_stage (h : o.Grows o') {st : ShaderStage} (hst : st.Sound o len binds) :
    st.Sound o' len binds where
  program := h.mem_programs hst.program
  bindings x hx := h.sound_binding (hst.bindings x hx)
  externals e he := by
    obtain ⟨d, slot, hd, hslot, hrest⟩ := hst.externals e he
    exact ⟨d, slot, hd, h.slot? hslot, hrest⟩
  target t ht := h.mem_targets (hst.target t ht)
  output t ht := h.mem_textures (hst.output t ht)

end Outline.Grows

namespace Building

/-- All stages of a build so far are sound. -/
structure Sound (len : Nat) (binds : List BindDecl) (b : Building HeadlessBackend) : Prop where
  numbered : b.device.outline.Numbered
  stages : ∀ st ∈ b.stages, st.Sound b.device.outline len binds

variable {len : Nat} {binds : List BindDecl} {b : Building HeadlessBackend}

/-- Stages stay sound on a device that has more. -/
theorem Sound.grow (h : Sound len binds b) {d : HeadlessBackend} (hnumbered : d.outline.Numbered)
    (hgrows : b.device.outline.Grows d.outline) : Sound len binds { b with device := d } :=
  ⟨hnumbered, fun st hst => hgrows.sound_stage (h.stages st hst)⟩

/-- A stage changes to another sound one. -/
theorem Sound.edited (h : Sound len binds b) {index : Nat} {f : ShaderStage → ShaderStage}
    (hf : ∀ st, b.stages[index]? = some st → st.Sound b.device.outline len binds →
      (f st).Sound b.device.outline len binds) :
    Sound len binds { b with stages := b.stages.modify index f } :=
  ⟨h.numbered, forall_mem_modify h.stages fun st hst =>
    hf st hst (h.stages st (List.mem_of_getElem? hst))⟩

/-! ### Uniforms -/

/-- A build in which uniforms are bound to a stage of a program. -/
structure Attaching (len : Nat) (binds : List BindDecl) (index : Nat) (program : ProgramId)
    (slots : List ProgramSlot) (b : Building HeadlessBackend) : Prop extends Sound len binds b where
  stage : ∀ st, b.stages[index]? = some st → st.program = program
  slots : b.device.outline.programs.get? program = some slots

variable {index ordinal : Nat} {program : ProgramId} {slots : List ProgramSlot}

/-- A uniform that is asked for from the catalog becomes a sound binding. -/
theorem sound_attachUniform {settings : PipelineSettings}
    (hlen : isBufferLength settings.bufferSize = true) {u : UniformRequest}
    (hsource : u.source ∈ BindSource.catalog) :
    Ends (Attaching settings.bufferSize binds index program slots)
      (attachUniform settings index ordinal program u)
      (fun _ => Attaching settings.bufferSize binds index program slots) fun _ _ => True := by
  refine Ends.of_forall fun b hb => ?_
  -- what the device has behind a call, it had before or was made by the call
  let Grown : HeadlessBackend → Prop := fun d =>
    d.outline.Numbered ∧ b.device.outline.Grows d.outline
  let T : Option TextureId → HeadlessBackend → Prop := fun texture d =>
    Grown d ∧ (u.source.kind.isAudio = true →
      ∃ t, texture = some t ∧ d.outline.Takes t settings.bufferSize)
  let R : UniformBinding → HeadlessBackend → Prop := fun x d =>
    Grown d ∧ x.Sound d.outline settings.bufferSize program
  have hsound : ∀ texture offload d, T texture d →
      ((u.mode settings b.device).isOffloaded = true →
        ∃ id, offload = some id ∧ d.outline.Runs id settings.bufferSize) →
      R (u.binding settings program b texture offload) d := by
    intro texture offload d hd hoffload
    refine ⟨hd.1, hsource, hd.2, hoffload, fun l hl => ?_⟩
    obtain ⟨slot, hslot, hactive, -⟩ := HeadlessBackend.slot?_of_uniformLocation? hl
    exact ⟨slot, hd.1.2.slot? hslot, hactive⟩
  refine (ends_attachUniform (T := T) (R := R) (E := fun _ _ => True) (fun _ => ?_) (fun hno => ?_)
    (fun hcpu texture d hd => ?_) (fun lead tail _ texture => ?_)).weaken (fun _ h => h) ?_
    fun _ _ _ => trivial
  · refine (HeadlessBackend.ends_addAudioTexture b.device _).weaken (fun _ h => h) ?_
      fun _ _ _ => trivial
    rintro _ d ⟨rfl, hd⟩
    have hnumbered := hb.numbered.addTexture (.audio settings.bufferSize)
    have hgrows := hb.numbered.grows_addTexture (.audio settings.bufferSize)
    rw [← hd] at hnumbered hgrows
    exact ⟨⟨hnumbered, hgrows⟩, fun _ => ⟨_, rfl, hd ▸ Outline.takes_addTexture ..⟩⟩
  · exact ⟨⟨hb.numbered, .refl _⟩, fun haudio => by rw [hno] at haudio; cases haudio⟩
  · exact hsound texture none d hd fun hmode => by rw [hcpu] at hmode; cases hmode
  · refine Ends.of_forall fun d hd => ?_
    refine (HeadlessBackend.ends_addOffload d tail settings.params).weaken (fun _ h => h) ?_
      fun _ _ _ => trivial
    rintro _ d' ⟨rfl, hd'⟩
    have hnumbered := hd.1.1.addOffload (OffloadPasses.new tail settings.params).shape
    have hgrows := hd.1.1.grows_addOffload (OffloadPasses.new tail settings.params).shape
    rw [← hd'] at hnumbered hgrows
    refine hsound texture (some _) d' ⟨⟨hnumbered, hd.1.2.trans hgrows⟩, fun haudio => ?_⟩
      fun _ => ⟨_, rfl, hd' ▸ Outline.runs_addOffload _ _ hlen⟩
    obtain ⟨t, ht, htakes⟩ := hd.2 haudio
    exact ⟨t, ht, hgrows.takes htakes⟩
  · rintro _ t ⟨x, ⟨⟨hnumbered, hgrows⟩, hx⟩, hstages⟩
    obtain ⟨device, stages, next⟩ := t
    obtain rfl : stages = b.stages.modify index (pushed x) := hstages
    have hgrown : Sound settings.bufferSize binds
        ⟨device, b.stages.modify index (pushed x), b.nextBinding⟩ :=
      (hb.toSound.grow hnumbered hgrows).edited fun st hst hsound => ?_
    · refine ⟨⟨hgrown.numbered, hgrown.stages⟩, fun st hst => ?_, hgrows.programs hb.slots⟩
      rw [List.getElem?_modify_eq] at hst
      obtain ⟨st', hst', rfl⟩ := Option.map_eq_some_iff.1 hst
      exact hb.stage st' hst'
    · refine { hsound with bindings := fun y hy => ?_ }
      rcases List.mem_append.1 hy with hy | hy
      · exact hsound.bindings y hy
      · rw [List.mem_singleton.1 hy]
        exact (hb.stage st hst).symm ▸ hx

/-- The places of declarations from outside are theirs by name, and so by type. -/
theorem hasExternal_of_mem {setup : StageSetup} {device : HeadlessBackend}
    (hslots : device.outline.programs.get? program = some slots)
    (hdeclares : Declares slots (bindDeclarations setup.binds)) {e : Nat × UniformLocation}
    (he : e ∈ usedExternals device program setup.binds) :
    device.outline.HasExternal setup.binds program e := by
  obtain ⟨⟨d, i⟩, hmem, he⟩ := List.mem_filterMap.1 he
  obtain ⟨l, hl, rfl⟩ := Option.map_eq_some_iff.1 he
  have hd : setup.binds[i]? = some d := List.mk_mem_zipIdx_iff_getElem?.1 hmem
  obtain ⟨slot, hslot, hactive, hname⟩ := HeadlessBackend.slot?_of_uniformLocation? hl
  have hin : slot ∈ slots := by
    rw [Outline.slot?, hslots, Option.bind_some] at hslot
    exact List.mem_of_getElem? hslot
  exact ⟨d, slot, hd, hslot, hactive,
    hdeclares.type_eq (List.mem_map_of_mem (List.mem_of_getElem? hd)) hin hname⟩

theorem sound_attachAll {setup : StageSetup} (hlen : isBufferLength setup.settings.bufferSize = true)
    {uniforms : List UniformRequest} (hsource : ∀ u ∈ uniforms, u.source ∈ BindSource.catalog)
    (hdeclares : Declares slots (bindDeclarations setup.binds)) :
    Ends (Attaching setup.settings.bufferSize setup.binds index program slots)
      (attachAll setup index ordinal program uniforms)
      (fun _ => Sound setup.settings.bufferSize setup.binds) fun _ _ => True := by
  -- the requests still to come are requests of the stage
  let I : List UniformRequest → Building HeadlessBackend → Prop := fun more b =>
    (∀ u ∈ more, u ∈ uniforms) ∧
      Attaching setup.settings.bufferSize setup.binds index program slots b
  refine Ends.bind (Ends.weaken (Ends.forM (I := I) (fun u more => ?_) uniforms)
    (fun b hb => ⟨fun _ h => h, hb⟩) (fun _ _ h => h) fun _ _ h => h) fun _ => ?_
  · refine Ends.of_forall fun b hb => ?_
    refine (sound_attachUniform hlen (hsource u (hb.1 u (List.mem_cons_self ..)))).weaken
      (by rintro _ rfl; exact hb.2) (fun _ b' hb' => ⟨fun v hv => ?_, hb'⟩) fun _ _ h => h
    exact hb.1 v (List.mem_cons_of_mem u hv)
  · refine Ends.get_bind fun b hb => Ends.modify ?_
    rintro _ rfl
    refine hb.2.toSound.edited fun st hst hsound => { hsound with externals := fun e he => ?_ }
    rw [hb.2.stage st hst]
    exact hasExternal_of_mem hb.2.slots hdeclares he

end Building

open Building

/-! ### Stages -/

section Stages

variable {setup : StageSetup}

/-- A stage that is processed asks for sources of the catalog, and its text starts
with the header. -/
theorem catalogued_processStage (path : Path) (P : Building HeadlessBackend → Prop) :
    Ends P (processStage setup path)
      (fun processed b => P b ∧ (∀ u ∈ processed.2, u.source ∈ BindSource.catalog) ∧
        ∃ plain : ProcessedSource,
          processed.1 = plain.withLead (stageHeader setup.settings setup.binds))
      fun _ _ => True := by
  unfold processStage
  split
  · exact Ends.throw fun _ _ => trivial
  · next unit _ =>
    intro b hb log
    have hmem {log source context log'} (h : setup.process (setup.equip unit) setup.context log =
        ((.ok source, context), log')) :=
      mem_catalog_of_process (⟨log, log', h⟩ :
        Gives (setup.process (setup.equip unit)) setup.context source context)
    rw [Action.bind_apply]
    unfold Action.mapError Action.ofLogged Action.from?
    rcases h : setup.process (setup.equip unit) setup.context log with ⟨⟨e | source, context⟩, log'⟩
    · trivial
    · exact ⟨hb, hmem h⟩

/-- A stage that is compiled is a program that declares its binds. -/
theorem sound_compileStage {len : Nat} {binds : List BindDecl} {b : Building HeadlessBackend}
    (hb : Building.Sound len binds b)
    (hbinds : ∀ b ∈ setup.binds, ∀ c ∈ b.name.toList, Text.isNameChar c = true)
    (ordinal : Nat) (path : Path) {source plain : ProcessedSource}
    (hsource : source = plain.withLead (stageHeader setup.settings setup.binds)) :
    Ends (fun t => t = b) (compileStage ordinal path source)
      (fun program? t => Building.Sound len binds t ∧ t.stages = b.stages ∧
        ∀ program, program? = some program → ∃ slots,
          t.device.outline.programs.get? program = some slots ∧
          Declares slots (bindDeclarations setup.binds))
      fun _ _ => True := by
  have hnone : ∀ d, d = b.device → Building.Sound len binds { b with device := d } :=
    fun d hd => hd ▸ hb
  refine Ends.bind (R := fun compiled t => ∃ d, t = { b with device := d } ∧
    Building.Sound len binds t ∧ ∀ program, compiled.toOption = some program → ∃ slots,
      d.outline.programs.get? program = some slots ∧
      Declares slots (bindDeclarations setup.binds)) (Ends.attempt ?_) fun compiled => ?_
  · refine (ends_onDevice (HeadlessBackend.ends_compileProgram b.device _ _)).weaken (fun _ h => h)
      ?_ ?_
    · rintro program t ⟨d, rfl, rfl, uniforms, hscan, hd⟩
      have hnumbered := hb.numbered.addProgram (uniforms.map Declared.slot)
      have hgrows := hb.numbered.grows_addProgram (uniforms.map Declared.slot)
      rw [← hd] at hnumbered hgrows
      refine ⟨d, rfl, hb.grow hnumbered hgrows, ?_⟩
      rintro _ ⟨⟩
      rw [hsource] at hscan
      refine ⟨_, ?_, declares_stage hbinds hscan⟩
      rw [hd]
      exact Registry.get?_put_self ..
    · rintro e t ⟨d, rfl, hd⟩
      exact ⟨d, rfl, hnone d hd, by rintro _ ⟨⟩⟩
  · split
    · refine Ends.record_bind (Ends.pure ?_)
      rintro _ ⟨d, rfl, hsound, hprogram⟩
      exact ⟨hsound, rfl, fun program h => hprogram program h⟩
    · split
      · refine Ends.record_bind (Ends.pure ?_)
        rintro _ ⟨d, rfl, hsound, -⟩
        exact ⟨hsound, rfl, by rintro _ ⟨⟩⟩
      · exact Ends.throw fun _ _ => trivial
    · exact Ends.throw fun _ _ => trivial

/-- A stage gets a target that the device has, and its texture. -/
theorem sound_attachTarget {len : Nat} {binds : List BindDecl} (size : Nat × Nat) (index : Nat) :
    Ends (Building.Sound len binds) (attachTarget size index)
      (fun _ => Building.Sound len binds) fun _ _ => True := by
  refine Ends.of_forall fun b hb => ?_
  refine Ends.bind (R := fun target t => Building.Sound len binds t ∧
    t.device.outline = b.device.outline.addTarget (Texture.zeros size.1 size.2 4).extent ∧
    target = ⟨b.device.outline.next + 1⟩)
    ((ends_onDevice (HeadlessBackend.ends_addTarget b.device size.1 size.2
      (E := fun _ _ => True))).weaken (fun _ h => h) ?_ fun _ _ _ => trivial) fun target => ?_
  · rintro target t ⟨d, rfl, rfl, hd⟩
    have hnumbered := hb.numbered.addTarget (Texture.zeros size.1 size.2 4).extent
    have hgrows := hb.numbered.grows_addTarget (Texture.zeros size.1 size.2 4).extent
    rw [← hd] at hnumbered hgrows
    exact ⟨hb.grow hnumbered hgrows, hd, rfl⟩
  have htarget {o : Outline}
      (ho : o = b.device.outline.addTarget (Texture.zeros size.1 size.2 4).extent) :
      o.targets.get? ⟨b.device.outline.next + 1⟩ = some ⟨b.device.outline.next⟩ ∧
        ⟨b.device.outline.next⟩ ∈ o.textures.keys := by
    rw [ho]
    exact ⟨Registry.get?_put_self .., Registry.mem_keys_of_get? (Registry.get?_put_self ..)⟩
  refine Ends.bind (R := fun _ t => Building.Sound len binds t ∧
    t.device.outline = b.device.outline.addTarget (Texture.zeros size.1 size.2 4).extent ∧
    target = ⟨b.device.outline.next + 1⟩) (Ends.modify ?_) fun _ => ?_
  · rintro t ⟨ht, ho, rfl⟩
    refine ⟨ht.edited fun st _ hst => { hst with target := ?_ }, ho, rfl⟩
    rintro _ ⟨⟩
    exact Registry.mem_keys_of_get? (htarget ho).1
  refine Ends.bind (R := fun output t => Building.Sound len binds t ∧
    output ∈ t.device.outline.textures.keys) (Ends.of_forall ?_) fun output => Ends.modify ?_
  · rintro t ⟨ht, ho, rfl⟩
    refine (ends_onDevice (HeadlessBackend.ends_textureOf t.device _)).weaken (fun _ h => h) ?_
      fun _ _ _ => trivial
    rintro output _ ⟨d, rfl, rfl, houtput⟩
    refine ⟨ht, ?_⟩
    obtain ⟨hget, hmem⟩ := htarget ho
    cases hget.symm.trans houtput
    exact hmem
  · rintro t ⟨ht, houtput⟩
    refine ht.edited fun st _ hst => { hst with output := ?_ }
    rintro _ ⟨⟩
    exact houtput

variable (hlen : isBufferLength setup.settings.bufferSize = true)
  (hbinds : ∀ b ∈ setup.binds, ∀ c ∈ b.name.toList, Text.isNameChar c = true)
include hlen hbinds

theorem sound_buildStage (ordinal : Nat) (path : Path) :
    Ends (Building.Sound setup.settings.bufferSize setup.binds) (buildStage setup ordinal path)
      (fun _ => Building.Sound setup.settings.bufferSize setup.binds) fun _ _ => True := by
  refine Ends.bind (catalogued_processStage path _) fun processed => Ends.assume ?_
  rintro ⟨hsource, plain, hplain⟩
  refine Ends.of_forall fun b hb => ?_
  refine Ends.bind (sound_compileStage hb hbinds ordinal path hplain) fun program? => ?_
  rcases program? with _ | program
  · exact Ends.pure fun _ h => h.1
  refine Ends.get_bind fun b' hb' => ?_
  obtain ⟨hsound, -, hprogram⟩ := hb'
  obtain ⟨slots, hslots, hdeclares⟩ := hprogram program rfl
  refine Ends.bind (R := fun _ => Attaching setup.settings.bufferSize setup.binds b'.stages.length
    program slots) (Ends.modify ?_) fun _ => Ends.mapError (sound_attachAll hlen hsource hdeclares)
  rintro _ rfl
  refine ⟨⟨hsound.numbered, fun st hst => ?_⟩, fun st hst => ?_, hslots⟩
  · rcases List.mem_append.1 hst with hst | hst
    · exact hsound.stages st hst
    · rw [List.mem_singleton.1 hst]
      exact ⟨Registry.mem_keys_of_get? hslots, by simp, by simp, by simp, by simp⟩
  · rw [List.getElem?_concat_length] at hst
    cases hst
    rfl

theorem sound_buildFiles (moduleDir : Path) (files : List Path) :
    Ends (Building.Sound setup.settings.bufferSize setup.binds) (buildFiles setup moduleDir files)
      (fun _ => Building.Sound setup.settings.bufferSize setup.binds) fun _ _ => True := by
  refine Ends.bind (Ends.forM (I := fun _ => Building.Sound setup.settings.bufferSize setup.binds)
    (fun x _ => sound_buildStage hlen hbinds (x.2 + 1) x.1) _) fun _ => ?_
  refine Ends.get_bind fun b hb => ?_
  have htargets : Ends (fun t => t = b) (attachTargets : Action (Building HeadlessBackend) _ _)
      (fun _ => Building.Sound setup.settings.bufferSize setup.binds) fun _ _ => True := by
    refine Ends.get_bind fun _ _ => ?_
    refine Ends.weaken (Ends.forM
      (I := fun _ => Building.Sound setup.settings.bufferSize setup.binds)
      (fun x _ => Ends.mapError (sound_attachTarget _ x.2)) _) ?_ (fun _ _ h => h) fun _ _ h => h
    rintro _ rfl
    subst_vars
    exact hb
  split
  · exact Ends.throw_bind fun _ _ => trivial
  · exact htargets

/-- The stages of a module that is built are sound. -/
theorem sound_buildStages {device : HeadlessBackend} (hdevice : device.outline.Numbered)
    (moduleDir : Path) :
    Ends (fun d => d = device) (buildStages setup moduleDir)
      (fun stages d => d.outline.Numbered ∧
        ∀ st ∈ stages, st.Sound d.outline setup.settings.bufferSize setup.binds)
      fun _ _ => True := by
  intro d hd log
  rw [hd]
  have hstart : Building.Sound setup.settings.bufferSize setup.binds
      ({ device := device } : Building HeadlessBackend) := ⟨hdevice, fun _ hst => nomatch hst⟩
  have hend := sound_buildFiles hlen hbinds moduleDir (stageFiles setup.files moduleDir) hstart log
  unfold buildStages
  dsimp only
  by_cases hfiles : (stageFiles setup.files moduleDir).isEmpty = true
  · rw [if_pos hfiles]
    trivial
  · rw [if_neg hfiles]
    rcases hb : buildFiles setup moduleDir (stageFiles setup.files moduleDir) { device := device } log
      with ⟨⟨e | u, b⟩, log'⟩
    · trivial
    · rw [hb] at hend
      exact ⟨hend.numbered, hend.stages⟩

end Stages
end AudioShader
