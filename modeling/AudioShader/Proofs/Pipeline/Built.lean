/-
# Pipelines as they are built

A pipeline that is built on a headless backend has the active stages of its
module, and no two of its handles are the same: the placeholder, the textures
for audio and those of the targets are different textures. What a draw records
of a stage is told by the values that the stage got last.

Key definitions: `Pipeline.Separate`, `Working`.
Key theorems: `active_of_build`, `separate_of_build`, `ShaderStage.Shows.uniform?`,
`ShaderStage.Shows.of_mem_sampled`, `ends_renderTick_working`.
-/
import AudioShader.Proofs.Graphics.Live
import AudioShader.Proofs.Pipeline.Shown
import AudioShader.Proofs.Stage.Active

namespace AudioShader

open AudioShader.Action (Ends Stays Gives)

/-! ### The stages -/

theorem Active.congr {setup : StageSetup} {moduleDir : Path} {n : Nat} {d d' : HeadlessBackend}
    {stages : List ShaderStage} (h : Active setup moduleDir n d stages)
    (hprograms : d'.programs = d.programs) (htargets : d'.targets = d.targets) :
    Active setup moduleDir n d' stages :=
  { h with
    made := h.made.grow fun id p hp => by rw [hprograms]; exact hp
    targeted := fun i st hst => by rw [htargets]; exact h.targeted i st hst }

/-- Making a pipeline of stages changes neither the programs nor the targets. -/
theorem ends_ofStages_unseen (device : HeadlessBackend) (stages : List ShaderStage)
    (settings : PipelineSettings) (externals : ExternalValues) :
    Ends (fun d => d = device) (Pipeline.ofStages stages settings externals)
      (fun p d => device.Unseen d ∧ p.stages = stages ∧ p.externals = externals)
      fun _ _ => True := by
  have hclosed (c c' : HeadlessBackend) (hc : c.Unseen c') (h : device.Unseen c) :
      device.Unseen c' := h.trans hc
  refine Ends.bind (R := fun _ => device.Unseen) (Ends.attempt
    ((HeadlessBackend.stays_addTexture hclosed _).weaken ?_ (fun _ _ h => h) fun _ _ h => h))
    fun created => ?_
  · rintro _ rfl
    exact .refl _
  cases created with
  | error e => exact Ends.bind (R := fun _ _ => True) (Ends.modify fun _ _ => trivial) fun _ =>
      Ends.throw fun _ _ => trivial
  | ok placeholder =>
    dsimp only
    split
    · exact Ends.record_bind (Ends.pure fun d hd => ⟨hd, rfl, rfl⟩)
    · exact Ends.pure fun d hd => ⟨hd, rfl, rfl⟩

/-- A pipeline that is built has the active stages of its module. -/
theorem active_of_build {setup : StageSetup} {moduleDir : Path} {externals : ExternalValues}
    {device device' : HeadlessBackend} (hdevice : device.outline.Numbered) {p : Pipeline}
    (h : Gives (Pipeline.build setup moduleDir externals) device p device') :
    (∃ n, Active setup moduleDir n device' p.stages) ∧ p.externals = externals := by
  obtain ⟨stages, d, hstages, hp⟩ := Gives.bind h
  obtain ⟨n, hactive⟩ := (active_buildStages setup hdevice moduleDir).gives rfl hstages
  obtain ⟨hunseen, rfl, hexternals⟩ :=
    (ends_ofStages_unseen d stages setup.settings externals).gives rfl hp
  exact ⟨⟨n, hactive.congr hunseen.programs hunseen.targets⟩, hexternals⟩

/-! ### The handles -/

/-- The textures that audio is uploaded to for a stage. -/
def ShaderStage.audioTextures (st : ShaderStage) : List TextureId := st.bindings.filterMap (·.texture)

/-- No two handles of a pipeline are the same. -/
structure Pipeline.Separate (p : Pipeline) : Prop where
  programs : (p.stages.map (·.program)).Nodup
  targets : (p.stages.filterMap (·.target)).Nodup
  textures : (p.stages.flatMap ShaderStage.audioTextures ++ [p.placeholder] ++
    p.stages.filterMap (·.output)).Nodup

/-- Handles of one kind that stages hold are those of each stage. -/
theorem perm_filterMap_heldBy {γ : Type} {f : Handle → Option γ} {g : ShaderStage → List γ}
    (hst : ∀ st : ShaderStage, (st.handles.filterMap f).Perm (g st)) :
    ∀ stages : List ShaderStage, ((heldBy stages).filterMap f).Perm (stages.flatMap g)
  | [] => .refl _
  | st :: stages => by
    have hcons : heldBy (st :: stages) = heldBy stages ++ st.handles := by
      rw [← List.singleton_append, heldBy_append, heldBy_singleton]
    rw [hcons, List.filterMap_append, List.flatMap_cons]
    exact ((perm_filterMap_heldBy hst stages).append (hst st)).trans List.perm_append_comm

theorem filterMap_handles (x : UniformBinding) :
    x.handles.filterMap Handle.program? = [] ∧ x.handles.filterMap Handle.target? = [] ∧
      x.handles.filterMap Handle.texture? = x.texture.toList := by
  unfold UniformBinding.handles
  cases x.offload <;> cases x.texture <;> exact ⟨rfl, rfl, rfl⟩

namespace ShaderStage

/-- Handles of one kind that a stage holds are those of its bindings and its own. -/
theorem filterMap_handles_perm {γ : Type} (f : Handle → Option γ) (st : ShaderStage) :
    (st.handles.filterMap f).Perm (st.bindings.flatMap (fun x => x.handles.filterMap f) ++
      ((st.target.map Handle.target).toList ++ [Handle.program st.program]).filterMap f) := by
  rw [handles, List.filterMap_append, List.filterMap_flatMap]
  exact (st.bindings.reverse_perm.flatMap_right _).append_right _

theorem perm_programs (st : ShaderStage) :
    (st.handles.filterMap Handle.program?).Perm [st.program] := by
  refine (st.filterMap_handles_perm _).trans (.of_eq ?_)
  have hnone : (st.bindings.flatMap fun x => x.handles.filterMap Handle.program?) = [] :=
    List.flatMap_eq_nil_iff.2 fun x _ => (filterMap_handles x).1
  rw [hnone]
  cases st.target <;> rfl

theorem perm_targets (st : ShaderStage) :
    (st.handles.filterMap Handle.target?).Perm st.target.toList := by
  refine (st.filterMap_handles_perm _).trans (.of_eq ?_)
  have hnone : (st.bindings.flatMap fun x => x.handles.filterMap Handle.target?) = [] :=
    List.flatMap_eq_nil_iff.2 fun x _ => (filterMap_handles x).2.1
  rw [hnone]
  cases st.target <;> rfl

theorem perm_audioTextures (st : ShaderStage) :
    (st.handles.filterMap Handle.texture?).Perm st.audioTextures := by
  refine (st.filterMap_handles_perm _).trans (.of_eq ?_)
  have hown : ((st.target.map Handle.target).toList ++ [Handle.program st.program]).filterMap
      Handle.texture? = [] := by
    cases st.target <;> rfl
  rw [hown, List.append_nil, audioTextures, List.filterMap_eq_flatMap_toList]
  exact List.flatMap_congr fun x _ => (filterMap_handles x).2.2

end ShaderStage

/-- What a device holds for a pipeline keeps its handles apart. -/
theorem separate_of_held {o₀ : Outline} {d : HeadlessBackend} {p : Pipeline} {k : Nat}
    (htargeted : Targeted d k p.stages) (h : HeadlessBackend.Holds o₀ p.handles d) : p.Separate := by
  have hprograms : (p.handles.filterMap Handle.program?).Perm (p.stages.map (·.program)) := by
    rw [Pipeline.handles, List.filterMap_append, List.map_eq_flatMap]
    refine (List.Perm.of_eq (List.append_nil _)).trans ?_
    exact perm_filterMap_heldBy ShaderStage.perm_programs p.stages
  have htargets : (p.handles.filterMap Handle.target?).Perm (p.stages.filterMap (·.target)) := by
    rw [Pipeline.handles, List.filterMap_append, p.stages.filterMap_eq_flatMap_toList]
    refine (List.Perm.of_eq (List.append_nil _)).trans ?_
    exact perm_filterMap_heldBy ShaderStage.perm_targets p.stages
  have htextures : (p.handles.filterMap Handle.texture?).Perm
      (p.stages.flatMap ShaderStage.audioTextures ++ [p.placeholder]) := by
    rw [Pipeline.handles, List.filterMap_append]
    exact (perm_filterMap_heldBy ShaderStage.perm_audioTextures p.stages).append_right _
  -- the textures of the targets are the outputs
  have houtputs : ((p.handles.filterMap Handle.target?).filterMap d.targets.get?).Perm
      (p.stages.filterMap (·.output)) := by
    refine (htargets.filterMap _).trans (.of_eq ?_)
    rw [List.filterMap_filterMap]
    refine List.filterMap_congr fun st hst => ?_
    obtain ⟨i, hi⟩ := List.mem_iff_getElem?.1 hst
    obtain ⟨hbefore, hbehind⟩ := htargeted i st hi
    rcases Nat.lt_or_ge i k with hlt | hge
    · obtain ⟨target, output, ht, ho, hget⟩ := hbefore hlt
      rw [ht, ho, Option.bind_some, hget]
    · rw [(hbehind hge).1, (hbehind hge).2, Option.bind_none]
  have hkeys : d.outline.targets.get? = d.targets.get? := rfl
  refine ⟨?_, ?_, ?_⟩
  · have hnodup := h.programs.nodup_iff.1 (Registry.nodup_keys _)
    exact hprograms.nodup_iff.1 (List.Nodup.of_append_left hnodup)
  · have hnodup := h.targets.nodup_iff.1 (Registry.nodup_keys _)
    exact htargets.nodup_iff.1 (List.Nodup.of_append_left hnodup)
  · have hnodup := h.textures.nodup_iff.1 (Registry.nodup_keys _)
    rw [← List.append_assoc, hkeys] at hnodup
    exact (htextures.append houtputs).nodup_iff.1 (List.Nodup.of_append_left hnodup)

/-- The handles of a pipeline that is built are different. -/
theorem separate_of_build {setup : StageSetup} {moduleDir : Path} {externals : ExternalValues}
    {device device' : HeadlessBackend} (hdevice : device.outline.Numbered) {p : Pipeline}
    (h : Gives (Pipeline.build setup moduleDir externals) device p device') : p.Separate := by
  obtain ⟨⟨n, hactive⟩, -⟩ := active_of_build hdevice h
  have hheld : HeadlessBackend.Holds device.outline p.handles device' :=
    ((HeadlessBackend.custody device.outline).ends_build setup moduleDir externals).gives
      (Outline.Held.refl hdevice) h
  exact separate_of_held hactive.targeted hheld

/-! ### Records of stages -/

section Records

variable {setup : StageSetup} {p : Program} {uniforms : List UniformRequest} {d : HeadlessBackend}
  {st : ShaderStage}

/-- A program that was scanned declares each name once. -/
theorem ShaderStage.MadeAs.nodup (h : st.MadeAs setup p uniforms d) :
    (p.slots.map (·.name)).Nodup := (declares_of_scanFragment h.scanned).nodup

variable {proper : ShaderStage → Assignment → Prop} {t : TickInput} {previous : Option TextureId}
  {record : DrawRecord}

namespace ShaderStage.Shows

/-- A draw is recorded under the name of its stage. -/
theorem label (h : st.Shows proper d t previous record) (hst : st.MadeAs setup p uniforms d) :
    record.program = st.program ∧ record.label = s!"stage {st.ordinal}" ∧
      record.target = st.target := by
  obtain ⟨q, as, hq, -, -, rfl⟩ := h
  cases hq.symm.trans hst.program
  refine ⟨rfl, ?_, rfl⟩
  show (p.fill _).label = _
  rw [Program.label_fill, hst.label]

/-- **A uniform that gets one value in a tick is drawn with that value**, whatever
it was given before. -/
theorem uniform? (h : st.Shows proper d t previous record) (hst : st.MadeAs setup p uniforms d)
    {name : String} {l : UniformLocation} (hplace : p.place? name = some l) {v : UniformValue}
    (hv : lastAt l (st.assignments t previous) = some v) : record.uniform? name = some v := by
  obtain ⟨q, as, hq, -, -, rfl⟩ := h
  cases hq.symm.trans hst.program
  obtain ⟨slot, hslot, -, rfl⟩ := Program.slot_of_place? hplace
  refine Program.uniform?_record_fill hst.nodup hslot ?_ _ _
  rw [lastAt_append, hv, Option.some_or]

/-- What a draw reads from was given to the stage by some tick. -/
theorem of_mem_sampled (h : st.Shows proper d t previous record)
    (hst : st.MadeAs setup p uniforms d) {texture : TextureId} (htexture : texture ∈ record.sampled) :
    ∃ a, proper st a ∧ a.value = .texture texture := by
  obtain ⟨q, as, hq, hproper, -, rfl⟩ := h
  cases hq.symm.trans hst.program
  obtain ⟨u, hu, hvalue⟩ := Program.mem_sampled_record htexture
  obtain ⟨i, hi⟩ := List.mem_iff_getElem?.1 hu
  have hfill := p.getElem?_fill (as ++ st.assignments t previous) ⟨i⟩
  rw [hi] at hfill
  obtain ⟨u₀, hu₀, rfl⟩ := Option.map_eq_some_iff.1 hfill.symm
  have hnone := value_of_scanFragment hst.scanned u₀ (List.mem_of_getElem? hu₀)
  dsimp only at hvalue
  rw [hnone, Option.or_none] at hvalue
  exact ⟨_, hproper _ (mem_of_lastAt hvalue), rfl⟩

end ShaderStage.Shows

end Records
/-! ### At work -/

/-- A rendering of a pipeline `p` that was built on a device `d`: beyond what its
programs were made with they hold proper values only, and the values from
outside are as `I` says. -/
structure Working (proper : ShaderStage → Assignment → Prop) (d : HeadlessBackend) (p : Pipeline)
    (I : ExternalValues → Prop) (r : Rendering HeadlessBackend) : Prop
    extends Staged proper d p.stages p.placeholder r where
  externals : I r.pipeline.externals

section Working

variable {proper : ShaderStage → Assignment → Prop} {d : HeadlessBackend} {p : Pipeline}
  {I : ExternalValues → Prop} {r : Rendering HeadlessBackend}

/-- A pipeline that was just built. -/
theorem Active.working {setup : StageSetup} {moduleDir : Path} {n : Nat}
    (h : Active setup moduleDir n d p.stages) (hI : I p.externals) (audio : SharedAudio Float32) :
    Working proper d p I { device := d, audio, pipeline := p } := by
  have hpainted : Painted proper p.stages d d := by
    refine ⟨rfl, fun st hst => ?_⟩
    obtain ⟨q, uniforms, hmade⟩ := h.made st hst
    exact ⟨q, [], hmade.program, hmade.program, nofun⟩
  exact ⟨⟨hpainted, rfl, rfl⟩, hI⟩

/-- What a tick that succeeds adds; it leaves the values from outside as they are. -/
theorem ends_renderTick_working (hprograms : (p.stages.map (·.program)).Nodup)
    (hr : Working proper d p I r) {seconds : Float32}
    (hproper : Properly proper (r.tickInput seconds) none p.stages) :
    Ends (fun r' => r' = r) (renderTick seconds)
      (fun _ r' => Working proper d p I r' ∧ ∃ records,
        r'.device.draws.toList = r.device.draws.toList ++ records ∧
        Shown proper d (r.tickInput seconds) none p.stages records)
      fun _ r' => Working proper d p I r' := by
  have hkept (r' : Rendering HeadlessBackend) (h : Staged proper d p.stages p.placeholder r' ∧
      r'.pipeline.externals = r.pipeline.externals) : Working proper d p I r' := by
    refine { h.1 with externals := ?_ }
    rw [h.2]
    exact hr.externals
  exact (ends_renderTick_shown hprograms hr.toStaged hproper).weaken (fun _ h => h)
    (fun _ r' h => ⟨hkept r' h.1, h.2⟩) fun _ r' h => hkept r' h

theorem stays_renderTick_working (hprograms : (p.stages.map (·.program)).Nodup) {seconds : Float32}
    (hproper : ∀ r, Working proper d p I r → Properly proper (r.tickInput seconds) none p.stages) :
    Stays (Working proper d p I) (renderTick seconds) :=
  Ends.of_forall fun r hr => (ends_renderTick_working hprograms hr (hproper r hr)).weaken
    (fun _ h => h) (fun _ _ h => h.1) fun _ _ h => h

/-- Work changes no place: what a program uses is what it used at first. -/
theorem Working.exists_place (h : Working proper d p I r) {setup : StageSetup} {q : Program}
    {uniforms : List UniformRequest} {st : ShaderStage} (hst : st ∈ p.stages)
    (hmade : st.MadeAs setup q uniforms d) {name : String}
    (hused : (r.device.uniformLocation? st.program name).isSome = true) :
    ∃ l, q.place? name = some l := by
  obtain ⟨q', given, hq', hgiven, -⟩ := h.painted.programs st hst
  cases hq'.symm.trans hmade.program
  rw [HeadlessBackend.uniformLocation?_eq hgiven, Program.place?_fill] at hused
  exact Option.isSome_iff_exists.1 hused

end Working

end AudioShader
