/-
# The life of a pipeline

From its build on a pipeline holds what was made for it, whatever ticks do and
however they end, until it is torn down and all of it is deleted.

Key definitions: `Pipeline.handles`, `Worked`, `EndsClean`.
Key theorems: `Untouched.stays_renderTick`, `Worked.untouched`, `Custody.ends_build`,
`Custody.endsClean`.
-/
import AudioShader.Proofs.Pipeline.Runs
import AudioShader.Proofs.Stage.Holdings

namespace AudioShader

open AudioShader.Action (Ends Stays)

variable {σ : Type} [GraphicsBackend σ]

/-! ### Ticks -/

section Drawing

variable {I : σ → Prop} (h : KeptByDrawing I)
include h

omit h [GraphicsBackend σ] in
theorem stays_onBackend (ordinal : Nat) {α : Type} {a : Action σ BackendError α} (ha : Stays I a) :
    Stays (fun d : Drawing σ => I d.device) (onBackend ordinal a) :=
  Stays.mapError _ (Stays.within ha (fun _ hd => hd) fun _ _ hd _ => hd)

omit h [GraphicsBackend σ] in
theorem stays_runOn (buffer : List Float32) (a : Running Float32 Unit) :
    Stays (fun d : Drawing σ => I d.device) (runOn buffer a) := by
  refine Ends.get_bind fun d hd => ?_
  refine Ends.bind (R := fun _ d => I d.device) (Ends.set fun _ _ => hd) fun _ => ?_
  split
  · exact Stays.pure _
  · exact Stays.throw _

omit h [GraphicsBackend σ] in
theorem stays_chainResult (t : TickInput) (b : UniformBinding) (input : List Float32) :
    Stays (fun d : Drawing σ => I d.device) (chainResult t b input) := by
  refine Stays.bind Stays.get fun d => ?_
  split
  · exact Stays.pure _
  · exact Stays.bind (stays_runOn _ _) fun _ => Stays.bind (Stays.modify fun _ hd => hd) fun _ =>
      Stays.pure _

omit h in
theorem stays_uploadAudio (hupload : ∀ id data, Stays I (GraphicsBackend.upload id data))
    (hrun : ∀ id input output, Stays I (GraphicsBackend.runOffload id input output))
    (t : TickInput) (ordinal : Nat) (b : UniformBinding) (texture : TextureId) (input : List Float32) :
    Stays (fun d : Drawing σ => I d.device) (uploadAudio t ordinal b texture input) := by
  unfold uploadAudio
  split
  · split
    · exact Stays.bind (Stays.pure _) fun _ => stays_onBackend ordinal (hupload _ _)
    · exact Stays.bind (stays_chainResult _ _ _) fun _ => stays_onBackend ordinal (hupload _ _)
  · split
    · exact Stays.throw _
    · exact Stays.bind (stays_runOn _ _) fun _ => stays_onBackend ordinal (hrun _ _ _)

theorem stays_bindingValue? (t : TickInput) (ordinal : Nat) (previous : Option TextureId)
    (b : UniformBinding) :
    Stays (fun d : Drawing σ => I d.device) (bindingValue? t ordinal previous b) := by
  unfold bindingValue?
  split
  · split
    · exact Stays.pure _
    · split
      · exact Stays.bind (stays_uploadAudio h.upload h.runOffload _ _ _ _ _) fun _ => Stays.pure _
      · exact Stays.pure _
  · exact Stays.pure _

theorem stays_fillBinding (t : TickInput) (ordinal : Nat) (previous : Option TextureId)
    (b : UniformBinding) :
    Stays (fun d : Drawing σ => I d.device) (fillBinding t ordinal previous b) := by
  refine Stays.bind (stays_bindingValue? h _ _ _ _) fun value? => ?_
  split
  · exact stays_onBackend ordinal (h.setUniform _ _)
  · exact Stays.pure _

theorem stays_fillExternal (t : TickInput) (ordinal : Nat) (external : Nat × UniformLocation) :
    Stays (fun d : Drawing σ => I d.device) (fillExternal t ordinal external) := by
  unfold fillExternal
  split
  · exact stays_onBackend ordinal (h.setUniform _ _)
  · exact Stays.pure _

theorem stays_drawStage (t : TickInput) (previous : Option TextureId) (st : ShaderStage) :
    Stays (fun d : Drawing σ => I d.device) (drawStage t previous st) := by
  have hrest : Stays (fun d : Drawing σ => I d.device) (do
      onBackend st.ordinal (GraphicsBackend.useProgram st.program)
      st.bindings.forM (fillBinding t st.ordinal previous)
      st.externals.forM (fillExternal t st.ordinal)
      onBackend st.ordinal GraphicsBackend.draw) :=
    Stays.bind (stays_onBackend _ (h.useProgram _)) fun _ =>
      Stays.bind (Stays.forM (fun b => stays_fillBinding h t st.ordinal previous b) _) fun _ =>
        Stays.bind (Stays.forM (fun x => stays_fillExternal h t st.ordinal x) _) fun _ =>
          stays_onBackend _ h.draw
  refine Stays.bind (stays_onBackend _ (h.bindTarget _)) fun _ => ?_
  dsimp only
  split
  · exact Stays.bind (stays_onBackend _ (h.clear _)) fun _ => hrest
  · exact hrest

theorem stays_drawStages (t : TickInput) : ∀ (stages : List ShaderStage)
    (previous : Option TextureId),
    Stays (fun d : Drawing σ => I d.device) (drawStages t previous stages)
  | [], _ => Stays.pure _
  | st :: rest, _ =>
    Stays.bind (stays_drawStage h t _ st) fun _ => stays_drawStages t rest st.output

end Drawing

/-- What ticks do not touch: the stages and the placeholder of a pipeline, and
what drawing keeps of the device. -/
structure Untouched (I : σ → Prop) (stages : List ShaderStage) (placeholder : TextureId)
    (r : Rendering σ) : Prop where
  device : I r.device
  stages : r.pipeline.stages = stages
  placeholder : r.pipeline.placeholder = placeholder

namespace Untouched

variable {I : σ → Prop} {stages : List ShaderStage} {placeholder : TextureId}

theorem stays_drawAll (h : KeptByDrawing I) (t : TickInput) :
    Stays (Untouched I stages placeholder) (drawAll t) :=
  Stays.bind Stays.get fun _ =>
    Stays.within (stays_drawStages h t _ none) (fun _ hr => hr.device) fun _ _ hd hr =>
      ⟨hd, hr.stages, hr.placeholder⟩

/-- However a tick ends, it keeps what drawing keeps. -/
theorem stays_renderTick (h : KeptByDrawing I) (seconds : Float32) :
    Stays (Untouched I stages placeholder) (renderTick seconds) := by
  refine Ends.get_bind fun r hr => ?_
  refine Ends.bind (R := fun _ => Untouched I stages placeholder)
    (Ends.set fun _ _ => ⟨hr.device, hr.stages, hr.placeholder⟩) fun _ => ?_
  refine Stays.bind (stays_drawAll h _) fun _ => Stays.bind (Stays.record _) fun _ =>
    Stays.bind (Stays.modify fun r' hr' => ?_) fun _ => Stays.pure _
  obtain ⟨left, right, hmoved⟩ := r'.pipeline.moved_eq r.audio.snapshot.1
  have hmoved := hmoved r'.pipeline.store
  exact ⟨hr'.device, (congrArg Pipeline.stages hmoved).trans hr'.stages,
    (congrArg Pipeline.placeholder hmoved).trans hr'.placeholder⟩

end Untouched

/-- What may happen to a pipeline at work: ticks, which may fail, audio that is
published, and values bound from outside. -/
inductive Worked : Rendering σ → Rendering σ → Prop
  | nil (r : Rendering σ) : Worked r r
  | tick {r r' : Rendering σ} (seconds : Float32) (log : Log) :
    Worked r r' → Worked r (renderTick seconds r' log).1.2
  | hear {r r' : Rendering σ} (audio : SharedAudio Float32) : Worked r r' → Worked r { r' with audio }
  | bindValues {r r' : Rendering σ} (externals : ExternalValues) :
    Worked r r' → Worked r { r' with pipeline := { r'.pipeline with externals } }

theorem Worked.untouched {I : σ → Prop} (h : KeptByDrawing I) {stages : List ShaderStage}
    {placeholder : TextureId} {r r' : Rendering σ} (hworked : Worked r r')
    (hr : Untouched I stages placeholder r) : Untouched I stages placeholder r' := by
  induction hworked with
  | nil => exact hr
  | tick seconds log _ ih => exact (Untouched.stays_renderTick h seconds).apply ih log
  | hear _ _ ih => exact ⟨ih.device, ih.stages, ih.placeholder⟩
  | bindValues _ _ ih => exact ⟨ih.device, ih.stages, ih.placeholder⟩

/-! ### From build to teardown -/

/-- The handles of a pipeline, in the order in which they are freed. -/
def Pipeline.handles (p : Pipeline) : List Handle := heldBy p.stages ++ [.texture p.placeholder]

/-- The device behind a teardown. -/
theorem teardown_apply (p : Pipeline) {ε : Type} (s : σ) (log : Log) :
    ((p.teardown : Action σ ε Unit) s log).1 = (.ok (), deleteAll p.handles s) := by
  rw [Pipeline.handles, deleteAll_append, ← releaseStages_eq]
  rfl

/-- However the build of a pipeline on a device goes, the device is clean in the
end: behind the build if it fails, and behind the teardown if it succeeds,
whatever happened to the pipeline in between. -/
def EndsClean (setup : StageSetup) (moduleDir : Path) (externals : ExternalValues) (device : σ)
    (Clean : σ → Prop) : Prop :=
  ∀ log, match Pipeline.build setup moduleDir externals device log with
    | ((.error _, s), _) => Clean s
    | ((.ok pipeline, s), _) => ∀ audio r, Worked { device := s, audio, pipeline } r →
        ∀ log, Clean ((r.pipeline.teardown : Action σ RenderError Unit) r.device log).1.2

namespace Custody

variable (c : Custody σ)

theorem ends_ofStages (stages : List ShaderStage) (settings : PipelineSettings)
    (externals : ExternalValues) :
    Ends (c.making (heldBy stages)) (Pipeline.ofStages stages settings externals)
      (fun p => c.making p.handles) fun _ => c.holding [] := by
  refine Ends.bind (R := fun created =>
    c.making ((created.toOption.map Handle.texture).toList ++ heldBy stages))
    (Ends.attempt (c.createColorTexture 1 1 _)) fun created => ?_
  rcases created with e | placeholder
  · refine Ends.bind (R := fun _ => c.holding []) (Ends.modify fun s hs => ?_) fun _ =>
      Ends.throw fun _ h => h
    rw [releaseStages_eq]
    refine c.holding_deleteAll _ ?_
    rw [List.append_nil]
    exact c.holding_of_making hs
  · have hpipeline (p : Pipeline) (hp : p.handles = heldBy stages ++ [.texture placeholder]) :
        Ends (c.making (.texture placeholder :: heldBy stages))
          (pure p : Action σ BuildError Pipeline) (fun p => c.making p.handles)
          fun _ => c.holding [] :=
      Ends.pure fun _ hs => by
        rw [hp]
        exact c.making_perm (List.perm_append_singleton ..).symm hs
    dsimp only
    split
    · exact Ends.record_bind (hpipeline _ rfl)
    · exact hpipeline _ rfl

/-- A pipeline that is built holds all that was made for it. If the build fails,
all of that is deleted. -/
theorem ends_build (setup : StageSetup) (moduleDir : Path) (externals : ExternalValues) :
    Ends (c.making []) (Pipeline.build setup moduleDir externals) (fun p => c.making p.handles)
      fun _ => c.holding [] :=
  Ends.bind (ends_buildStages c setup moduleDir) fun stages =>
    c.ends_ofStages stages setup.settings externals

/-- Whatever happened to a pipeline since it was built, its teardown leaves
nothing to be deleted. -/
theorem holding_teardown {s : σ} {p : Pipeline} (h : c.making p.handles s)
    {audio : SharedAudio Float32} {r : Rendering σ}
    (hworked : Worked { device := s, audio, pipeline := p } r) {ε : Type} (log : Log) :
    c.holding [] ((r.pipeline.teardown : Action σ ε Unit) r.device log).1.2 := by
  have hr := hworked.untouched (c.drawing p.handles) ⟨c.holding_of_making h, rfl, rfl⟩
  have hhandles : r.pipeline.handles = p.handles := by
    rw [Pipeline.handles, Pipeline.handles, hr.stages, hr.placeholder]
  rw [teardown_apply, hhandles]
  refine c.holding_deleteAll _ ?_
  rw [List.append_nil]
  exact hr.device

theorem endsClean {device : σ} (h : c.making [] device) (setup : StageSetup) (moduleDir : Path)
    (externals : ExternalValues) :
    EndsClean setup moduleDir externals device (c.holding []) := by
  intro log
  have hend := c.ends_build setup moduleDir externals h log
  rcases hb : Pipeline.build setup moduleDir externals device log with ⟨⟨e | p, s⟩, log'⟩
  · rw [hb] at hend
    exact hend
  · rw [hb] at hend
    exact fun audio r hworked => c.holding_teardown hend hworked

end Custody

theorem EndsClean.mono {setup : StageSetup} {moduleDir : Path} {externals : ExternalValues}
    {device : σ} {Clean Clean' : σ → Prop} (h : EndsClean setup moduleDir externals device Clean)
    (hclean : ∀ s, Clean s → Clean' s) : EndsClean setup moduleDir externals device Clean' := by
  intro log
  have hend := h log
  rcases hb : Pipeline.build setup moduleDir externals device log with ⟨⟨e | p, s⟩, log'⟩
  · rw [hb] at hend
    exact hclean s hend
  · rw [hb] at hend
    exact fun audio r hworked log => hclean _ (hend audio r hworked log)

end AudioShader
