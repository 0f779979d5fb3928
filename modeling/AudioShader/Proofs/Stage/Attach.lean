/-
# What it takes to bind a uniform

To bind a uniform a build may make a texture and a tail on its device, and adds
a binding to a stage in between. Whatever is to hold of a build behind this, or
where one of the two is not made, follows from what holds of the two calls.

Key definitions: `UniformRequest.binding`.
Key theorems: `Building.ends_attachUniform`.
-/
import AudioShader.Proofs.Outcome
import AudioShader.Proofs.Stage.Numbering

namespace AudioShader

open AudioShader.Action (Ends Stays)

variable {σ α : Type}

namespace Building

/-- Events are reported without fail. -/
theorem ends_report {P : Building σ → Prop} {E : BackendError → Building σ → Prop}
    (events : List Event) : Ends P (report events) (fun _ => P) E :=
  Ends.forM (I := fun _ => P) (fun _ _ => Ends.record fun _ h => h) events

/-- Whether a warning is reported makes no difference to a build. -/
theorem ends_of_warned {p : Prop} [Decidable p] {events : List Event}
    {rest : Action (Building σ) BackendError α} {P : Building σ → Prop}
    {Q : α → Building σ → Prop} {E : BackendError → Building σ → Prop} (h : Ends P rest Q E) :
    Ends P (if p then report events >>= fun _ => rest else rest) Q E := by
  split
  · exact Ends.bind (ends_report events) fun _ => h
  · exact h

/-- Work of the backend changes the device only. -/
theorem ends_onDevice {a : Action σ BackendError α} {b : Building σ} {Q : α → σ → Prop}
    {E : BackendError → σ → Prop} (h : Ends (fun d => d = b.device) a Q E) :
    Ends (fun t => t = b) (onDevice a) (fun x t => ∃ d, t = { b with device := d } ∧ Q x d)
      fun e t => ∃ d, t = { b with device := d } ∧ E e d := by
  refine Ends.within ?_
  rintro _ rfl
  exact h.weaken (fun _ h => h) (fun _ d hd => ⟨d, rfl, hd⟩) fun _ d hd => ⟨d, rfl, hd⟩

end Building

open Building

variable [GraphicsBackend σ]

/-- The binding that a uniform becomes at a point of a build. -/
def UniformRequest.binding (u : UniformRequest) (settings : PipelineSettings) (program : ProgramId)
    (b : Building σ) (texture : Option TextureId) (offload : Option OffloadId) : UniformBinding where
  id := ⟨b.nextBinding⟩
  name := u.name
  source := u.source
  location := GraphicsBackend.location? b.device program u.name
  chain := u.chain
  mode := u.mode settings b.device
  texture := texture
  offload := offload

namespace Building

variable {settings : PipelineSettings} {index ordinal : Nat} {program : ProgramId}
  {u : UniformRequest} {b : Building σ}

/-- A uniform gets a texture if it is filled with audio, and a tail if its chain
runs on the device in part; where the tail is not made, the stage has the
binding with the texture already. -/
theorem ends_attachUniform {T : Option TextureId → σ → Prop} {R : UniformBinding → σ → Prop}
    {E : List ShaderStage → σ → Prop}
    (htexture : u.source.kind.isAudio = true → Ends (fun d => d = b.device)
      (GraphicsBackend.createAudioTexture settings.bufferSize) (fun t => T (some t))
      fun _ => E b.stages)
    (hnone : u.source.kind.isAudio = false → T none b.device)
    (hcpu : u.mode settings b.device = .cpu →
      ∀ texture d, T texture d → R (u.binding settings program b texture none) d)
    (hoffload : ∀ lead tail, u.mode settings b.device = .offloaded lead tail → ∀ texture,
      Ends (T texture) (GraphicsBackend.createOffload tail settings.params)
        (fun id => R (u.binding settings program b texture (some id)))
        fun _ => E (b.stages.modify index (pushed (u.binding settings program b texture none)))) :
    Ends (fun t => t = b) (attachUniform settings index ordinal program u)
      (fun _ t => ∃ x, R x t.device ∧ t.stages = b.stages.modify index (pushed x))
      fun _ t => E t.stages t.device := by
  refine Ends.get_bind ?_
  rintro b rfl
  refine ends_of_warned (Ends.bind (ends_report _) fun _ => ?_)
  refine Ends.bind (R := fun texture t => t.stages = b.stages ∧ T texture t.device) ?_
    fun texture => ?_
  · unfold audioTexture
    split
    · next haudio =>
      refine Ends.bind ((ends_onDevice (htexture haudio)).weaken (fun _ h => h) (fun _ _ h => h) ?_)
        fun id => Ends.pure ?_
      · rintro _ _ ⟨d, rfl, hd⟩
        exact hd
      · rintro _ ⟨d, rfl, hd⟩
        exact ⟨rfl, hd⟩
    · next haudio =>
      refine Ends.pure ?_
      rintro _ rfl
      exact ⟨rfl, hnone (Bool.not_eq_true _ ▸ haudio)⟩
  refine Ends.bind (R := fun _ t => t.stages = b.stages ∧ T texture t.device)
    (Ends.modify fun _ h => h) fun _ => ?_
  -- the binding is there before its tail
  refine Ends.bind (R := fun _ t => T texture t.device ∧ t.stages =
    b.stages.modify index (pushed (u.binding settings program b texture none)))
    (Ends.modify fun t h => ⟨h.2, congrArg (List.modify · index _) h.1⟩) fun _ => ?_
  cases hmode : u.mode settings b.device with
  | cpu => exact Ends.pure fun t h => ⟨_, hcpu hmode texture t.device h.1, h.2⟩
  | offloaded lead tail =>
    refine Ends.of_forall fun t ht => ?_
    refine Ends.bind ((ends_onDevice ((hoffload lead tail hmode texture).weaken
      (by rintro _ rfl; exact ht.1) (fun _ _ h => h) fun _ _ h => h)).weaken (fun _ h => h)
      (fun _ _ h => h) ?_) fun id => Ends.modify ?_
    · rintro _ _ ⟨d, rfl, hd⟩
      rw [← ht.2] at hd
      exact hd
    · rintro _ ⟨d, rfl, hd⟩
      refine ⟨_, hd, ?_⟩
      dsimp only
      rw [ht.2]
      refine Eq.trans ?_ (modify_replaced (u.binding settings program b texture none)
        (u.binding settings program b texture (some id)) b.stages index)
      rw [UniformRequest.binding, UniformRequest.binding, hmode]

end Building
end AudioShader
