/-
# Pipelines that share nothing

The executor that a pipeline is measured by: every binding has states of its
own, and whenever audio is uploaded each runs its whole chain on them, whatever
other bindings have run. There is no memo.

Key definitions: `Unshared.Drawing`, `Unshared.uploadAudio`, `Unshared.Rendering`,
`Unshared.renderTick`, `Happening`, `Ran`.
-/
import Mathlib.Logic.Function.Basic
import AudioShader.Pipeline.Tick
import AudioShader.Proofs.Action

namespace AudioShader
namespace Unshared

/-- What changes while the stages of a tick are drawn. -/
structure Drawing (σ : Type) where
  device : σ
  /-- The states of each binding. -/
  states : BindingId → StateStore Float32

/-- An executor at work on a device, with the audio it reads. The store of its
pipeline is not used. -/
structure Rendering (σ : Type) where
  device : σ
  audio : SharedAudio Float32
  pipeline : Pipeline
  states : BindingId → StateStore Float32 := fun _ => {}

variable {σ α : Type}

/-- Work of the backend for a stage. -/
def onBackend (ordinal : Nat) (a : Action σ BackendError α) : Action (Drawing σ) RenderError α :=
  Action.mapError (.backend ordinal)
    (Action.within (fun d => d.device) (fun device d => { d with device }) a)

variable [GraphicsBackend σ]

/-- Runs the whole chain of a binding on its own states, and uploads what it gives. -/
def uploadAudio (t : TickInput) (ordinal : Nat) (b : UniformBinding) (texture : TextureId)
    (input : List Float32) : Action (Drawing σ) RenderError Unit := do
  let d ← get
  let (result, work) := (b.chain.run t.settings.params b.id).run ⟨input, d.states b.id⟩
  match result with
  | .error error => throw (.transform error)
  | .ok () =>
    set { d with states := Function.update d.states b.id work.store }
    onBackend ordinal (GraphicsBackend.upload texture work.buffer)

/-- The value of a uniform, after its audio is uploaded. -/
def bindingValue? (t : TickInput) (ordinal : Nat) (previous : Option TextureId)
    (b : UniformBinding) : Action (Drawing σ) RenderError (Option UniformValue) := do
  match b.source.kind with
  | .audio channel =>
    match b.texture with
    | none => return none
    | some texture =>
      if t.refresh then uploadAudio t ordinal b texture (t.channel channel)
      return some (.texture texture)
  | kind => return some (t.value previous kind)

def fillBinding (t : TickInput) (ordinal : Nat) (previous : Option TextureId)
    (b : UniformBinding) : Action (Drawing σ) RenderError Unit := do
  match ← bindingValue? t ordinal previous b, b.location with
  | some value, some location => onBackend ordinal (GraphicsBackend.setUniform location value)
  | _, _ => pure ()

def fillExternal (t : TickInput) (ordinal : Nat) (external : Nat × UniformLocation) :
    Action (Drawing σ) RenderError Unit := do
  match t.externals[external.1]? with
  | some value => onBackend ordinal (GraphicsBackend.setUniform external.2 value)
  | none => pure ()

def drawStage (t : TickInput) (previous : Option TextureId) (st : ShaderStage) :
    Action (Drawing σ) RenderError Unit := do
  onBackend st.ordinal (GraphicsBackend.bindTarget st.target)
  match t.settings.background with
  | some color => onBackend st.ordinal (GraphicsBackend.clear color)
  | none => pure ()
  onBackend st.ordinal (GraphicsBackend.useProgram st.program)
  st.bindings.forM (fillBinding t st.ordinal previous)
  st.externals.forM (fillExternal t st.ordinal)
  onBackend st.ordinal GraphicsBackend.draw

def drawStages (t : TickInput) :
    (previous : Option TextureId) → List ShaderStage → Action (Drawing σ) RenderError Unit
  | _, [] => pure ()
  | previous, st :: rest => do
    drawStage t previous st
    drawStages t st.output rest

def drawAll (t : TickInput) : Action (Rendering σ) RenderError Unit := do
  let stages := (← get).pipeline.stages
  Action.within (fun r => ({ device := r.device, states := r.states } : Drawing σ))
    (fun d r => { r with device := d.device, states := d.states }) (drawStages t none stages)

/-- Renders a tick, `seconds` after the pipeline was built. -/
def renderTick (seconds : Float32) : Action (Rendering σ) RenderError TickReport := do
  let r ← get
  let (snapshot, audio) := r.audio.snapshot
  set { r with audio }
  drawAll (r.pipeline.tickInput snapshot (GraphicsBackend.screenSize r.device) seconds)
  let report : TickReport :=
    { tick := r.pipeline.ticks
      fresh := snapshot.fresh
      interpolated := r.pipeline.interpolating
      stagesDrawn := r.pipeline.stages.length }
  Action.record (.trace "rendered tick"
    [("tick", toString report.tick), ("fresh", toString report.fresh)])
  modify fun r =>
    { r with pipeline := { r.pipeline.moved snapshot with ticks := r.pipeline.ticks + 1 } }
  return report

omit [GraphicsBackend σ] in
/-- The executor of a pipeline that has not run yet. -/
def ofRendering (r : AudioShader.Rendering σ) : Rendering σ :=
  { device := r.device, audio := r.audio, pipeline := r.pipeline }

def Rendering.publish (r : Rendering σ) (frame : AudioFrame Float32) : Rendering σ :=
  { r with audio := r.audio.commit ⟨frame⟩ }

end Unshared

/-- The rendering after a producer has published a frame. -/
def Rendering.publish {σ : Type} (r : Rendering σ) (frame : AudioFrame Float32) : Rendering σ :=
  { r with audio := r.audio.commit ⟨frame⟩ }

/-- What can happen to a rendering. -/
inductive Happening where
  /-- A tick, so many seconds after the pipeline was built, with its report. -/
  | tick (seconds : Float32) (report : TickReport)
  | publish (frame : AudioFrame Float32)

/-- Runs of an executor: ticks that succeed, with any audio published in between. -/
inductive Ran {τ : Type} (tick : Float32 → Action τ RenderError TickReport)
    (publish : τ → AudioFrame Float32 → τ) : τ → List Happening → τ → Prop
  | nil (r : τ) : Ran tick publish r [] r
  | tick {r r₁ r' : τ} {rest : List Happening} {seconds : Float32} {report : TickReport} :
    Ran tick publish r rest r₁ → Action.Gives (tick seconds) r₁ report r' →
    Ran tick publish r (rest ++ [.tick seconds report]) r'
  | publish {r r' : τ} {rest : List Happening} (frame : AudioFrame Float32) :
    Ran tick publish r rest r' → Ran tick publish r (rest ++ [.publish frame]) (publish r' frame)

end AudioShader
