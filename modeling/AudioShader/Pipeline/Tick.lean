/-
# Ticks

A tick takes a snapshot of the audio, fills the uniforms of each stage and
draws it, in order. Audio is run through the chains and uploaded only if it may
have changed; within a tick a chain on a channel is run once, whoever asks for
it. A tick that fails keeps what was done before the failure, and is not
counted.

Key definitions: `RenderError`, `Rendering`, `TickInput`, `uploadAudio`,
`drawStage`, `renderTick`.
-/
import AudioShader.Pipeline.Basic
import AudioShader.Signal.Memo

namespace AudioShader

/-- Why a tick fails. -/
inductive RenderError where
  | backend (ordinal : Nat) (error : BackendError)
  | transform (error : TransformError)

namespace RenderError

/-- The name of the cause. -/
def label : RenderError → String
  | .backend _ _ => "Backend"
  | .transform error => error.label

def message : RenderError → String
  | .backend ordinal error => s!"stage {ordinal}: {error.message}"
  | .transform error => error.message

/-- What a failure comes from, in words. -/
def causes : RenderError → List String
  | .backend _ error => [error.message]
  | .transform _ => []

end RenderError

/-- What a tick has done. -/
structure TickReport where
  tick : Nat
  /-- New audio came since the tick before. -/
  fresh : Bool
  interpolated : Bool
  stagesDrawn : Nat

/-- A pipeline at work on a device, with the audio it reads. -/
structure Rendering (σ : Type) where
  device : σ
  audio : SharedAudio Float32
  pipeline : Pipeline

/-- What all stages of a tick see. -/
structure TickInput where
  settings : PipelineSettings
  left : List Float32
  right : List Float32
  /-- Whether audio is uploaded. -/
  refresh : Bool
  externals : List UniformValue
  placeholder : TextureId
  screen : Nat × Nat
  /-- Seconds since the pipeline was built. -/
  seconds : Float32

namespace TickInput

def channel (t : TickInput) : Channel → List Float32
  | .left => t.left
  | .right => t.right

/-- A natural number as a signed number of 32 bits. -/
def signedWord (n : Nat) : Int := Int.bmod n UInt32.size

/-- The value of a source that is no audio; `previous` is what the stage before
has drawn. -/
def value (t : TickInput) (previous : Option TextureId) : SourceKind → UniformValue
  | .previous => .texture (previous.getD t.placeholder)
  | .audioLength => .int (signedWord t.settings.bufferSize)
  | .screenSize => .ivec2 (signedWord t.screen.1) (signedWord t.screen.2)
  | .time => .float t.seconds
  | .audio _ => .texture t.placeholder

end TickInput

/-- What changes while the stages of a tick are drawn. -/
structure Drawing (σ : Type) where
  device : σ
  store : StateStore Float32
  /-- What the chains of this tick have given. -/
  memo : ChainMemo SourceKind Float32 := {}

variable {σ α : Type}

/-- Work of the backend for a stage. -/
def onBackend (ordinal : Nat) (a : Action σ BackendError α) : Action (Drawing σ) RenderError α :=
  Action.mapError (.backend ordinal)
    (Action.within (fun d => d.device) (fun device d => { d with device }) a)

/-- Runs a part of a chain on a buffer. -/
def runOn (buffer : List Float32) (a : Running Float32 Unit) :
    Action (Drawing σ) RenderError (List Float32) := do
  let d ← get
  let (result, work) := a.run ⟨buffer, d.store⟩
  set { d with store := work.store }
  match result with
  | .ok () => return work.buffer
  | .error error => throw (.transform error)

/-- What the whole chain of a uniform gives, run at most once a tick for a
source and a chain. -/
def chainResult (t : TickInput) (b : UniformBinding) (input : List Float32) :
    Action (Drawing σ) RenderError (List Float32) := do
  match (← get).memo.get? b.source.kind b.chain with
  | some result => return result
  | none =>
    let result ← runOn input (b.chain.run t.settings.params b.id)
    modify fun d => { d with memo := d.memo.put b.source.kind b.chain result }
    return result

/-- Makes the audio of a uniform and leaves it in its texture. -/
def uploadAudio [GraphicsBackend σ] (t : TickInput) (ordinal : Nat) (b : UniformBinding)
    (texture : TextureId) (input : List Float32) : Action (Drawing σ) RenderError Unit := do
  match b.mode with
  | .cpu =>
    let result ← if b.chain.isEmpty then pure input else chainResult t b input
    onBackend ordinal (GraphicsBackend.upload texture result)
  | .offloaded lead _ =>
    match b.offload with
    | none => throw (.backend ordinal .noOffload)
    | some offload =>
      let buffer ← runOn input (b.chain.runSteps 0 lead t.settings.params b.id)
      onBackend ordinal (GraphicsBackend.runOffload offload buffer texture)

/-- The value of a uniform, after its audio is uploaded; none without a texture
for it. -/
def bindingValue? [GraphicsBackend σ] (t : TickInput) (ordinal : Nat) (previous : Option TextureId)
    (b : UniformBinding) : Action (Drawing σ) RenderError (Option UniformValue) := do
  match b.source.kind with
  | .audio channel =>
    match b.texture with
    | none => return none
    | some texture =>
      if t.refresh then uploadAudio t ordinal b texture (t.channel channel)
      return some (.texture texture)
  | kind => return some (t.value previous kind)

/-- Fills a uniform, if the program keeps it anywhere. -/
def fillBinding [GraphicsBackend σ] (t : TickInput) (ordinal : Nat) (previous : Option TextureId)
    (b : UniformBinding) : Action (Drawing σ) RenderError Unit := do
  match ← bindingValue? t ordinal previous b, b.location with
  | some value, some location => onBackend ordinal (GraphicsBackend.setUniform location value)
  | _, _ => pure ()

/-- Fills the uniform of a declaration from outside. -/
def fillExternal [GraphicsBackend σ] (t : TickInput) (ordinal : Nat)
    (external : Nat × UniformLocation) : Action (Drawing σ) RenderError Unit := do
  match t.externals[external.1]? with
  | some value => onBackend ordinal (GraphicsBackend.setUniform external.2 value)
  | none => pure ()

/-- Draws a stage. -/
def drawStage [GraphicsBackend σ] (t : TickInput) (previous : Option TextureId) (st : ShaderStage) :
    Action (Drawing σ) RenderError Unit := do
  onBackend st.ordinal (GraphicsBackend.bindTarget st.target)
  match t.settings.background with
  | some color => onBackend st.ordinal (GraphicsBackend.clear color)
  | none => pure ()
  onBackend st.ordinal (GraphicsBackend.useProgram st.program)
  st.bindings.forM (fillBinding t st.ordinal previous)
  st.externals.forM (fillExternal t st.ordinal)
  onBackend st.ordinal GraphicsBackend.draw

/-- Draws stages one after the other; each sees what the one before has drawn. -/
def drawStages [GraphicsBackend σ] (t : TickInput) :
    (previous : Option TextureId) → List ShaderStage → Action (Drawing σ) RenderError Unit
  | _, [] => pure ()
  | previous, st :: rest => do
    drawStage t previous st
    drawStages t st.output rest

/-! ### The tick -/

/-- The audio that a channel's chains start from. -/
def Pipeline.channelInput (p : Pipeline) (keys : Keyframes Float32) (samples : List Float32) :
    List Float32 :=
  if p.interpolating then
    keys.sampleInto (List.replicate p.settings.bufferSize 0.0)
      (blendFactor p.settings.updateRate (Float32.ofNat p.settings.frameRate) keys.ticks)
  else fitted p.settings.bufferSize samples

/-- What the stages of the next tick see. -/
def Pipeline.tickInput (p : Pipeline) (snapshot : AudioSnapshot Float32) (screen : Nat × Nat)
    (seconds : Float32) : TickInput where
  settings := p.settings
  left := p.channelInput p.left snapshot.frame.left
  right := p.channelInput p.right snapshot.frame.right
  refresh := p.interpolating || snapshot.fresh || p.ticks == 0
  externals := p.externals.values
  placeholder := p.placeholder
  screen
  seconds

/-- The pipeline after a tick: new audio becomes the frame to move to. -/
def Pipeline.moved (p : Pipeline) (snapshot : AudioSnapshot Float32) : Pipeline :=
  if !p.interpolating then p
  else if snapshot.fresh then
    { p with left := p.left.rotate snapshot.frame.left, right := p.right.rotate snapshot.frame.right }
  else { p with left := p.left.advance, right := p.right.advance }

/-- Draws all stages of the pipeline. -/
def drawAll [GraphicsBackend σ] (t : TickInput) : Action (Rendering σ) RenderError Unit := do
  let stages := (← get).pipeline.stages
  Action.within (fun r => ({ device := r.device, store := r.pipeline.store } : Drawing σ))
    (fun d r => { r with device := d.device, pipeline := { r.pipeline with store := d.store } })
    (drawStages t none stages)

/-- Renders a tick, `seconds` after the pipeline was built. -/
def renderTick [GraphicsBackend σ] (seconds : Float32) :
    Action (Rendering σ) RenderError TickReport := do
  let r ← get
  let (snapshot, audio) := r.audio.snapshot
  set { r with audio }
  drawAll (r.pipeline.tickInput snapshot (GraphicsBackend.screenSize r.device) seconds)
  let report : TickReport :=
    { tick := r.pipeline.ticks
      fresh := snapshot.fresh
      interpolated := r.pipeline.interpolating
      stagesDrawn := r.pipeline.stages.length }
  Action.record (.trace "rendered tick"
    [("tick", toString report.tick), ("fresh", toString report.fresh)])
  modify fun r =>
    { r with pipeline := { r.pipeline.moved snapshot with ticks := r.pipeline.ticks + 1 } }
  return report

end AudioShader
