/-
# Pipelines

The stages of a module with all that lasts from one tick to the next: the
states of the chains, the frames that audio moves between and the values bound
from outside. The backend is not part of it.

Key definitions: `Pipeline`, `Pipeline.ofStages`, `Pipeline.build`,
`Pipeline.teardown`.
-/
import AudioShader.Signal.Keyframes
import AudioShader.Signal.SharedAudio
import AudioShader.Stage.Build
import AudioShader.Uniform.External

namespace AudioShader

structure Pipeline where
  stages : List ShaderStage
  settings : PipelineSettings
  store : StateStore Float32 := {}
  left : Keyframes Float32
  right : Keyframes Float32
  externals : ExternalValues
  /-- What the first stage sees as the stage before it. -/
  placeholder : TextureId
  /-- The number of ticks so far. -/
  ticks : Nat := 0

namespace Pipeline

/-- Whether any chain runs on the device in part. -/
def anyOffloaded (stages : List ShaderStage) : Bool :=
  stages.any fun st => st.bindings.any fun b => b.mode.isOffloaded

/-- Whether audio moves between two updates: not if any tail runs on the device. -/
def interpolating (p : Pipeline) : Bool := p.settings.interpolate && !anyOffloaded p.stages

variable {σ : Type} [GraphicsBackend σ]

/-- The pipeline of stages, which are freed if it cannot be made. -/
def ofStages (stages : List ShaderStage) (settings : PipelineSettings) (externals : ExternalValues) :
    Action σ BuildError Pipeline := do
  match ← Action.attempt (GraphicsBackend.createColorTexture 1 1) with
  | .error error =>
    modify (releaseStages stages)
    throw (.backend 0 error)
  | .ok placeholder =>
    if anyOffloaded stages && settings.interpolate then
      Action.record (.debug "interpolation disabled: chain tails run on the GPU" [])
    let silent := Keyframes.new settings.bufferSize
    return { stages, settings, left := silent, right := silent, externals, placeholder }

/-- Builds the stages of a module and the pipeline of them. -/
def build (setup : StageSetup) (moduleDir : Path) (externals : ExternalValues) :
    Action σ BuildError Pipeline := do
  ofStages (← buildStages setup moduleDir) setup.settings externals

/-- Frees all that the pipeline holds. -/
def teardown {ε : Type} (p : Pipeline) : Action σ ε Unit := do
  modify fun s => GraphicsBackend.deleteTexture p.placeholder (releaseStages p.stages s)
  Action.record (.debug "pipeline torn down" [("ticks", toString p.ticks)])

end Pipeline
end AudioShader
