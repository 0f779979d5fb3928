/-
# Stages

A compiled stage with what it holds on a backend: its program, a texture and
perhaps a tail for each audio uniform, and the target it draws into unless it
is the last one.

Key definitions: `UniformBinding`, `ShaderStage`, `ShaderStage.release`,
`releaseStages`.
-/
import AudioShader.Graphics.Backend
import AudioShader.Signal.Store
import AudioShader.Source.Map
import AudioShader.Uniform.Catalog

namespace AudioShader

/-- A uniform of a stage with the source it is filled from. -/
structure UniformBinding where
  id : BindingId
  name : String
  source : BindSource
  /-- Where the program keeps it, if it uses it. -/
  location : Option UniformLocation
  chain : Chain
  mode : ChainMode
  /-- Where audio is uploaded to. -/
  texture : Option TextureId := none
  offload : Option OffloadId := none

structure ShaderStage where
  /-- The number of the stage's file. -/
  ordinal : Nat
  path : Path
  program : ProgramId
  bindings : List UniformBinding := []
  /-- The declarations from outside that the program uses, by their place. -/
  externals : List (Nat × UniformLocation) := []
  target : Option TargetId := none
  /-- The texture of the target. -/
  output : Option TextureId := none
  map : SourceMap

variable {σ : Type} [GraphicsBackend σ]

/-- Work that deletes what a handle stands for, if there is one. -/
def deleteIf {ι : Type} (delete : ι → σ → σ) (held : Option ι) (s : σ) : σ :=
  match held with
  | some id => delete id s
  | none => s

namespace UniformBinding

/-- Frees what a uniform holds. -/
def release (b : UniformBinding) (s : σ) : σ :=
  deleteIf GraphicsBackend.deleteTexture b.texture
    (deleteIf GraphicsBackend.deleteOffload b.offload s)

end UniformBinding

namespace ShaderStage

/-- The last stage draws to the screen. -/
def isFinal (s : ShaderStage) : Bool := s.target.isNone

/-- The uniform of a name. -/
def binding? (s : ShaderStage) (name : String) : Option UniformBinding :=
  s.bindings.find? fun b => b.name == name

/-- Frees all that a stage holds, what came last first. -/
def release (st : ShaderStage) (s : σ) : σ :=
  GraphicsBackend.deleteProgram st.program
    (deleteIf GraphicsBackend.deleteTarget st.target
      (st.bindings.foldr UniformBinding.release s))

end ShaderStage

/-- Frees all that stages hold, what came last first. -/
def releaseStages (stages : List ShaderStage) (s : σ) : σ := stages.foldr ShaderStage.release s

end AudioShader
