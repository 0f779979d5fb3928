/-
# Graphics backends

What the pipeline asks of a graphics device: programs, textures and targets by
handles, uniforms by their locations in a program, and draws. A backend may
also run the tail of a chain itself; by default it does not.

Key definitions: `BackendError`, `GraphicsBackend`.
-/
import AudioShader.Color
import AudioShader.Event
import AudioShader.Signal.Chain
import AudioShader.Uniform.Value

namespace AudioShader

structure ProgramId where
  number : Nat
  deriving DecidableEq

/-- A texture that draws go to instead of the screen. -/
structure TargetId where
  number : Nat
  deriving DecidableEq

/-- The tail of a chain that a backend runs. -/
structure OffloadId where
  number : Nat
  deriving DecidableEq

/-- The place of a uniform in its program. -/
structure UniformLocation where
  number : Nat
  deriving DecidableEq

/-- What a handle stands for. -/
inductive HandleKind where
  | program
  | texture
  | target
  | uniform
  | offload
  deriving DecidableEq

namespace HandleKind

def name : HandleKind → String
  | .program => "program"
  | .texture => "texture"
  | .target => "target"
  | .uniform => "uniform"
  | .offload => "offload"

end HandleKind

/-- Why a backend does not do what it was asked. -/
inductive BackendError where
  /-- The program is refused, for what the log says. -/
  | compile (log : String)
  | unknownHandle (kind : HandleKind) (number : Nat)
  | noProgram
  | uploadSize (expected found : Nat)
  | uniformType (location : UniformLocation) (value : UniformValue)
  | unsupported (what : String)
  | transform (error : TransformError)
  | device (reason : String)

namespace BackendError

/-- The name of the cause. -/
def label : BackendError → String
  | .compile _ => "Compile"
  | .unknownHandle _ _ => "UnknownHandle"
  | .noProgram => "NoProgram"
  | .uploadSize _ _ => "UploadSize"
  | .uniformType _ _ => "UniformType"
  | .unsupported _ => "Unsupported"
  | .transform error => error.label
  | .device _ => "Device"

def message : BackendError → String
  | .compile log => s!"shader compilation failed:\n{log}"
  | .unknownHandle kind number => s!"unknown {kind.name} handle {number}"
  | .noProgram => "no program is bound"
  | .uploadSize expected found => s!"texture holds {expected} values, upload had {found}"
  | .uniformType location value => s!"uniform {location.number} cannot hold {value.render}"
  | .unsupported what => s!"{what} is not supported by this backend"
  | .transform error => error.message
  | .device reason => s!"graphics device error: {reason}"

/-- The refusal of a backend that runs no tails. -/
def noOffload : BackendError := .unsupported "chain offload"

end BackendError

/-- A device with the state `σ`. -/
class GraphicsBackend (σ : Type) where
  /-- Compiles a fragment shader and links it with the backend's own vertices. -/
  compile : (label fragment : String) → Action σ BackendError ProgramId
  /-- Where a program keeps a uniform; none if it does not use the name. -/
  location? : σ → ProgramId → (name : String) → Option UniformLocation
  createTarget : (width height : Nat) → Action σ BackendError TargetId
  /-- The texture that a target's draws go to. -/
  targetTexture : TargetId → Action σ BackendError TextureId
  /-- A texture of `len` single values. -/
  createAudioTexture : (len : Nat) → Action σ BackendError TextureId
  /-- A texture of colors, all of them zero. -/
  createColorTexture : (width height : Nat) → Action σ BackendError TextureId
  upload : TextureId → List Float32 → Action σ BackendError Unit
  /-- Where draws go to; the screen if there is no target. -/
  bindTarget : Option TargetId → Action σ BackendError Unit
  clear : Color → Action σ BackendError Unit
  useProgram : ProgramId → Action σ BackendError Unit
  setUniform : UniformLocation → UniformValue → Action σ BackendError Unit
  draw : Action σ BackendError Unit
  /-- Width and height of the screen. -/
  screenSize : σ → Nat × Nat
  supportsOffload : σ → Bool := fun _ => false
  /-- Prepares the tail of a chain. -/
  createOffload : Tail → TransformParams Float32 → Action σ BackendError OffloadId :=
    fun _ _ => throw .noOffload
  /-- Runs a tail on a buffer and leaves the result in a texture. -/
  runOffload : OffloadId → List Float32 → TextureId → Action σ BackendError Unit :=
    fun _ _ _ => throw .noOffload
  deleteOffload : OffloadId → σ → σ := fun _ s => s
  deleteProgram : ProgramId → σ → σ
  deleteTarget : TargetId → σ → σ
  deleteTexture : TextureId → σ → σ

end AudioShader
