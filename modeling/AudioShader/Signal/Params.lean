/-
# Parameters of the transforms

The numbers that all chains of a run share.

Key definitions: `TransformParams`, `TransformParams.default`,
`TransformParams.check`, `TransformParams.gravityDecay`.
-/
import AudioShader.Signal.Gravity
import AudioShader.Signal.Single

namespace AudioShader

structure TransformParams (α : Type) where
  /-- The length of all audio buffers. -/
  bufferLen : Nat
  /-- Audio updates a second. -/
  updateRate : α
  gravityStep : α
  avgFrames : Nat
  /-- Whether averages are weighted by age. -/
  avgWindow : Bool
  fftScale : α
  fftCutoff : α
  smoothDistance : α

namespace TransformParams

/-- The parameters where none are set. -/
def default : TransformParams Float32 where
  bufferLen := 2048
  updateRate := 22050.0 / 1024.0
  gravityStep := 4.2
  avgFrames := 6
  avgWindow := true
  fftScale := 10.2
  fftCutoff := 0.3
  smoothDistance := 0.01

/-- What a gravity value sinks by at each update. -/
def gravityDecay {α : Type} [Sample α] (p : TransformParams α) : α :=
  decayPerUpdate p.gravityStep p.updateRate

/-- A number without an exponent and without a fraction that is zero. -/
def plainNumber (x : Float32) : String :=
  if x.isNaN || x.isInf then FloatText.render32 x
  else
    let b := Binary.ofFloat32 x
    let text := if b.mantissa = 0 then "0" else b.shortest.plain
    if UInt32.size / 2 ≤ x.toBits.toNat then "-" ++ text else text

/-- Refuses parameters that no chain can run with. -/
def check (p : TransformParams Float32) : Except TransformError Unit :=
  if !isBufferLength p.bufferLen then .error (.notPowerOfTwo p.bufferLen)
  else if !(p.updateRate.isFinite && 0.0 < p.updateRate) then
    .error (.parameter (.updateRate (plainNumber p.updateRate)))
  else if p.avgFrames = 0 then .error (.parameter .noFrames)
  else .ok ()

end TransformParams
end AudioShader
