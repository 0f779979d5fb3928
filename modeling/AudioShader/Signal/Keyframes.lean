/-
# Keyframes

Audio comes slower than frames are drawn. Between two updates a channel moves
from the frame before the last one to the last one.

Key definitions: `Keyframes`, `Keyframes.rotate`, `Keyframes.advance`,
`Keyframes.sampleInto`, `blendFactor`.
-/
import AudioShader.Signal.Sample

namespace AudioShader

variable {α : Type}

/-- The most ticks that are counted. -/
def maxTicks : Nat := UInt32.size - 1

/-- How far a channel has moved `ticks` frames after an update. -/
def blendFactor (updateRate frameRate : Float32) (ticks : Nat) : Float32 :=
  if frameRate ≤ 0.0 then 1.0
  else
    let blend := updateRate.toFloat * Float.ofNat ticks / frameRate.toFloat
    if blend < 1.0 then blend.toFloat32 else 1.0

/-- The two frames a channel moves between, and the ticks since the last update. -/
structure Keyframes (α : Type) where
  start : List α
  stop : List α
  ticks : Nat

namespace Keyframes

/-- Silence. -/
def new [Zero α] (len : Nat) : Keyframes α :=
  ⟨List.replicate len 0, List.replicate len 0, 0⟩

/-- Writes the front of `source` over the front of `target`, which keeps its length. -/
def overwrite : (target source : List α) → List α
  | _ :: ts, s :: ss => s :: overwrite ts ss
  | target, _ => target

theorem length_overwrite : ∀ target source : List α,
    (overwrite target source).length = target.length
  | [], _ => by simp [overwrite]
  | _ :: _, [] => by simp [overwrite]
  | _ :: ts, _ :: ss => by simp [overwrite, length_overwrite ts ss]

/-- A new frame: the last one becomes the start, and the new one is written over
what the start was before. -/
def rotate (k : Keyframes α) (fresh : List α) : Keyframes α :=
  ⟨k.stop, overwrite k.start fresh, 0⟩

/-- One more tick. -/
def advance (k : Keyframes α) : Keyframes α := { k with ticks := min (k.ticks + 1) maxTicks }

/-- The frame between start and stop. -/
def blended [Sample α] (k : Keyframes α) (blend : α) : List α :=
  k.start.zipWith (fun a b => a + (b - a) * blend) k.stop

/-- Writes the frame over the front of a buffer. -/
def sampleInto [Sample α] (k : Keyframes α) (out : List α) (blend : α) : List α :=
  overwrite out (k.blended blend)

end Keyframes
end AudioShader
