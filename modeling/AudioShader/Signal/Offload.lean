/-
# Tails in passes

What the graphics device does for a tail, pass by pass: each number of the
spectrum by itself, the larger of it and what was accumulated less the decay,
and the weighted mean of the last frames.

Key definitions: `OffloadPasses`, `OffloadPasses.run`.
-/
import AudioShader.Signal.Chain

namespace AudioShader

variable {α : Type}

/-- The passes of a tail with what they keep between updates. -/
structure OffloadPasses (α : Type) where
  tail : Tail
  decay : α
  fftScale : α
  fftCutoff : α
  avgWindow : Bool
  accumulated : List α
  history : AverageState α

namespace OffloadPasses

def new [Sample α] (tail : Tail) (params : TransformParams α) : OffloadPasses α where
  tail
  decay := params.gravityDecay
  fftScale := params.fftScale
  fftCutoff := params.fftCutoff
  avgWindow := params.avgWindow
  accumulated := List.replicate params.bufferLen 0
  history := AverageState.new params.avgFrames params.bufferLen

def len (p : OffloadPasses α) : Nat := p.accumulated.length

/-- The compressed spectrum, number by number. -/
def spectrumPass [Signal α] (p : OffloadPasses α) (input : List α) : List α :=
  compressAll p.fftScale p.fftCutoff ((List.range p.len).map (Spectrum.texel input))

/-- The accumulated values after an update. -/
def gravityPass [Sample α] (p : OffloadPasses α) (spectrum : List α) : List α :=
  spectrum.zipWith (fun x kept => Sample.larger x kept - p.decay) p.accumulated

/-- Runs all passes of an update. -/
def run [Signal α] (p : OffloadPasses α) (input : List α) :
    Except TransformError (OffloadPasses α × List α) := do
  if input.length ≠ p.len then throw (.bufferLength .fft p.len input.length)
  if !isBufferLength p.len then throw (.notPowerOfTwo p.len)
  let spectrum := p.spectrumPass input
  let accumulated := if p.tail.hasGravity then p.gravityPass spectrum else p.accumulated
  let fallen := if p.tail.hasGravity then accumulated else spectrum
  if p.tail.hasAverage then
    let (history, output) ← p.history.apply fallen p.avgWindow
    return ({ p with accumulated, history }, output)
  else
    return ({ p with accumulated }, fallen)

/-- What is reported about a run. -/
def event (p : OffloadPasses α) : Event :=
  .trace "ran offload passes" [("tail", p.tail.render), ("len", toString p.len)]

end OffloadPasses
end AudioShader
