/-
# Transforms without a state

Tapering a buffer, moving its range, smoothing it over a window that widens with
the position, and its compressed spectrum.

Key definitions: `tapered`, `ranged`, `smoothWindow`, `smoothed`, `compress`,
`spectrum`.
-/
import AudioShader.Signal.Fault
import AudioShader.Signal.Sample

namespace AudioShader

variable {α : Type}

/-- The buffer with its ends tapered. -/
def tapered [Sample α] [Weights α] (buffer : List α) : List α :=
  buffer.zipIdx.map fun p => p.1 * Weights.taper p.2 buffer.length

/-- Values between minus one and one brought between zero and one. -/
def ranged [Sample α] (buffer : List α) : List α :=
  buffer.map fun x => (x + Sample.ofNat 1) / Sample.ofNat 2

/-! ### Smoothing -/

/-- The first and last position that are smoothed over at position `t` of a
buffer of `len` samples: `distance` up and down on a logarithmic scale. -/
def smoothWindow [Sample α] [LogScale α] (t len : Nat) (distance : α) : Nat × Nat :=
  let last : α := Sample.ofNat (len - 1)
  let place : α := LogScale.ln (Sample.ofNat t)
  let low := LogScale.clamp 0 last (LogScale.floor (LogScale.exp (place - distance)))
  let high := LogScale.clamp 0 last (LogScale.ceil (LogScale.exp (place + distance)))
  (LogScale.toIndex low, LogScale.toIndex high)

/-- The mean of the samples that are not zero, or zero if all are. -/
def meanOfNonzero [Sample α] (xs : List α) : α :=
  let kept := xs.filter fun x => !Sample.isZero x
  if kept.isEmpty then 0 else kept.foldl (· + ·) 0 / Sample.ofNat kept.length

/-- Every sample replaced by the mean over its window. -/
def smoothed [Sample α] [LogScale α] (buffer : List α) (distance : α) : List α :=
  (List.range buffer.length).map fun t =>
    let (low, high) := smoothWindow t buffer.length distance
    meanOfNonzero ((buffer.take (high + 1)).drop low)

/-! ### Spectra -/

/-- A spectrum value on a logarithmic scale, raised towards the end of the buffer. -/
def compress [Sample α] [LogScale α] (value : α) (index len : Nat) (scale cutoff : α) : α :=
  let one : α := Sample.ofNat 1
  let compressed := LogScale.ln (LogScale.abs value + one) / Sample.ofNat 3
  let boost := Sample.larger (Sample.ofNat index / Sample.ofNat len * scale + (one - cutoff)) one
  compressed * boost

/-- The samples taken in pairs. -/
def toPairs : List α → List (α × α)
  | a :: b :: rest => (a, b) :: toPairs rest
  | _ => []

/-- The buffer as complex numbers, transformed. -/
def fourier [Spectrum α] (buffer : List α) : Except TransformError (List α) :=
  if isBufferLength buffer.length then
    .ok ((Spectrum.forward (toPairs buffer)).flatMap fun p => [p.1, p.2])
  else .error (.notPowerOfTwo buffer.length)

/-- Every value of a spectrum compressed at its place. -/
def compressAll [Sample α] [LogScale α] (scale cutoff : α) (values : List α) : List α :=
  values.zipIdx.map fun p => compress p.1 p.2 values.length scale cutoff

/-- The compressed spectrum of a buffer. -/
def spectrum [Signal α] (buffer : List α) (scale cutoff : α) : Except TransformError (List α) :=
  (fourier buffer).map (compressAll scale cutoff)

end AudioShader
