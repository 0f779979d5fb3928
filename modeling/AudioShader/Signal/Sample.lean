/-
# Samples

What the transforms ask of the numbers they work on. Transforms are written for
any such numbers, so that they can be run on single-precision samples and
reasoned about in exact arithmetic.

Key definitions: `Sample`, `Weights`, `LogScale`, `Spectrum`, `Signal`.
-/

namespace AudioShader

/-- Numbers that samples are: they can be added, scaled and compared. -/
class Sample (α : Type) extends Zero α, Add α, Sub α, Mul α, Div α where
  ofNat : Nat → α
  /-- Whether the first number is at most the second. -/
  atMost : α → α → Bool
  /-- Whether the number is zero. -/
  isZero : α → Bool
  /-- The larger of two numbers. -/
  larger : α → α → α

/-- The bell-shaped weights that frames and buffers are multiplied with. -/
class Weights (α : Type) where
  /-- The weight at `index` of a buffer of `len` samples. -/
  taper : (index len : Nat) → α
  /-- The weight of the frame of an age, counted from the oldest, among `frames`. -/
  hann : (age frames : Nat) → α

/-- Logarithms, and going from numbers to positions in a buffer. -/
class LogScale (α : Type) where
  abs : α → α
  ln : α → α
  exp : α → α
  floor : α → α
  ceil : α → α
  /-- The number, but at least the first bound and at most the second. -/
  clamp : (low high x : α) → α
  /-- The position that a nonnegative whole number stands for. -/
  toIndex : α → Nat

/-- The discrete Fourier transform of complex samples. -/
class Spectrum (α : Type) where
  /-- All bins at once. -/
  forward : List (α × α) → List (α × α)
  /-- One number of the result, computed by itself: the real part of bin
  `texel / 2` for an even texel, the imaginary part for an odd one. -/
  texel : List α → (texel : Nat) → α

/-- Numbers that all transforms can work on. -/
class Signal (α : Type) extends Sample α, Weights α, LogScale α, Spectrum α

end AudioShader
