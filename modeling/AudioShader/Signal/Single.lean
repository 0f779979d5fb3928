/-
# Single-precision samples

The numbers that transforms run on. Weights and spectra are computed in double
precision and rounded once.

Key definitions: `Single.taperWeight`, `Single.hannWeight`, `Single.transform`,
`Single.directTexel`, `Single.floor`, `Single.ceil`, `Single.scale`, and the
instance `Signal Float32`.
-/
import AudioShader.Number.Decimal
import AudioShader.Signal.Sample

namespace AudioShader
namespace Single

/-- The ratio of a circle's circumference to its diameter. -/
def circleRatio : Float := 3.141592653589793

/-- The weight of a window that rises from about 0.08 to one and falls again. -/
def taperWeight (index len : Nat) : Float32 :=
  if len < 2 then 1.0
  else
    let phase := 2.0 * circleRatio * Float.ofNat index / (Float.ofNat len - 1.0)
    (0.53836 - 0.46164 * Float.cos phase).toFloat32

/-- The weight of the frame of an age among `frames`. The window has two points
more than there are frames, its zero ends, so that every frame counts. -/
def hannWeight (age frames : Nat) : Float32 :=
  if frames < 2 then 1.0
  else
    let phase := 2.0 * circleRatio * (Float.ofNat age + 1.0) / (Float.ofNat frames + 1.0)
    (0.5 - 0.5 * Float.cos phase).toFloat32

/-! ### Fourier transforms -/

/-- A complex number. -/
structure Phasor where
  re : Float
  im : Float

namespace Phasor

def add (a b : Phasor) : Phasor := ⟨a.re + b.re, a.im + b.im⟩

def sub (a b : Phasor) : Phasor := ⟨a.re - b.re, a.im - b.im⟩

def mul (a b : Phasor) : Phasor := ⟨a.re * b.re - a.im * b.im, a.re * b.im + a.im * b.re⟩

/-- The unit number at the angle of `j / n` turns, clockwise. -/
def turn (j n : Nat) : Phasor :=
  let angle := -2.0 * circleRatio * Float.ofNat j / Float.ofNat n
  ⟨Float.cos angle, Float.sin angle⟩

end Phasor

/-- The elements at even and at odd places. -/
def parityHalves {α : Type} : List α → List α × List α
  | [] => ([], [])
  | [a] => ([a], [])
  | a :: b :: rest => (a :: (parityHalves rest).1, b :: (parityHalves rest).2)

/-- The transform of `2 ^ levels` numbers from those of its halves. -/
def transform : (levels : Nat) → List Phasor → List Phasor
  | 0, xs => xs
  | levels + 1, xs =>
    let (evens, odds) := parityHalves xs
    let n := Nat.pow 2 (levels + 1)
    let low := transform levels evens
    let high := (transform levels odds).zipIdx.map fun p => p.1.mul (.turn p.2 n)
    low.zipWith Phasor.add high ++ low.zipWith Phasor.sub high

/-- The bins of complex samples, whose number is a power of two. -/
def forward (pairs : List (Float32 × Float32)) : List (Float32 × Float32) :=
  (transform pairs.length.log2 (pairs.map fun p => ⟨p.1.toFloat, p.2.toFloat⟩)).map fun z =>
    (z.re.toFloat32, z.im.toFloat32)

/-- The sum of a bin over the pairs from the `j`th on, added to `sum`. -/
def directSum (bin : Float) (pairs : Nat) : (j : Nat) → List Float32 → Phasor → Phasor
  | j, re :: im :: rest, sum =>
    let angle := -2.0 * circleRatio * bin * Float.ofNat j / Float.ofNat pairs
    let turned := (Phasor.mk re.toFloat im.toFloat).mul ⟨Float.cos angle, Float.sin angle⟩
    directSum bin pairs (j + 1) rest (sum.add turned)
  | _, _, sum => sum

/-- One number of the transform, computed by itself. -/
def directTexel (input : List Float32) (texel : Nat) : Float32 :=
  let pairs := input.length / 2
  if pairs = 0 then 0.0
  else
    let sum := directSum (Float.ofNat (texel / 2)) pairs 0 input ⟨0.0, 0.0⟩
    (if texel % 2 = 0 then sum.re else sum.im).toFloat32

/-! ### Comparing and rounding -/

/-- The larger number; one that is no number does not count. -/
def larger (a b : Float32) : Float32 :=
  if a.isNaN then b else if b.isNaN then a else if a < b then b else a

/-- The number, but at least `low` and at most `high`. -/
def clamp (low high x : Float32) : Float32 :=
  if x < low then low else if high < x then high else x

/-- The bits of a nonnegative number, those of its fraction cleared. -/
def truncated (bits : Nat) : Nat :=
  let exponent := bits / Nat.pow 2 23
  if exponent < 127 then 0
  else bits / Nat.pow 2 (150 - exponent) * Nat.pow 2 (150 - exponent)

/-- The bits of the least whole number that is not below a nonnegative number.
The bits of one more follow those of a whole number by a unit of its fraction. -/
def roundedUp (bits : Nat) : Nat :=
  let exponent := bits / Nat.pow 2 23
  if truncated bits = bits then bits
  else if exponent < 127 then 0x3F800000
  else truncated bits + Nat.pow 2 (150 - exponent)

/-- The number with `onPositive` done to the bits of one that is not negative, and
`onNegative` to those of any other without its sign. -/
def mapBits (onPositive onNegative : Nat → Nat) (x : Float32) : Float32 :=
  let bits := x.toBits.toNat
  let sign := UInt32.size / 2
  if x.isNaN then x
  else .ofBits (.ofNat (if bits < sign then onPositive bits else sign + onNegative (bits - sign)))

/-- The greatest whole number that is at most a number. -/
def floor : Float32 → Float32 := mapBits truncated roundedUp

/-- The least whole number that is at least a number. -/
def ceil : Float32 → Float32 := mapBits roundedUp truncated

/-- The position of a nonnegative number; zero for what is no number. -/
def toIndex (x : Float32) : Nat :=
  if x.isNaN || x < 0.0 then 0
  else (Binary.ofFloat32 x).whole

/-- The logarithmic scale of a logarithm and an exponential function. -/
@[reducible]
def scale (ln exp : Float32 → Float32) : LogScale Float32 where
  abs := Float32.abs
  ln := ln
  exp := exp
  floor := floor
  ceil := ceil
  clamp := clamp
  toIndex := toIndex

end Single

instance : Signal Float32 where
  toLogScale := Single.scale Float32.log Float32.exp
  zero := 0.0
  ofNat := Float32.ofNat
  atMost a b := a ≤ b
  isZero a := a == 0.0
  larger := Single.larger
  taper := Single.taperWeight
  hann := Single.hannWeight
  forward := Single.forward
  texel := Single.directTexel

end AudioShader
