/-
# Laws of samples

What is taken for granted of the numbers that samples are: that any two can be
compared, and that the fast Fourier transform gives what its definition says.
Real numbers obey both.

Key definitions: `ForwardMatches`, `OrderedSamples`, and the instance `Signal ℝ`.
Key theorems: `forwardMatches_real`, `orderedSamples_real`.
-/
import Mathlib.Algebra.Order.Floor.Ring
import Mathlib.Analysis.SpecialFunctions.Log.Basic
import Mathlib.Analysis.SpecialFunctions.Trigonometric.Basic
import AudioShader.Signal.Reshape

namespace AudioShader

/-- On buffers of `len` samples the fast transform puts every number where it is
computed by itself. -/
def ForwardMatches (α : Type) [Signal α] (len : Nat) : Prop :=
  ∀ buffer : List α, buffer.length = len →
    (Spectrum.forward (toPairs buffer)).flatMap (fun p => [p.1, p.2]) =
      (List.range len).map (Spectrum.texel buffer)

/-- Any two samples can be compared, and `larger` gives the larger one. -/
structure OrderedSamples (α : Type) [Sample α] : Prop where
  total : ∀ a b : α, Sample.atMost a b = true ∨ Sample.atMost b a = true
  larger_left : ∀ a b : α, Sample.atMost b a = true → Sample.larger a b = a
  larger_right : ∀ a b : α, Sample.atMost a b = true → Sample.larger a b = b

/-! ### Real samples -/

/-- A bin of the Fourier transform of complex samples. -/
noncomputable def exactBin (pairs : List (ℝ × ℝ)) (bin : ℕ) : ℂ :=
  (pairs.zipIdx.map fun q =>
    (⟨q.1.1, q.1.2⟩ : ℂ) * Complex.exp (-2 * Real.pi * Complex.I * bin * q.2 / pairs.length)).sum

noncomputable instance : Signal ℝ where
  ofNat n := n
  atMost a b := decide (a ≤ b)
  isZero a := decide (a = 0)
  larger := max
  taper index len :=
    if len < 2 then 1 else 0.53836 - 0.46164 * Real.cos (2 * Real.pi * index / (len - 1))
  hann age frames :=
    if frames < 2 then 1 else 0.5 - 0.5 * Real.cos (2 * Real.pi * (age + 1) / (frames + 1))
  abs := abs
  ln := Real.log
  exp := Real.exp
  floor x := ⌊x⌋
  ceil x := ⌈x⌉
  clamp low high x := if x < low then low else if high < x then high else x
  toIndex := Nat.floor
  forward pairs := (List.range pairs.length).map fun bin =>
    ((exactBin pairs bin).re, (exactBin pairs bin).im)
  texel input texel :=
    if texel % 2 = 0 then (exactBin (toPairs input) (texel / 2)).re
    else (exactBin (toPairs input) (texel / 2)).im

theorem orderedSamples_real : OrderedSamples ℝ where
  total a b := by
    rcases le_total a b with h | h
    · exact .inl (decide_eq_true h)
    · exact .inr (decide_eq_true h)
  larger_left a b h := max_eq_left (of_decide_eq_true h)
  larger_right a b h := max_eq_right (of_decide_eq_true h)

theorem length_toPairs {α : Type} : ∀ xs : List α, (toPairs xs).length = xs.length / 2
  | [] => by simp [toPairs]
  | [_] => by simp [toPairs]
  | a :: b :: xs => by
    rw [toPairs, List.length_cons, length_toPairs xs, List.length_cons, List.length_cons]
    omega

theorem flatMap_range_pairs {β : Type} (f : Nat → β) (n : Nat) :
    (List.range n).flatMap (fun i => [f (2 * i), f (2 * i + 1)]) = (List.range (2 * n)).map f := by
  induction n with
  | zero => rfl
  | succ n ih =>
    have hrange : List.range (2 * (n + 1)) = List.range (2 * n) ++ [2 * n, 2 * n + 1] := by
      rw [Nat.mul_succ, List.range_succ, List.range_succ, List.append_assoc]
      rfl
    rw [List.range_succ, List.flatMap_append, ih, hrange, List.map_append]
    rfl

theorem two_mul_half_of_isBufferLength {n : Nat} (h : isBufferLength n = true) : 2 * (n / 2) = n := by
  rw [isBufferLength, Bool.and_eq_true, decide_eq_true_eq, beq_iff_eq] at h
  obtain ⟨htwo, hpow⟩ := h
  have hlog : n.log2 = n.log2 - 1 + 1 := by
    have : 1 ≤ n.log2 := (Nat.le_log2 (by omega)).2 (by simpa using htwo)
    omega
  have heven : n = 2 * 2 ^ (n.log2 - 1) := by
    conv_lhs => rw [← hpow, Nat.pow_eq, hlog, pow_succ, Nat.mul_comm]
  omega

theorem texel_even (input : List ℝ) (bin : Nat) :
    Spectrum.texel input (2 * bin) = (exactBin (toPairs input) bin).re := by
  have heven : 2 * bin % 2 = 0 := by omega
  have hhalf : 2 * bin / 2 = bin := by omega
  simp only [Spectrum.texel, heven, hhalf, if_true]

theorem texel_odd (input : List ℝ) (bin : Nat) :
    Spectrum.texel input (2 * bin + 1) = (exactBin (toPairs input) bin).im := by
  have hodd : (2 * bin + 1) % 2 ≠ 0 := by omega
  have hhalf : (2 * bin + 1) / 2 = bin := by omega
  simp only [Spectrum.texel, if_neg hodd, hhalf]

/-- Taken together or one by one, the bins of real samples are the same. -/
theorem forwardMatches_real {len : Nat} (h : isBufferLength len = true) : ForwardMatches ℝ len := by
  intro buffer hb
  have hlen : 2 * (toPairs buffer).length = len := by
    rw [length_toPairs, hb, two_mul_half_of_isBufferLength h]
  have hpairs := flatMap_range_pairs (Spectrum.texel buffer) (toPairs buffer).length
  rw [hlen] at hpairs
  rw [← hpairs]
  simp only [Spectrum.forward, List.flatMap_map, texel_even, texel_odd]

end AudioShader
