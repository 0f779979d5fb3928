/-
# Lengths of single-precision spectra

The fast transform of a number of samples that is a power of two gives as many
numbers, so on single-precision samples no step of a chain fails for the length
of its buffer.

Key theorems: `Single.length_transform`, `spectrumKeeps_single`.
-/
import AudioShader.Proofs.Signal.Ready
import AudioShader.Signal.Single

namespace AudioShader
namespace Single

theorem length_parityHalves {α : Type} : ∀ (n : Nat) {xs : List α}, xs.length = 2 * n →
    (parityHalves xs).1.length = n ∧ (parityHalves xs).2.length = n
  | 0, [], _ => ⟨rfl, rfl⟩
  | n + 1, a :: b :: xs, h => by
    have hxs : xs.length = 2 * n := by
      simp only [List.length_cons] at h
      omega
    obtain ⟨heven, hodd⟩ := length_parityHalves n hxs
    exact ⟨congrArg (· + 1) heven, congrArg (· + 1) hodd⟩
  | n + 1, [_], h => by
    simp only [List.length_cons, List.length_nil] at h
    omega

theorem length_transform : ∀ (levels : Nat) {xs : List Phasor}, xs.length = 2 ^ levels →
    (transform levels xs).length = 2 ^ levels
  | 0, _, h => h
  | levels + 1, xs, h => by
    rw [Nat.pow_succ'] at h
    obtain ⟨heven, hodd⟩ := length_parityHalves _ h
    simp only [transform, List.length_append, List.length_zipWith, List.length_map,
      List.length_zipIdx, length_transform levels heven, length_transform levels hodd, Nat.min_self]
    rw [Nat.pow_succ', Nat.two_mul]

end Single

/-- A buffer length is a power of two with at least one pair. -/
theorem exists_pow_of_isBufferLength {n : Nat} (h : isBufferLength n = true) :
    ∃ levels, n = 2 * 2 ^ levels := by
  rw [isBufferLength, Bool.and_eq_true, decide_eq_true_eq, beq_iff_eq] at h
  obtain ⟨htwo, hpow⟩ := h
  have hlog : 1 ≤ n.log2 := (Nat.le_log2 (by omega)).2 (by simpa using htwo)
  refine ⟨n.log2 - 1, ?_⟩
  conv_lhs => rw [← hpow, Nat.pow_eq, ← Nat.sub_add_cancel hlog, Nat.pow_succ']

theorem length_flatMap_pair {α : Type} : ∀ ps : List (α × α),
    (ps.flatMap fun p => [p.1, p.2]).length = 2 * ps.length
  | [] => rfl
  | p :: ps => by
    rw [List.flatMap_cons, List.length_append, length_flatMap_pair ps, List.length_cons]
    simp only [List.length_cons, List.length_nil]
    omega

theorem spectrumKeeps_single {len : Nat} (h : isBufferLength len = true) :
    SpectrumKeeps Float32 len := by
  intro buffer hb scale cutoff
  obtain ⟨levels, hlevels⟩ := exists_pow_of_isBufferLength h
  have hpairs : (toPairs buffer).length = 2 ^ levels := by
    rw [length_toPairs, hb, hlevels]
    omega
  have hforward : (Single.forward (toPairs buffer)).length = 2 ^ levels := by
    rw [Single.forward, List.length_map, hpairs, Nat.log2_two_pow]
    exact Single.length_transform levels (by rw [List.length_map, hpairs])
  refine ⟨_, by rw [spectrum, fourier, hb, if_pos h]; rfl, ?_⟩
  rw [length_compressAll, length_flatMap_pair]
  exact (congrArg (2 * ·) hforward).trans hlevels.symm

end AudioShader
