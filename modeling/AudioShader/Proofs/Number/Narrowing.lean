/-
# When narrowing overflows

A finite number of double precision is always narrowed to a number, but not always
to a finite one: half-way from the greatest number of single precision to the power
of two behind it, and beyond, it becomes infinite.

Key definitions: `singleLimit`.
Key theorems: `magnitude_lt_infinity_iff`, `isNaN_narrow`, `isFinite_narrow_iff`.
-/
import AudioShader.Number.Narrowing
import AudioShader.Proofs.Number.Rounding

namespace AudioShader

open Float.Model Float.Model.UnpackedFloat

/-! ### Double precision -/

/-- A number of double precision has at most 53 bits, and all of them unless its
exponent is the least. -/
theorem bounds_of_unpack {b : BitVec 64} {s : Sign} {m : Nat} {e : Int} {hm : 0 < m}
    (h : UnpackedFloat.unpack Format.binary64 b = .finite s m e hm) :
    m < 2 ^ 53 ∧ (2 ^ 52 ≤ m ∨ e = -1074) := by
  have hmlt : (@unpackMantissa Format.binary64 b).toNat < 2 ^ 52 := BitVec.isLt _
  have hlead : (1#1 ++ @unpackMantissa Format.binary64 b).toNat =
      2 ^ 52 + (@unpackMantissa Format.binary64 b).toNat := toNat_leading _
  unfold UnpackedFloat.unpack at h
  dsimp only at h
  split at h
  · split at h <;> cases h
  · split at h
    · next hsub =>
      split at h
      · cases h
      · injection h with hs hm' he
        rw [hsub] at he
        exact ⟨by omega, .inr he.symm⟩
    · injection h with hs hm' he
      rw [hlead] at hm'
      exact ⟨by omega, .inl (by omega)⟩

/-- Half-way from the greatest number of single precision to the power of two
behind it: 2 ^ 128 - 2 ^ 103. -/
def singleLimit : Float := .ofBits 0x47EFFFFFF0000000

theorem unpack_singleLimit :
    singleLimit.toModel.unpack = .finite .positive (2 ^ 53 - 2 ^ 28) 75 (by decide) := rfl

theorem unpack_neg_singleLimit :
    (-singleLimit).toModel.unpack = .finite .negative (2 ^ 53 - 2 ^ 28) 75 (by decide) := rfl

/-- A number in front of a limit has a lesser exponent, or the same and a lesser
mantissa. -/
theorem compare_then_eq_lt_iff {m n : Nat} {e f : Int} :
    (compare e f).then (compare m n) = .lt ↔ e < f ∨ e = f ∧ m < n := by
  rw [Ordering.then_eq_lt, compare_lt_iff_lt, compare_eq_iff_eq, compare_lt_iff_lt]

/-! ### Rounding -/

/-- A mantissa of double precision is rounded to a finite number exactly where it is
in front of the limit. -/
theorem magnitude_lt_infinity_iff {m : Nat} {e : Int} (hm : 0 < m) (hlt : m < 2 ^ 53)
    (hfull : 2 ^ 52 ≤ m ∨ e = -1074) :
    magnitude m e < infinityBits ↔ e < 75 ∨ e = 75 ∧ m < 2 ^ 53 - 2 ^ 28 := by
  have hinf : (infinityBits : Int) = 255 * 2 ^ 23 := rfl
  have hlog : m.log2 < 53 := (Nat.log2_lt (by omega)).2 hlt
  obtain ⟨hunits, hfull'⟩ := units_bounds hm e
  rcases Int.lt_trichotomy e 75 with hless | rfl | hmore
  · -- the exponent that is left is small enough for all mantissas
    have htarget : target m e ≤ 103 := by
      unfold target
      omega
    refine iff_of_true ?_ (.inl hless)
    unfold magnitude
    omega
  · have hcut : magnitude m 75 < infinityBits ↔ m < 2 ^ 53 - 2 ^ 28 := by
      constructor
      · intro hfinite
        by_contra hge
        have hmono := magnitude_mono (by decide) (Nat.not_lt.1 hge) 75
        have hedge : magnitude (2 ^ 53 - 2 ^ 28) 75 = 255 * 2 ^ 23 := by decide +kernel
        omega
      · intro hbelow
        have hmono := magnitude_mono hm (Nat.le_sub_one_of_lt hbelow) 75
        have hedge : magnitude (2 ^ 53 - 2 ^ 28 - 1) 75 = 255 * 2 ^ 23 - 1 := by decide +kernel
        omega
    rw [hcut]
    simp
  · -- a mantissa with all bits is too large here
    have hbits : 52 ≤ m.log2 := (Nat.le_log2 (by omega)).2 (by omega)
    have htarget : 105 ≤ target m e := by
      unfold target
      omega
    refine iff_of_false ?_ (by omega)
    unfold magnitude
    omega

/-! ### Narrowing -/

/-- A number is finite if it lies between the infinities. -/
theorem isFinite_iff_rank {x : Float32} (hx : x.isNaN = false) :
    x.isFinite = true ↔ -(infinityBits : Int) < rank x ∧ rank x < infinityBits := by
  obtain ⟨-, hrounded, hrange, hplace⟩ := unpack_number hx
  change UnpackedFloat.isFinite x.toModel.unpack = true ↔ _
  rw [← hplace]
  generalize x.toModel.unpack = u at hrounded hrange
  cases hrounded with
  | infinity s => cases s <;> decide
  | zero s =>
    have hbetween : -(infinityBits : Int) < 0 ∧ (0 : Int) < infinityBits := by decide
    exact iff_of_true rfl hbetween
  | @finite s m e hpos hm he hfull =>
    obtain ⟨hlo, hhi, hneg⟩ := place_finite hpos hm he hrange
    refine iff_of_true rfl ?_
    cases s with
    | positive => exact ⟨by omega, hhi⟩
    | negative => exact ⟨by omega, by omega⟩

section Narrow

variable {x : Float} {s : Sign} {m : Nat} {e : Int} {hm : 0 < m}

theorem narrow_of_unpack (h : x.toModel.unpack = .finite s m e hm) :
    narrow x = packed (UnpackedFloat.round Format.binary32 s m e) := by
  unfold narrow packed
  rw [h]

/-- A number that is not zero is narrowed to a number of the rank to which its
mantissa is rounded, but not beyond the infinities. -/
theorem rank_narrow (h : x.toModel.unpack = .finite s m e hm) :
    (narrow x).isNaN = false ∧ rank (narrow x) = confine (s.apply (magnitude m e)) := by
  obtain ⟨hrounded, hplace⟩ := round_place s hm e
  rw [narrow_of_unpack h, rank_packed hrounded, hplace]
  exact ⟨number_packed hrounded, rfl⟩

theorem lt_iff_unpack {x y : Float} :
    x < y ↔ x.toModel.unpack.compare y.toModel.unpack = some .lt := by
  change decide (UnpackedFloat.lt x.toModel.unpack y.toModel.unpack = true) = true ↔ _
  rw [decide_eq_true_eq, UnpackedFloat.lt, beq_iff_eq]

/-- A number lies between the limits where its mantissa and exponent do. -/
theorem within_singleLimit_iff (h : x.toModel.unpack = .finite s m e hm) :
    (-singleLimit < x ∧ x < singleLimit) ↔ e < 75 ∨ e = 75 ∧ m < 2 ^ 53 - 2 ^ 28 := by
  rw [lt_iff_unpack, lt_iff_unpack, unpack_neg_singleLimit, unpack_singleLimit, h]
  cases s with
  | positive =>
    have hlow : UnpackedFloat.compare (.finite .negative (2 ^ 53 - 2 ^ 28) 75 (by decide))
        (.finite .positive m e hm) = some .lt := rfl
    have hhigh : UnpackedFloat.compare (.finite .positive m e hm)
        (.finite .positive (2 ^ 53 - 2 ^ 28) 75 (by decide)) =
          some ((compare e 75).then (compare m (2 ^ 53 - 2 ^ 28))) := rfl
    rw [hhigh, Option.some.injEq, compare_then_eq_lt_iff]
    exact and_iff_right hlow
  | negative =>
    have hlow : UnpackedFloat.compare (.finite .negative (2 ^ 53 - 2 ^ 28) 75 (by decide))
        (.finite .negative m e hm) =
          some ((compare 75 e).then (compare (2 ^ 53 - 2 ^ 28) m)).swap := rfl
    have hhigh : UnpackedFloat.compare (.finite .negative m e hm)
        (.finite .positive (2 ^ 53 - 2 ^ 28) 75 (by decide)) = some .lt := rfl
    rw [hlow, Option.some.injEq, Ordering.swap_then, Int.compare_swap, Nat.compare_swap,
      compare_then_eq_lt_iff]
    exact and_iff_left hhigh

/-- A finite number that is not zero has a mantissa and an exponent. -/
theorem unpack_of_isFinite (hx : x.isFinite = true) : (∃ s, x.toModel.unpack = .zero s) ∨
    ∃ s m e hm, x.toModel.unpack = .finite s m e hm := by
  have hfinite : x.toModel.unpack.isFinite = true := hx
  cases hu : x.toModel.unpack with
  | notANumber | infinity =>
    rw [hu] at hfinite
    cases hfinite
  | zero s => exact .inl ⟨s, rfl⟩
  | finite s m e hm => exact .inr ⟨s, m, e, hm, rfl⟩

theorem narrow_of_zero (h : x.toModel.unpack = .zero s) : narrow x = packed (.zero s) := by
  unfold narrow packed
  rw [h]

/-- A finite number is narrowed to a number. -/
theorem isNaN_narrow (hx : x.isFinite = true) : (narrow x).isNaN = false := by
  rcases unpack_of_isFinite hx with ⟨s, hzero⟩ | ⟨s, m, e, hm, hunpack⟩
  · rw [narrow_of_zero hzero]
    exact number_packed (.zero s)
  · exact (rank_narrow hunpack).1

/-- **Narrowing overflows from half-way to the next power of two on.** -/
theorem isFinite_narrow_iff (hx : x.isFinite = true) :
    (narrow x).isFinite = true ↔ -singleLimit < x ∧ x < singleLimit := by
  have hinf : (infinityBits : Int) = 255 * 2 ^ 23 := rfl
  rw [isFinite_iff_rank (isNaN_narrow hx)]
  rcases unpack_of_isFinite hx with ⟨s, hzero⟩ | ⟨s, m, e, hm, hunpack⟩
  · refine iff_of_true ?_ ?_
    · rw [narrow_of_zero hzero, rank_packed (.zero s)]
      change -(infinityBits : Int) < confine 0 ∧ confine 0 < infinityBits
      decide
    · rw [lt_iff_unpack, lt_iff_unpack, unpack_neg_singleLimit, unpack_singleLimit, hzero]
      exact ⟨rfl, rfl⟩
  · obtain ⟨hlt, hfull⟩ := bounds_of_unpack hunpack
    have hnonneg := magnitude_nonneg m e
    rw [within_singleLimit_iff hunpack, ← magnitude_lt_infinity_iff hm hlt hfull,
      (rank_narrow hunpack).2]
    unfold confine
    cases s with
    | positive =>
      rw [Sign.apply]
      omega
    | negative =>
      rw [Sign.apply]
      omega

end Narrow

end AudioShader
