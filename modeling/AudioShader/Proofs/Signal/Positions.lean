/-
# Positions that numbers stand for

Rounding a number down or up to a whole one moves its rank down or up, and what
is no number stays so. The position of a number that is clamped between zero and
a bound goes by its rank alone, and never falls when the rank grows.

Key definitions: `wholeOf`, `positionOfRank`.
Key theorems: `Single.rank_floor_le`, `Single.rank_le_ceil`, `positionOfRank_mono`,
`Single.toIndex_clamp`.
-/
import AudioShader.Signal.Single
import AudioShader.Proofs.Number.Order

namespace AudioShader

/-! ### The position of a rank -/

/-- The whole part of `m * 2 ^ e`. -/
def wholeOf (m : Nat) (e : Int) : Nat := m * 2 ^ e.toNat / 2 ^ (-e).toNat

theorem wholeOf_mono {m m' : Nat} (h : m ≤ m') (e : Int) : wholeOf m e ≤ wholeOf m' e :=
  Nat.div_le_div_right (Nat.mul_le_mul_right _ h)

theorem wholeOf_double (m : Nat) (e : Int) : wholeOf (2 * m) e = wholeOf m (e + 1) := by
  unfold wholeOf
  rcases Int.lt_or_le e 0 with hneg | hnonneg
  · have hdown : (-e).toNat = (-(e + 1)).toNat + 1 := by omega
    have hup : e.toNat = 0 := by omega
    have hup' : (e + 1).toNat = 0 := by omega
    rw [hdown, hup, hup', Nat.pow_zero, Nat.mul_one, Nat.mul_one, Nat.pow_succ',
      Nat.mul_div_mul_left _ _ (by decide)]
  · have hup : (e + 1).toNat = e.toNat + 1 := by omega
    have hdown : (-e).toNat = 0 := by omega
    have hdown' : (-(e + 1)).toNat = 0 := by omega
    rw [hup, hdown, hdown', Nat.pow_succ', ← Nat.mul_assoc, Nat.mul_comm m]

theorem whole_eq (x : Binary) : x.whole = wholeOf x.mantissa x.exponent := by
  simp only [Binary.whole, Binary.ratioAt, wholeOf, Nat.pow_eq]
  simp

theorem whole_ofBits (b : Nat) : (Binary.ofBits .single b).whole =
    wholeOf ((if b / 2 ^ 23 = 0 then 0 else 2 ^ 23) + b % 2 ^ 23)
      (-149 + (b / 2 ^ 23 - 1 : Nat)) := by
  rw [whole_eq]
  by_cases hfield : b / 2 ^ 23 = 0
  · have hbits : Binary.ofBits .single b = ⟨b % 2 ^ 23, -149, false⟩ := if_pos hfield
    rw [hbits, if_pos hfield, hfield, Nat.zero_add]
    rfl
  · have hbits : Binary.ofBits .single b = ⟨2 ^ 23 + b % 2 ^ 23, -149 + (b / 2 ^ 23 - 1 : Nat),
        b % 2 ^ 23 == 0 && 1 < b / 2 ^ 23⟩ := if_neg hfield
    rw [hbits, if_neg hfield]

/-- The next bits stand for a number that is no less. -/
theorem whole_succ (b : Nat) :
    (Binary.ofBits .single b).whole ≤ (Binary.ofBits .single (b + 1)).whole := by
  rw [whole_ofBits, whole_ofBits]
  rcases Nat.lt_or_ge (b % 2 ^ 23 + 1) (2 ^ 23) with hlt | hge
  · -- the exponent stays
    have hfield : (b + 1) / 2 ^ 23 = b / 2 ^ 23 := by omega
    rw [hfield]
    exact wholeOf_mono (by omega) _
  · have hfield : (b + 1) / 2 ^ 23 = b / 2 ^ 23 + 1 := by omega
    have hrest : (b + 1) % 2 ^ 23 = 0 := by omega
    rw [hfield, hrest, if_neg (Nat.succ_ne_zero _)]
    split
    · next hzero =>
      rw [hzero]
      exact wholeOf_mono (by omega) _
    · next hne =>
      have hexponent : (-149 : Int) + (b / 2 ^ 23 + 1 - 1 : Nat) =
          -149 + (b / 2 ^ 23 - 1 : Nat) + 1 := by omega
      rw [hexponent, ← wholeOf_double]
      exact wholeOf_mono (by omega) _

/-- The position of the nonnegative number of a rank; zero for a negative rank. -/
def positionOfRank (r : Int) : Nat := (Binary.ofBits .single r.toNat).whole

theorem positionOfRank_mono {r r' : Int} (h : r ≤ r') : positionOfRank r ≤ positionOfRank r' :=
  monotone_nat_of_le_succ whole_succ (Int.toNat_le_toNat h)

namespace Single

/-! ### Rounding down and up -/

theorem truncated_le (b : Nat) : truncated b ≤ b := by
  unfold truncated
  dsimp only
  split
  · exact Nat.zero_le _
  · exact Nat.div_mul_le_self _ _

/-- Rounding up is not below the number, and not above infinity. -/
theorem roundedUp_bounds (b : Nat) :
    b ≤ roundedUp b ∧ (b ≤ infinityBits → roundedUp b ≤ infinityBits) := by
  have hinf : infinityBits = 255 * 2 ^ 23 := rfl
  unfold roundedUp
  dsimp only
  split
  · exact ⟨Nat.le_refl _, id⟩
  · next hfraction =>
    split
    · next hsmall =>
      have hsmall' : b / 2 ^ 23 < 127 := hsmall
      omega
    · next hlarge =>
      have hlarge' : ¬b / 2 ^ 23 < 127 := hlarge
      have hcut : truncated b =
          b / 2 ^ (150 - b / 2 ^ 23) * 2 ^ (150 - b / 2 ^ 23) := if_neg hlarge
      have hle := truncated_le b
      have hlt : b < truncated b + 2 ^ (150 - b / 2 ^ 23) := by
        rw [hcut]
        exact Nat.lt_div_mul_add (Nat.two_pow_pos _)
      refine ⟨Nat.le_of_lt hlt, fun _ => ?_⟩
      have hunit : 2 ^ (150 - b / 2 ^ 23) ≤ 2 ^ 23 := Nat.pow_le_pow_right (by decide) (by omega)
      -- a number with a fraction is far below infinity
      have hfield : b / 2 ^ 23 < 150 := by
        by_contra hge
        have hzero : 150 - b / 2 ^ 23 = 0 := by omega
        rw [hzero, Nat.pow_zero, Nat.div_one, Nat.mul_one] at hcut
        exact hfraction hcut
      show truncated b + 2 ^ (150 - b / 2 ^ 23) ≤ infinityBits
      omega

section MapBits

variable {f g : Nat → Nat} (hf : ∀ b, b ≤ infinityBits → f b ≤ infinityBits)
  (hg : ∀ b, b ≤ infinityBits → g b ≤ infinityBits) {x : Float32}

theorem mapBits_of_isNaN (hx : x.isNaN = true) : mapBits f g x = x := if_pos hx

include hf hg in
/-- The rank goes through one function above zero and through the other below. -/
theorem rank_mapBits (hx : x.isNaN = false) :
    rank (mapBits f g x) = if x.toBits.toNat < 2 ^ 31 then (f x.toBits.toNat : Int)
      else -(g (x.toBits.toNat - 2 ^ 31)) := by
  have hlt : x.toBits.toNat < 2 ^ 32 := x.toBits.toBitVec.isLt
  have hbits := (unpack_number hx).1
  have hinf : infinityBits = 255 * 2 ^ 23 := rfl
  have hmap : mapBits f g x = .ofBits (.ofNat (if x.toBits.toNat < 2 ^ 31 then f x.toBits.toNat
      else 2 ^ 31 + g (x.toBits.toNat - 2 ^ 31))) :=
    if_neg (Bool.eq_false_iff.1 hx)
  rw [hmap]
  split
  · have hle := hf x.toBits.toNat (by omega)
    rw [rank_ofBits (by omega) (by omega), rankOfBits, if_pos (by omega)]
  · have hle := hg (x.toBits.toNat - 2 ^ 31) (by omega)
    rw [rank_ofBits (by omega) (by omega), rankOfBits, if_neg (by omega)]
    omega

include hf hg in
theorem number_mapBits (hx : x.isNaN = false) : (mapBits f g x).isNaN = false := by
  have hlt : x.toBits.toNat < 2 ^ 32 := x.toBits.toBitVec.isLt
  have hbits := (unpack_number hx).1
  have hrank := rank_mapBits hf hg hx
  split at hrank
  · have hle := hf x.toBits.toNat (by omega)
    exact number_of_rank (by omega) (by omega)
  · have hle := hg (x.toBits.toNat - 2 ^ 31) (by omega)
    exact number_of_rank (by omega) (by omega)

end MapBits

theorem truncated_le_infinity (b : Nat) (h : b ≤ infinityBits) : truncated b ≤ infinityBits :=
  Nat.le_trans (truncated_le b) h

theorem roundedUp_le_infinity (b : Nat) : b ≤ infinityBits → roundedUp b ≤ infinityBits :=
  (roundedUp_bounds b).2

variable {x y low high : Float32}

theorem number_floor (hx : x.isNaN = false) : (floor x).isNaN = false :=
  number_mapBits truncated_le_infinity roundedUp_le_infinity hx

theorem number_ceil (hx : x.isNaN = false) : (ceil x).isNaN = false :=
  number_mapBits roundedUp_le_infinity truncated_le_infinity hx

theorem rank_floor_le (hx : x.isNaN = false) : rank (floor x) ≤ rank x := by
  rw [floor, rank_mapBits truncated_le_infinity roundedUp_le_infinity hx, rank, rankOfBits]
  have hdown := truncated_le x.toBits.toNat
  have hup := (roundedUp_bounds (x.toBits.toNat - 2 ^ 31)).1
  split <;> omega

theorem rank_le_ceil (hx : x.isNaN = false) : rank x ≤ rank (ceil x) := by
  rw [ceil, rank_mapBits roundedUp_le_infinity truncated_le_infinity hx, rank, rankOfBits]
  have hdown := truncated_le (x.toBits.toNat - 2 ^ 31)
  have hup := (roundedUp_bounds x.toBits.toNat).1
  split <;> omega

/-! ### Clamping -/

theorem clamp_of_isNaN (hx : x.isNaN = true) : clamp low high x = x := by
  rw [clamp, if_neg (not_lt_of_isNaN (.inl hx)), if_neg (not_lt_of_isNaN (.inr hx))]

theorem number_clamp (hlow : low.isNaN = false) (hhigh : high.isNaN = false)
    (hx : x.isNaN = false) : (clamp low high x).isNaN = false := by
  unfold clamp
  split
  · exact hlow
  · split
    · exact hhigh
    · exact hx

theorem rank_clamp (hlow : low.isNaN = false) (hhigh : high.isNaN = false)
    (hle : rank low ≤ rank high) (hx : x.isNaN = false) :
    rank (clamp low high x) = max (rank low) (min (rank high) (rank x)) := by
  simp only [clamp, lt_iff_rank hx hlow, lt_iff_rank hhigh hx]
  split
  · omega
  · split <;> omega

/-! ### Positions -/

theorem toIndex_of_isNaN (hx : x.isNaN = true) : toIndex x = 0 := by
  rw [toIndex, hx]
  rfl

theorem rank_zero : rank 0.0 = 0 := by decide

theorem toIndex_eq (hx : x.isNaN = false) : toIndex x = positionOfRank (rank x) := by
  have hlt : x.toBits.toNat < 2 ^ 32 := x.toBits.toBitVec.isLt
  have hzero : (0.0 : Float32).isNaN = false := by decide
  simp only [toIndex, positionOfRank, hx, Bool.false_or, decide_eq_true_eq,
    lt_iff_rank hx hzero, rank_zero]
  split
  · next hneg =>
    rw [Int.toNat_of_nonpos (Int.le_of_lt hneg)]
    rfl
  · next hpos =>
    have hbits : x.toBits.toNat % (UInt32.size / 2) = (rank x).toNat := by
      show x.toBits.toNat % 2 ^ 31 = _
      unfold rank rankOfBits at hpos ⊢
      split at hpos <;> omega
    rw [Binary.ofFloat32, hbits]

end Single

end AudioShader
