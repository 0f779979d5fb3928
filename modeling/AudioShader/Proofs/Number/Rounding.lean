/-
# Rounding in single precision keeps the order

A mantissa with an exponent is rounded to whole units of the exponent that leaves
it 24 bits. More of the same unit is rounded to no less: either the exponents for
both are the same, and then so is the way they are cut, or the greater one has a
greater exponent, which alone is worth all bits of a mantissa. So a difference
never gets above the sum of the same two numbers, if the second is not negative.

Key definitions: `level`, `target`, `units`, `magnitude`.
Key theorems: `round_place`, `magnitude_mono`, `normalize_mono`, `sub_le_add`,
`sub_infinity`.
-/
import AudioShader.Proofs.Number.Order

namespace AudioShader

open Float.Model Float.Model.UnpackedFloat

/-! ### Rounding -/

/-- What an extended mantissa is in quarters of a unit, and a bit that tells
whether there is something less. -/
def level (em : ExtendedMantissa) : Nat :=
  4 * em.mantissa + 2 * em.roundBit.toNat + em.stickyBit.toNat

theorem level_shiftRightOne (em : ExtendedMantissa) :
    level em.shiftRightOne = 2 * (level em / 4) + min 1 (level em % 4) := by
  obtain ⟨m, round, sticky⟩ := em
  have hlow : (m % 2 != 0).toNat = m % 2 := by
    rcases Nat.mod_two_eq_zero_or_one m with hm | hm <;> rw [hm] <;> rfl
  simp only [level, ExtendedMantissa.shiftRightOne, hlow]
  cases round <;> cases sticky <;>
    simp only [Bool.or_false, Bool.or_true, Bool.toNat_true, Bool.toNat_false] <;> omega

theorem level_shiftRight_mono {em em' : ExtendedMantissa} (h : level em ≤ level em') (k : Nat) :
    level (em >>> k) ≤ level (em' >>> k) := by
  induction k with
  | zero => exact h
  | succ k ih =>
    show level (em >>> k).shiftRightOne ≤ level (em' >>> k).shiftRightOne
    rw [level_shiftRightOne, level_shiftRightOne]
    omega

/-- To the nearest unit, and half-way to the even one. -/
def roundedLevel (v : Nat) : Nat := (v + 1 + v / 4 % 2) / 4

theorem roundedLevel_mono {v w : Nat} (h : v ≤ w) : roundedLevel v ≤ roundedLevel w := by
  unfold roundedLevel
  rcases Nat.lt_or_ge (v / 4) (w / 4) with hlt | hge
  · have hv : (v + 1 + v / 4 % 2) / 4 ≤ v / 4 + 1 := by omega
    have hw : w / 4 ≤ (w + 1 + w / 4 % 2) / 4 := by omega
    omega
  · have heq : w / 4 = v / 4 := by omega
    rw [heq]
    exact Nat.div_le_div_right (by omega)

theorem roundedMantissa_eq (em : ExtendedMantissa) :
    em.roundedMantissa = roundedLevel (level em) := by
  obtain ⟨m, round, sticky⟩ := em
  have h₀ : 4 * m / 4 = m := by omega
  have h₁ : (4 * m + 1) / 4 = m := by omega
  have h₂ : (4 * m + 2) / 4 = m := by omega
  have h₃ : (4 * m + 2 + 1) / 4 = m := by omega
  cases round <;> cases sticky <;>
    simp only [roundedLevel, level, ExtendedMantissa.roundedMantissa, ExtendedMantissa.accuracy,
      Accuracy.roundToNearestEven, Bool.toNat_true, Bool.toNat_false, Nat.mul_zero, Nat.mul_one,
      Nat.add_zero, h₀, h₁, h₂, h₃] <;> omega

theorem roundedMantissa_mono {em em' : ExtendedMantissa} (h : level em ≤ level em') :
    em.roundedMantissa ≤ em'.roundedMantissa := by
  rw [roundedMantissa_eq, roundedMantissa_eq]
  exact roundedLevel_mono h

/-- The exponent that a rounded number gets, before rounding makes it overflow. -/
def target (m : Nat) (e : Int) : Int := max (m.log2 + 1 + e - 24) (-149)

/-- A number in units of an exponent, with what is left over. -/
def shifted (m : Nat) (e t : Int) : ExtendedMantissa :=
  ExtendedMantissa.ofMantissaAndAccuracy (m <<< (e - t).toNat) .exact >>> (t - e).toNat

/-- A number in units of an exponent, rounded to the nearest one. -/
def units (m : Nat) (e t : Int) : Nat := (shifted m e t).roundedMantissa

theorem targetExponent_total (m : Nat) (e : Int) :
    Format.binary32.targetExponent (totalExponent m e) = target m e := rfl

theorem units_mono {m m' : Nat} (h : m ≤ m') (e t : Int) : units m e t ≤ units m' e t := by
  refine roundedMantissa_mono (level_shiftRight_mono ?_ _)
  rw [Nat.shiftLeft_eq, Nat.shiftLeft_eq]
  have hmul := Nat.mul_le_mul_right (2 ^ (e - t).toNat) h
  simp only [level, ExtendedMantissa.ofMantissaAndAccuracy, Bool.toNat_false]
  omega

theorem mantissa_shifted (m : Nat) (e t : Int) :
    (shifted m e t).mantissa = m * 2 ^ (e - t).toNat / 2 ^ (t - e).toNat := by
  rw [shifted, mantissa_shiftRight, mantissa_ofMantissaAndAccuracy, Nat.shiftLeft_eq]

/-- A number has 24 bits in units of its exponent, or fewer if that is the least. -/
theorem units_bounds {m : Nat} (hm : 0 < m) (e : Int) :
    units m e (target m e) ≤ 2 ^ 24 ∧
      (2 ^ 23 ≤ units m e (target m e) ∨ target m e = -149) := by
  have hlow := Nat.log2_self_le (Nat.ne_of_gt hm)
  have hhigh : m < 2 ^ (m.log2 + 1) := Nat.lt_log2_self
  obtain ⟨hup, hdown⟩ := roundedMantissa_bounds (shifted m e (target m e))
  rw [mantissa_shifted] at hup hdown
  change _ ≤ units m e (target m e) at hup
  change units m e (target m e) ≤ _ at hdown
  have hcut : m * 2 ^ (e - target m e).toNat / 2 ^ (target m e - e).toNat < 2 ^ 24 := by
    have hbits : m.log2 + 1 + (e - target m e).toNat ≤ 24 + (target m e - e).toNat := by
      unfold target
      omega
    rw [Nat.div_lt_iff_lt_mul (Nat.two_pow_pos _)]
    calc m * 2 ^ (e - target m e).toNat
        < 2 ^ (m.log2 + 1) * 2 ^ (e - target m e).toNat :=
          Nat.mul_lt_mul_of_pos_right hhigh (Nat.two_pow_pos _)
      _ = 2 ^ (m.log2 + 1 + (e - target m e).toNat) := (Nat.pow_add ..).symm
      _ ≤ 2 ^ (24 + (target m e - e).toNat) := Nat.pow_le_pow_right (by decide) hbits
      _ = 2 ^ 24 * 2 ^ (target m e - e).toNat := Nat.pow_add ..
  refine ⟨by omega, ?_⟩
  by_cases hleast : target m e = -149
  · exact .inr hleast
  · have hbits : 23 + (target m e - e).toNat ≤ m.log2 + (e - target m e).toNat := by
      unfold target at *
      omega
    refine .inl (Nat.le_trans ?_ hup)
    rw [Nat.le_div_iff_mul_le (Nat.two_pow_pos _), ← Nat.pow_add]
    calc 2 ^ (23 + (target m e - e).toNat)
        ≤ 2 ^ (m.log2 + (e - target m e).toNat) := Nat.pow_le_pow_right (by decide) hbits
      _ = 2 ^ m.log2 * 2 ^ (e - target m e).toNat := Nat.pow_add ..
      _ ≤ m * 2 ^ (e - target m e).toNat := Nat.mul_le_mul_right _ hlow

/-- A mantissa that rounding has made overflow loses the bit again, and no other. -/
theorem shiftToTargetExponent_exact {r : Nat} {t : Int} (hr : r ≤ 2 ^ 24) (ht : -149 ≤ t) :
    shiftToTargetExponent Format.binary32 r t .exact =
      if r < 2 ^ 24 then (⟨r, false, false⟩, t) else (⟨2 ^ 23, false, false⟩, t + 1) := by
  unfold shiftToTargetExponent shiftToExponent
  dsimp only
  rw [targetExponent_total]
  split
  · next hlt =>
    have hlog : r.log2 ≤ 23 := by
      rcases Nat.eq_zero_or_pos r with rfl | hpos
      · decide
      · exact Nat.le_of_lt_succ ((Nat.log2_lt (Nat.ne_of_gt hpos)).2 hlt)
    have hshift : (target r t - t).toNat = 0 := by
      unfold target
      omega
    rw [hshift, Int.natCast_zero, Int.add_zero]
    rfl
  · next hge =>
    have heq : r = 2 ^ 24 := by omega
    subst heq
    have hshift : (target (2 ^ 24) t - t).toNat = 1 := by
      have hlog : (2 ^ 24 : Nat).log2 = 24 := Nat.log2_two_pow
      unfold target
      omega
    rw [hshift]
    rfl

/-- How far from zero rounding puts a mantissa with an exponent. -/
def magnitude (m : Nat) (e : Int) : Int := (target m e + 149) * 2 ^ 23 + units m e (target m e)

theorem magnitude_nonneg (m : Nat) (e : Int) : 0 ≤ magnitude m e := by
  unfold magnitude target
  omega

/-- More of the same unit is rounded to no less, also when it takes more bits. -/
theorem magnitude_mono {m m' : Nat} (hm : 0 < m) (h : m ≤ m') (e : Int) :
    magnitude m e ≤ magnitude m' e := by
  have hlog : m.log2 ≤ m'.log2 :=
    (Nat.le_log2 (by omega)).2 (Nat.le_trans (Nat.log2_self_le (by omega)) h)
  have htarget : target m e ≤ target m' e := by
    unfold target
    omega
  unfold magnitude
  rcases Int.lt_or_eq_of_le htarget with hlt | heq
  · -- what the greater exponent gains is as much as all bits of the mantissa
    have hle := (units_bounds hm e).1
    have hfull := (units_bounds (Nat.lt_of_lt_of_le hm h) e).2
    have hleast : -149 ≤ target m e := le_max_right _ _
    omega
  · have hunits := units_mono h e (target m e)
    rw [← heq]
    omega

/-- A mantissa that is first widened to its bits is then cut to its units. -/
theorem shiftToTargetExponent_widened {m : Nat} (hm : 0 < m) (e : Int) :
    shiftToTargetExponent Format.binary32 (m <<< (e - target m e).toNat)
        (e - (e - target m e).toNat) .exact = (shifted m e (target m e), target m e) := by
  have hsame : target (m <<< (e - target m e).toNat) (e - (e - target m e).toNat) =
      target m e := by
    unfold target
    rw [log2_shiftLeft (Nat.ne_of_gt hm)]
    push_cast
    congr 1
    omega
  have hshift : (target m e - (e - (e - target m e).toNat)).toNat = (target m e - e).toNat := by
    omega
  have hexp : e - ((e - target m e).toNat : Int) + (target m e - e).toNat = target m e := by omega
  unfold shiftToTargetExponent shiftToExponent
  dsimp only
  rw [targetExponent_total, hsame, hshift, hexp]
  rfl

/-- **Rounding is told by the units that it gives**, at the exponent for them. -/
theorem round_place (s : Sign) {m : Nat} (hm : 0 < m) (e : Int) :
    Rounded (UnpackedFloat.round Format.binary32 s m e) ∧
      place (UnpackedFloat.round Format.binary32 s m e) = s.apply (magnitude m e) := by
  unfold magnitude
  obtain ⟨hunits, hfull⟩ := units_bounds hm e
  have ht : -149 ≤ target m e := le_max_right _ _
  have hround : UnpackedFloat.round Format.binary32 s m e =
      (let (em, e') :=
         shiftToTargetExponent Format.binary32 (units m e (target m e)) (target m e) .exact
       if h : em.mantissa = 0 then .zero s
       else .finite s em.mantissa e' (Nat.pos_of_ne_zero h)) := by
    unfold UnpackedFloat.round decreaseExponent roundWithAccuracy
    dsimp only
    rw [targetExponent_total, shiftToTargetExponent_widened hm]
    rfl
  rw [hround, shiftToTargetExponent_exact hunits ht]
  by_cases hlt : units m e (target m e) < 2 ^ 24
  · rw [if_pos hlt]
    by_cases hzero : units m e (target m e) = 0
    · have hleast : target m e = -149 := by omega
      show Rounded (dite _ _ _) ∧ place (dite _ _ _) = _
      rw [dif_pos hzero, hzero, hleast]
      refine ⟨.zero s, ?_⟩
      cases s <;> rfl
    · show Rounded (dite _ _ _) ∧ place (dite _ _ _) = _
      rw [dif_neg hzero]
      exact ⟨.finite hlt ht hfull, rfl⟩
  · have htop : units m e (target m e) = 2 ^ 24 := by omega
    rw [if_neg hlt, htop]
    show Rounded (dite _ _ _) ∧ place (dite _ _ _) = _
    rw [dif_neg (by decide)]
    refine ⟨.finite (by decide) (by omega) (.inl (Nat.le_refl _)), congrArg s.apply ?_⟩
    show (target m e + 1 + 149) * 2 ^ 23 + ((2 ^ 23 : Nat) : Int) = _
    omega

/-- The rank of a whole number of units of an exponent, when rounded. -/
theorem normalize_place (n e : Int) (s : Sign) :
    Rounded (normalize Format.binary32 n e s) ∧ place (normalize Format.binary32 n e s) =
      if 0 < n then magnitude n.toNat e else if n < 0 then -magnitude (-n).toNat e else 0 := by
  unfold UnpackedFloat.normalize
  rcases Int.lt_trichotomy n 0 with hneg | rfl | hpos
  · rw [compare_lt_iff_lt.2 hneg, if_neg (by omega), if_pos hneg]
    exact round_place .negative (by omega) e
  · exact ⟨.zero s, rfl⟩
  · rw [compare_gt_iff_gt.2 hpos, if_pos hpos]
    exact round_place .positive (by omega) e

theorem normalize_mono {n n' : Int} (h : n ≤ n') (e : Int) (s s' : Sign) :
    place (normalize Format.binary32 n e s) ≤ place (normalize Format.binary32 n' e s') := by
  rw [(normalize_place n e s).2, (normalize_place n' e s').2]
  have hnonneg := magnitude_nonneg n.toNat e
  have hnonneg' := magnitude_nonneg n'.toNat e
  have hnonneg'' := magnitude_nonneg (-n).toNat e
  split
  · rw [if_pos (by omega)]
    exact magnitude_mono (by omega) (by omega) e
  · split
    · split
      · omega
      · split
        · have hmirror : magnitude (-n').toNat e ≤ magnitude (-n).toNat e :=
            magnitude_mono (by omega) (by omega) e
          omega
        · omega
    · split
      · omega
      · rw [if_neg (by omega)]

/-! ### Sums and differences -/

/-- Taking away what is finite and not negative does not give more than adding it. -/
theorem sub_add_places {u v : UnpackedFloat} (hu : Rounded u) (hv : Rounded v)
    (hpos : 0 ≤ place v) (hfin : v.isInf = false) :
    Rounded (UnpackedFloat.sub Format.binary32 u v) ∧
      Rounded (UnpackedFloat.add Format.binary32 u v) ∧
      place (UnpackedFloat.sub Format.binary32 u v) ≤
        place (UnpackedFloat.add Format.binary32 u v) := by
  cases hv with
  | infinity s' => cases hfin
  | zero s' =>
    cases hu with
    | infinity s => exact ⟨.infinity s, .infinity s, Int.le_refl _⟩
    | zero s => cases s <;> cases s' <;> exact ⟨.zero _, .zero _, Int.le_refl _⟩
    | finite hm he hfull => exact ⟨.finite hm he hfull, .finite hm he hfull, Int.le_refl _⟩
  | @finite s' m' e' hpos' hm' he' hfull' =>
    have hneg : place (.finite .negative m' e' hpos') < 0 := by
      simp only [place, Sign.apply]
      omega
    cases s' with
    | negative => exact absurd hpos (Int.not_le.2 hneg)
    | positive =>
      cases hu with
      | infinity s => exact ⟨.infinity s, .infinity s, Int.le_refl _⟩
      | zero s =>
        have hle := Int.le_trans (Int.le_of_lt hneg) hpos
        exact ⟨.finite hm' he' hfull', .finite hm' he' hfull', hle⟩
      | @finite s m e hm _ _ _ =>
        have hwiden : ∀ (a : Int) (n : Nat), a - n ≤ a + n := by omega
        exact ⟨(normalize_place _ _ _).1, (normalize_place _ _ _).1,
          normalize_mono (hwiden _ _) _ _ _⟩

/-- Taking away infinity leaves negative infinity, or no number. -/
theorem sub_infinity_places {u v : UnpackedFloat} (hu : Rounded u) (hv : Rounded v)
    (hpos : 0 ≤ place v) (hinf : v.isInf = true) :
    UnpackedFloat.sub Format.binary32 u v = .notANumber ∨
      UnpackedFloat.sub Format.binary32 u v = .infinity .negative := by
  cases hv with
  | infinity s' =>
    cases s' with
    | negative => exact absurd hpos (by decide)
    | positive =>
      cases hu with
      | infinity s =>
        cases s with
        | negative => exact .inr rfl
        | positive => exact .inl rfl
      | zero s => exact .inr rfl
      | finite hm he hfull => exact .inr rfl
  | zero s' => cases hinf
  | finite hm he hfull => cases hinf

section Sums

variable {x d : Float32}

theorem sub_eq_packed :
    x - d = packed (UnpackedFloat.sub Format.binary32 x.toModel.unpack d.toModel.unpack) := rfl

theorem add_eq_packed :
    x + d = packed (UnpackedFloat.add Format.binary32 x.toModel.unpack d.toModel.unpack) := rfl

theorem sub_le_add (hx : x.isNaN = false) (hd : d.isNaN = false) (hpos : 0 ≤ rank d)
    (hfin : d.isInf = false) : x - d ≤ x + d := by
  obtain ⟨-, hu, -, -⟩ := unpack_number hx
  obtain ⟨-, hv, -, hplace⟩ := unpack_number hd
  obtain ⟨hsub, hadd, hle⟩ := sub_add_places hu hv (hplace ▸ hpos) hfin
  rw [sub_eq_packed, add_eq_packed, le_iff_rank (number_packed hsub) (number_packed hadd),
    rank_packed hsub, rank_packed hadd]
  exact confine_mono hle

theorem sub_infinity (hx : x.isNaN = false) (hd : d.isNaN = false) (hpos : 0 ≤ rank d)
    (hinf : d.isInf = true) : (x - d).isNaN = true ∨ x - d = negativeInfinity := by
  obtain ⟨-, hu, -, -⟩ := unpack_number hx
  obtain ⟨-, hv, -, hplace⟩ := unpack_number hd
  rw [sub_eq_packed]
  rcases sub_infinity_places hu hv (hplace ▸ hpos) hinf with hnone | hbottom
  · rw [hnone]
    exact .inl (by decide)
  · rw [hbottom]
    exact .inr rfl

/-- What is no number makes sum and difference the same. -/
theorem sub_eq_add_of_isNaN (hd : d.isNaN = true) : x - d = x + d := by
  rw [sub_eq_packed, add_eq_packed, isNaN_iff.1 hd]
  cases x.toModel.unpack <;> rfl

end Sums

end AudioShader
