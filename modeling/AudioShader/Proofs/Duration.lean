/-
# Durations read from numbers and texts

A number of double precision is what its bits say as a mantissa and an exponent. As a
number of seconds it has a duration if it is less than 2 ^ 64: rounding to the nearest
nanosecond then never fills the last second, since so far up there are no fractions to
round. Durations that are read, from numbers or from texts, fit a word of seconds and
less than a second of nanoseconds.

Key definitions: `signOf`, `secondsLimit`, `Duration.Fits`.
Key theorems: `unpack_double`, `secondsLimit_le_iff`, `Duration.full_seconds_iff`,
`Duration.ofSeconds?_eq_none_iff`, `Duration.fits_of_read`.
-/
import AudioShader.Duration
import AudioShader.Proofs.Action
import AudioShader.Proofs.Number.Narrowing

namespace AudioShader

open Float.Model Float.Model.UnpackedFloat

/-! ### Numbers of double precision -/

/-- The sign bit of a number. -/
def signOf (x : Float) : Sign := if UInt64.size / 2 ≤ x.toBits.toNat then .negative else .positive

section Fields

variable (b : BitVec 64)

theorem toNat_mantissa_double :
    (@unpackMantissa Format.binary64 b).toNat = b.toNat % 2 ^ 63 % 2 ^ 52 := by
  have hbits : (@unpackMantissa Format.binary64 b).toNat = b.toNat % 2 ^ 52 := by
    simp [unpackMantissa]
  omega

theorem toNat_exponent_double :
    (@unpackExponent Format.binary64 b).toNat = b.toNat % 2 ^ 63 / 2 ^ 52 := by
  have hbits : (@unpackExponent Format.binary64 b).toNat = b.toNat / 2 ^ 52 % 2 ^ 11 := by
    simp [unpackExponent, Nat.shiftRight_eq_div_pow]
  omega

theorem sign_double : Sign.ofBitVec (@unpackSign Format.binary64 b) =
    if UInt64.size / 2 ≤ b.toNat then .negative else .positive := by
  have hlt : b.toNat < 2 ^ 64 := b.isLt
  have hhalf : UInt64.size / 2 = 2 ^ 63 := rfl
  have hbit : (@unpackSign Format.binary64 b).toNat = b.toNat / 2 ^ 63 := by
    show (b.toNat >>> 63) % 2 = _
    rw [Nat.shiftRight_eq_div_pow]
    omega
  rw [hhalf]
  unfold Sign.ofBitVec
  by_cases hneg : 2 ^ 63 ≤ b.toNat
  · have hone : @unpackSign Format.binary64 b = 1#1 := by
      apply BitVec.eq_of_toNat_eq
      rw [hbit]
      show b.toNat / 2 ^ 63 = 1
      omega
    rw [if_pos hneg, hone]
    rfl
  · have hzero : @unpackSign Format.binary64 b = 0#1 := by
      apply BitVec.eq_of_toNat_eq
      rw [hbit]
      show b.toNat / 2 ^ 63 = 0
      omega
    rw [if_neg hneg, hzero]
    rfl

/-- An exponent of none but zeros stands for the least one. -/
theorem ofBits_subnormal (h : (@unpackExponent Format.binary64 b).toNat = 0) :
    Binary.ofBits .double (b.toNat % 2 ^ 63) =
      ⟨(@unpackMantissa Format.binary64 b).toNat, -1074, false⟩ := by
  have hpow : Nat.pow 2 BinaryFormat.double.width = 2 ^ 52 := rfl
  unfold Binary.ofBits
  dsimp only
  rw [hpow, ← toNat_mantissa_double, ← toNat_exponent_double, if_pos h]
  rfl

/-- All other exponents stand for a mantissa with a bit in front. -/
theorem ofBits_normal (h : (@unpackExponent Format.binary64 b).toNat ≠ 0) :
    (Binary.ofBits .double (b.toNat % 2 ^ 63)).mantissa =
        2 ^ 52 + (@unpackMantissa Format.binary64 b).toNat ∧
      (Binary.ofBits .double (b.toNat % 2 ^ 63)).exponent =
        ((@unpackExponent Format.binary64 b).toNat : Int) - 1075 := by
  have hpow : Nat.pow 2 BinaryFormat.double.width = 2 ^ 52 := rfl
  unfold Binary.ofBits
  dsimp only
  rw [hpow, ← toNat_mantissa_double, ← toNat_exponent_double, if_neg h]
  refine ⟨rfl, ?_⟩
  show (-1074 : Int) + (((@unpackExponent Format.binary64 b).toNat - 1 : Nat) : Int) = _
  omega

end Fields

/-- **What a number of double precision is.** It is none, infinite, zero, or a mantissa
and an exponent, and these are read off its bits. -/
theorem unpack_double (x : Float) :
    x.toModel.unpack = .notANumber ∨
    x.toModel.unpack = .infinity (signOf x) ∨
    (x.toModel.unpack = .zero (signOf x) ∧ Binary.ofFloat x = ⟨0, -1074, false⟩) ∨
    ∃ hm : 0 < (Binary.ofFloat x).mantissa, x.toModel.unpack =
      .finite (signOf x) (Binary.ofFloat x).mantissa (Binary.ofFloat x).exponent hm := by
  have hsign : Sign.ofBitVec (@unpackSign Format.binary64 x.toModel.toBits.toBitVec) = signOf x :=
    sign_double _
  have hvalue : Binary.ofFloat x =
      Binary.ofBits .double (x.toModel.toBits.toBitVec.toNat % 2 ^ 63) := rfl
  have hbias : ((Format.binary64.exponentBias : Int) +
      Format.binary64.mantissaBitsWithoutImplicit) = 1075 := rfl
  have hunpack : x.toModel.unpack =
      UnpackedFloat.unpack Format.binary64 x.toModel.toBits.toBitVec := rfl
  rw [hunpack, hvalue]
  unfold UnpackedFloat.unpack
  dsimp only
  rw [hsign, hbias]
  generalize x.toModel.toBits.toBitVec = b
  by_cases hmax : @unpackExponent Format.binary64 b = -1#11
  · rw [if_pos hmax]
    by_cases hzero : @unpackMantissa Format.binary64 b = 0#52
    · rw [if_pos hzero]
      exact .inr (.inl rfl)
    · rw [if_neg hzero]
      exact .inl rfl
  rw [if_neg hmax]
  by_cases hsub : @unpackExponent Format.binary64 b = 0#11
  · have hbits := ofBits_subnormal b (by rw [hsub]; rfl)
    rw [if_pos hsub, hbits]
    by_cases hzero : @unpackMantissa Format.binary64 b = 0#52
    · rw [dif_pos hzero, hzero]
      exact .inr (.inr (.inl ⟨rfl, rfl⟩))
    · rw [dif_neg hzero]
      have hpos : (@unpackMantissa Format.binary64 b).toNat ≠ 0 :=
        fun h => hzero (BitVec.eq_of_toNat_eq h)
      refine .inr (.inr (.inr ⟨Nat.pos_of_ne_zero hpos, ?_⟩))
      rw [hsub]
      rfl
  · have hpos : (@unpackExponent Format.binary64 b).toNat ≠ 0 :=
      fun h => hsub (BitVec.eq_of_toNat_eq h)
    obtain ⟨hmantissa, hexponent⟩ := ofBits_normal b hpos
    have hlead : (1#1 ++ @unpackMantissa Format.binary64 b).toNat =
        2 ^ 52 + (@unpackMantissa Format.binary64 b).toNat := toNat_leading _
    rw [if_neg hsub]
    refine .inr (.inr (.inr ⟨by omega, ?_⟩))
    congr 1
    · exact hlead.trans hmantissa.symm
    · exact hexponent.symm

/-! ### The limit -/

/-- Seconds of 2 ^ 64 and more have no duration. -/
def secondsLimit : Float := .ofBits 0x43F0000000000000

theorem unpack_secondsLimit :
    secondsLimit.toModel.unpack = .finite .positive (2 ^ 52) 12 (by decide) := rfl

theorem le_iff_unpack {x y : Float} :
    x ≤ y ↔ (x.toModel.unpack.compare y.toModel.unpack).any (·.isLE) = true := by
  change decide (UnpackedFloat.le x.toModel.unpack y.toModel.unpack = true) = true ↔ _
  rw [decide_eq_true_eq, UnpackedFloat.le]

/-- A mantissa with all its bits reaches the limit by its exponent alone. -/
theorem secondsLimit_le_iff {x : Float} {m : Nat} {e : Int} {hm : 0 < m}
    (h : x.toModel.unpack = .finite .positive m e hm) : secondsLimit ≤ x ↔ 12 ≤ e := by
  obtain ⟨-, hfull⟩ := bounds_of_unpack h
  have hcompare : UnpackedFloat.compare (.finite .positive (2 ^ 52) 12 (by decide))
      (.finite .positive m e hm) = some ((compare 12 e).then (compare (2 ^ 52) m)) := rfl
  rw [le_iff_unpack, unpack_secondsLimit, h, hcompare]
  show ((compare 12 e).then (compare (2 ^ 52) m)).isLE = true ↔ _
  rcases Int.lt_trichotomy e 12 with hless | rfl | hmore
  · rw [Int.compare_eq_gt.2 hless]
    exact iff_of_false Bool.false_ne_true (by omega)
  · have hle : 2 ^ 52 ≤ m := by omega
    have hsame : compare (12 : Int) 12 = .eq := rfl
    rw [hsame]
    show (compare (2 ^ 52) m).isLE = true ↔ _
    rw [Nat.isLE_compare]
    exact iff_of_true hle (Int.le_refl 12)
  · rw [Int.compare_eq_lt.2 hmore]
    exact iff_of_true rfl (by omega)

/-- What reaches the limit is a number with no sign. -/
theorem number_of_secondsLimit_le {x : Float} (h : secondsLimit ≤ x) :
    x.isNaN = false ∧ signOf x = .positive := by
  have hisNaN : x.isNaN = x.toModel.unpack.isNaN := rfl
  rw [le_iff_unpack, unpack_secondsLimit] at h
  rw [hisNaN]
  rcases unpack_double x with hnan | hinf | ⟨hzero, -⟩ | ⟨hm, hfinite⟩
  · rw [hnan] at h
    cases h
  · rw [hinf] at h ⊢
    cases hsign : signOf x with
    | positive => exact ⟨rfl, rfl⟩
    | negative =>
      rw [hsign] at h
      cases h
  · rw [hzero] at h
    cases h
  · rw [hfinite] at h ⊢
    cases hsign : signOf x with
    | positive => exact ⟨rfl, rfl⟩
    | negative =>
      rw [hsign] at h
      cases h

/-! ### Rounding to nanoseconds -/

theorem roundDiv_one (num : Nat) : roundDiv num 1 = num := by
  simp [roundDiv, Nat.mod_one]

theorem roundDiv_le (num den : Nat) : roundDiv num den ≤ num + 1 := by
  have hquotient : num / den ≤ num := Nat.div_le_self num den
  simp only [roundDiv]
  split
  · omega
  · split
    · omega
    · split <;> omega

namespace Duration

theorem ofNanos?_eq_none_iff {n : Nat} :
    ofNanos? n = none ↔ wordLimit * nanosPerSecond ≤ n := by
  have hpos : 0 < nanosPerSecond := by decide
  unfold ofNanos?
  rw [ite_eq_right_iff]
  simp only [reduceCtorEq, imp_false, Nat.not_lt]
  exact Nat.le_div_iff_mul_le hpos

/-- Rounding a mantissa to nanoseconds fills the seconds exactly from the exponent of
the limit on. -/
theorem full_seconds_iff {m : Nat} {e : Int} (hlt : m < 2 ^ 53) (hfull : 2 ^ 52 ≤ m ∨ e = -1074) :
    wordLimit * nanosPerSecond ≤
      roundDiv (Binary.ratioAt m e (-9)).1 (Binary.ratioAt m e (-9)).2 ↔ 12 ≤ e := by
  have hword : wordLimit = 2 ^ 64 := rfl
  have hsecond : nanosPerSecond = 10 ^ 9 := rfl
  have hnum : (Binary.ratioAt m e (-9)).1 = m * 2 ^ e.toNat * 10 ^ 9 := rfl
  by_cases hneg : e < 0
  · -- below the limit by far, whatever rounding adds
    have hround := roundDiv_le (Binary.ratioAt m e (-9)).1 (Binary.ratioAt m e (-9)).2
    have hexp : e.toNat = 0 := by omega
    have hsmall : (Binary.ratioAt m e (-9)).1 = m * 10 ^ 9 := by
      rw [hnum, hexp, Nat.pow_zero, Nat.mul_one]
    refine iff_of_false ?_ (by omega)
    rw [hword, hsecond]
    omega
  · -- a whole number of seconds, so that nothing is rounded
    have hden : (Binary.ratioAt m e (-9)).2 = 1 := by
      have hexp : (-e).toNat = 0 := by omega
      show 2 ^ (-e).toNat * 10 ^ 0 = 1
      rw [hexp]
      rfl
    rw [hden, roundDiv_one, hnum, hword, hsecond, Nat.mul_le_mul_right_iff (by decide)]
    constructor
    · intro hle
      by_contra hless
      have hpow : 2 ^ e.toNat ≤ 2 ^ 11 := Nat.pow_le_pow_right (by decide) (by omega)
      have hmul : m * 2 ^ e.toNat ≤ (2 ^ 53 - 1) * 2 ^ 11 :=
        Nat.mul_le_mul (by omega) hpow
      omega
    · intro hge
      have hpow : 2 ^ 12 ≤ 2 ^ e.toNat := Nat.pow_le_pow_right (by decide) (by omega)
      calc 2 ^ 64 = 2 ^ 52 * 2 ^ 12 := by decide
        _ ≤ m * 2 ^ e.toNat := Nat.mul_le_mul (by omega) hpow

theorem ofSeconds?_of_isInf {x : Float} (h : x.isInf = true) : ofSeconds? x = none := by
  unfold ofSeconds?
  rw [if_pos h]

theorem ofSeconds?_of_not_isInf {x : Float} (h : x.isInf = false) :
    ofSeconds? x = ofNanos? (roundDiv
      (Binary.ratioAt (Binary.ofFloat x).mantissa (Binary.ofFloat x).exponent (-9)).1
      (Binary.ratioAt (Binary.ofFloat x).mantissa (Binary.ofFloat x).exponent (-9)).2) := by
  unfold ofSeconds?
  rw [if_neg (by simp [h])]

/-- **A number of seconds has no duration exactly from the limit on.** -/
theorem ofSeconds?_eq_none_iff {x : Float} (hnumber : x.isNaN = false)
    (hsign : signOf x = .positive) : ofSeconds? x = none ↔ secondsLimit ≤ x := by
  have hisInf : x.isInf = x.toModel.unpack.isInf := rfl
  have hisNaN : x.isNaN = x.toModel.unpack.isNaN := rfl
  have hcases := unpack_double x
  rw [hsign] at hcases
  rcases hcases with hnan | hinf | ⟨hzero, hbinary⟩ | ⟨hm, hfinite⟩
  · rw [hisNaN, hnan] at hnumber
    cases hnumber
  · rw [ofSeconds?_of_isInf (by rw [hisInf, hinf]; rfl), le_iff_unpack, unpack_secondsLimit, hinf]
    exact iff_of_true rfl rfl
  · rw [ofSeconds?_of_not_isInf (by rw [hisInf, hzero]; rfl), ofNanos?_eq_none_iff, hbinary,
      full_seconds_iff (by decide) (.inr rfl), le_iff_unpack, unpack_secondsLimit, hzero]
    exact iff_of_false (by decide) Bool.false_ne_true
  · obtain ⟨hlt, hfull⟩ := bounds_of_unpack hfinite
    rw [ofSeconds?_of_not_isInf (by rw [hisInf, hfinite]; rfl), ofNanos?_eq_none_iff,
      full_seconds_iff hlt hfull, secondsLimit_le_iff hfinite]

/-! ### Durations that fit -/

/-- Its seconds are a word and its nanoseconds less than a second. -/
def Fits (d : Duration) : Prop := d.secs < wordLimit ∧ d.nanos < nanosPerSecond

theorem fits_of_ofNanos? {n : Nat} {d : Duration} (h : ofNanos? n = some d) : d.Fits := by
  unfold ofNanos? at h
  by_cases hlt : n / nanosPerSecond < wordLimit
  · rw [if_pos hlt] at h
    cases h
    exact ⟨hlt, Nat.mod_lt n (by decide)⟩
  · rw [if_neg hlt] at h
    cases h

theorem fits_of_ofSeconds? {x : Float} {d : Duration} (h : ofSeconds? x = some d) : d.Fits := by
  cases hinf : x.isInf with
  | true =>
    rw [ofSeconds?_of_isInf hinf] at h
    cases h
  | false =>
    rw [ofSeconds?_of_not_isInf hinf] at h
    exact fits_of_ofNanos? h

section Adding

variable {d sum : Duration} (hd : d.Fits)

include hd

theorem fits_addSeconds {n : Nat} (h : d.addSeconds n = .ok sum) : sum.Fits := by
  unfold addSeconds at h
  by_cases hlt : d.secs + n < wordLimit
  · rw [if_pos hlt] at h
    cases h
    exact ⟨hlt, hd.2⟩
  · rw [if_neg hlt] at h
    cases h

theorem fits_addCount {unit count : Nat} (h : d.addCount unit count = .ok sum) : sum.Fits := by
  unfold addCount at h
  by_cases hunit : unit < nanosPerSecond
  · rw [if_pos hunit] at h
    unfold addNanos at h
    split at h
    · cases h
    · split at h
      · next hsum =>
        cases h
        exact fits_of_ofNanos? hsum
      · cases h
  · rw [if_neg hunit] at h
    exact fits_addSeconds hd h

theorem fits_addFraction {unit num den : Nat} (h : d.addFraction unit num den = .ok sum) :
    sum.Fits := by
  unfold addFraction at h
  split at h
  · cases h
  · dsimp only at h
    split at h
    · exact fits_addCount hd h
    · cases h

theorem fits_addUnits {unit count : Nat} {fraction : Option (Nat × Nat)}
    (h : d.addUnits unit count fraction = .ok sum) : sum.Fits := by
  unfold addUnits at h
  obtain ⟨whole, hwhole, hrest⟩ := ok_of_bind h
  have hfits := fits_addCount hd hwhole
  cases fraction with
  | none =>
    cases hrest
    exact hfits
  | some part => exact fits_addFraction hfits hrest

end Adding

/-- A sum of spans fits if what they are added to does. -/
theorem fits_readSpans {d t : Duration} {cs : List Char} (hd : d.Fits)
    (h : readSpans d cs = .ok t) : t.Fits := by
  fun_induction readSpans d cs with
  | case1 d =>
    cases h
    exact hd
  | case5 d c tail hdigit count more hcount fraction tail' htail rest unit hend hunit sum hsum
      _ _ _ _ ih => exact ih (fits_addUnits hd hsum) h
  | _ => cases h

theorem fits_of_read {s : String} {t : Duration} (h : read s = .ok t) : t.Fits := by
  have hzero : zero.Fits := ⟨by decide, by decide⟩
  unfold read at h
  split at h
  · cases h
    exact hzero
  · split at h
    · cases h
    · exact fits_readSpans hzero h

end Duration

end AudioShader
