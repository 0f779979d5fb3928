/-
# The order of single-precision numbers

The bits of a number without its sign count up with the number, and below zero
they count down. So each number has a rank among all, and comparing numbers is
comparing their ranks. A number that is packed keeps its rank, unless it is too
large: then it gets that of an infinity.

Key definitions: `rank`, `place`, `Rounded`, `InRange`, `confine`, `packed`.
Key theorems: `unpack_cases`, `rankOfBits_pack`, `compare_places`, `le_iff_rank`,
`lt_iff_rank`, `rank_ofBits`.
-/
import AudioShader.Proofs.Number.Quotient

namespace AudioShader

open Float.Model Float.Model.UnpackedFloat

/-! ### Ranks -/

/-- The bits of infinity. -/
def infinityBits : Nat := 0x7F800000

/-- The rank of a number, by its bits: those without the sign, which count down
below zero. -/
def rankOfBits (w : Nat) : Int := if w < 2 ^ 31 then w else 2 ^ 31 - w

/-- The rank of a number that is no longer packed. -/
def place : UnpackedFloat → Int
  | .notANumber => 0
  | .infinity s => s.apply infinityBits
  | .zero _ => 0
  | .finite s m e _ => s.apply ((e + 149) * 2 ^ 23 + m)

/-- A number whose mantissa has all its bits, or the least exponent. -/
inductive Rounded : UnpackedFloat → Prop
  | infinity (s : Sign) : Rounded (.infinity s)
  | zero (s : Sign) : Rounded (.zero s)
  | finite {s : Sign} {m : Nat} {e : Int} {h : 0 < m} : m < 2 ^ 24 → -149 ≤ e →
      (2 ^ 23 ≤ m ∨ e = -149) → Rounded (.finite s m e h)

theorem Rounded.number {u : UnpackedFloat} (h : Rounded u) : u.isNaN = false := by
  cases h <;> rfl

/-- A number that is not too large for single precision. -/
def InRange : UnpackedFloat → Prop
  | .finite _ _ e _ => e ≤ 104
  | _ => True

theorem toNat_unpackMantissa (b : BitVec 32) :
    (@unpackMantissa Format.binary32 b).toNat = b.toNat % 2 ^ 23 := by
  simp [unpackMantissa]

theorem toNat_unpackExponent (b : BitVec 32) :
    (@unpackExponent Format.binary32 b).toNat = b.toNat / 2 ^ 23 % 2 ^ 8 := by
  simp [unpackExponent, Nat.shiftRight_eq_div_pow]

theorem toNat_unpackSign (b : BitVec 32) :
    (@unpackSign Format.binary32 b).toNat = b.toNat / 2 ^ 31 := by
  have hlt : b.toNat < 2 ^ 32 := b.isLt
  show (b.toNat >>> 31) % 2 = _
  rw [Nat.shiftRight_eq_div_pow]
  omega

theorem unpackSign_eq (b : BitVec 32) :
    @unpackSign Format.binary32 b = BitVec.ofNat 1 (b.toNat / 2 ^ 31) := by
  have hlt : b.toNat < 2 ^ 32 := b.isLt
  refine BitVec.eq_of_toNat_eq ?_
  rw [toNat_unpackSign, BitVec.toNat_ofNat]
  omega

/-- The exponent and the mantissa make up the bits without the sign. -/
theorem fields_eq (b : BitVec 32) : b.toNat % 2 ^ 31 =
    (@unpackExponent Format.binary32 b).toNat * 2 ^ 23 +
      (@unpackMantissa Format.binary32 b).toNat := by
  rw [toNat_unpackMantissa, toNat_unpackExponent]
  omega

theorem toNat_leading {width : Nat} (m : BitVec width) :
    (1#1 ++ m).toNat = 2 ^ width + m.toNat := by
  rw [BitVec.toNat_append, ← Nat.shiftLeft_add_eq_or_of_lt (BitVec.isLt _), BitVec.toNat_ofNat,
    Nat.shiftLeft_eq]
  omega

/-- The rank goes by the sign and the other bits. -/
theorem rankOfBits_eq {w : Nat} (hw : w < 2 ^ 32) :
    rankOfBits w = (Sign.ofBitVec (BitVec.ofNat 1 (w / 2 ^ 31))).apply (w % 2 ^ 31 : Nat) := by
  unfold rankOfBits
  rcases Nat.lt_or_ge w (2 ^ 31) with hlt | hge
  · rw [if_pos hlt, Nat.div_eq_of_lt hlt, Nat.mod_eq_of_lt hlt]
    rfl
  · have hone : w / 2 ^ 31 = 1 := by omega
    rw [if_neg (by omega), hone]
    show (2 : Int) ^ 31 - w = -(w % 2 ^ 31 : Nat)
    omega

/-- Bits stand for a number of their rank, or for no number. -/
theorem unpack_cases (b : BitVec 32) :
    UnpackedFloat.unpack Format.binary32 b = .notANumber ∧ infinityBits < b.toNat % 2 ^ 31 ∨
      b.toNat % 2 ^ 31 ≤ infinityBits ∧ Rounded (UnpackedFloat.unpack Format.binary32 b) ∧
        InRange (UnpackedFloat.unpack Format.binary32 b) ∧
        place (UnpackedFloat.unpack Format.binary32 b) = rankOfBits b.toNat := by
  have hmlt : (@unpackMantissa Format.binary32 b).toNat < 2 ^ 23 := BitVec.isLt _
  have helt : (@unpackExponent Format.binary32 b).toNat < 2 ^ 8 := BitVec.isLt _
  have hinf : infinityBits = 255 * 2 ^ 23 := rfl
  have hbias : ((Format.binary32.exponentBias : Int) +
      Format.binary32.mantissaBitsWithoutImplicit) = 150 := rfl
  rw [rankOfBits_eq b.isLt, fields_eq]
  unfold UnpackedFloat.unpack
  dsimp only
  rw [unpackSign_eq, hbias]
  generalize Sign.ofBitVec (BitVec.ofNat 1 (b.toNat / 2 ^ 31)) = s
  by_cases hmax : @unpackExponent Format.binary32 b = -1#8
  · have hfield : (@unpackExponent Format.binary32 b).toNat = 255 := by rw [hmax]; rfl
    rw [if_pos hmax, hfield]
    by_cases hzero : @unpackMantissa Format.binary32 b = 0#23
    · rw [if_pos hzero, hzero]
      exact .inr ⟨Nat.le_refl _, .infinity s, trivial, rfl⟩
    · have hpos : (@unpackMantissa Format.binary32 b).toNat ≠ 0 :=
        fun h => hzero (BitVec.eq_of_toNat_eq h)
      rw [if_neg hzero]
      exact .inl ⟨rfl, by omega⟩
  · have hfield : (@unpackExponent Format.binary32 b).toNat ≠ 255 :=
      fun h => hmax (BitVec.eq_of_toNat_eq h)
    rw [if_neg hmax]
    by_cases hsub : @unpackExponent Format.binary32 b = 0#8
    · have hfield' : (@unpackExponent Format.binary32 b).toNat = 0 := by rw [hsub]; rfl
      rw [if_pos hsub, hfield']
      by_cases hzero : @unpackMantissa Format.binary32 b = 0#23
      · rw [dif_pos hzero, hzero]
        refine .inr ⟨by decide, .zero s, trivial, ?_⟩
        cases s <;> rfl
      · rw [dif_neg hzero]
        have hrange : ((0 : Nat) : Int) - 150 + 1 ≤ 104 := by decide
        exact .inr ⟨by omega, .finite (by omega) (by decide) (.inr rfl), hrange, rfl⟩
    · have hpos : (@unpackExponent Format.binary32 b).toNat ≠ 0 :=
        fun h => hsub (BitVec.eq_of_toNat_eq h)
      have hlead : (1#1 ++ @unpackMantissa Format.binary32 b).toNat =
          2 ^ 23 + (@unpackMantissa Format.binary32 b).toNat := toNat_leading _
      rw [if_neg hsub]
      refine .inr ⟨by omega, .finite (by omega) (by omega) (.inl (by omega)), ?_, ?_⟩
      · show ((@unpackExponent Format.binary32 b).toNat : Int) - 150 ≤ 104
        omega
      · simp only [place]
        rw [hlead]
        congr 1
        omega

/-! ### Packing -/

theorem toNat_packComponents (s : Sign) (exponent : BitVec 8) (mantissa : BitVec 23) :
    (packComponents Format.binary32 s exponent mantissa).toNat =
      s.toBitVec.toNat * 2 ^ 31 + exponent.toNat * 2 ^ 23 + mantissa.toNat := by
  have hm : mantissa.toNat < 2 ^ 23 := mantissa.isLt
  have he : exponent.toNat < 2 ^ 8 := exponent.isLt
  unfold packComponents
  rw [BitVec.toNat_append, BitVec.toNat_append, ← Nat.shiftLeft_add_eq_or_of_lt hm,
    ← Nat.shiftLeft_add_eq_or_of_lt he, Nat.shiftLeft_eq, Nat.shiftLeft_eq]
  omega

theorem rankOfBits_packComponents (s : Sign) (exponent : BitVec 8) (mantissa : BitVec 23) :
    rankOfBits (packComponents Format.binary32 s exponent mantissa).toNat =
      s.apply (exponent.toNat * 2 ^ 23 + mantissa.toNat) := by
  have hm : mantissa.toNat < 2 ^ 23 := mantissa.isLt
  have he : exponent.toNat < 2 ^ 8 := exponent.isLt
  have hpos : Sign.positive.toBitVec.toNat = 0 := rfl
  have hneg : Sign.negative.toBitVec.toNat = 1 := rfl
  rw [toNat_packComponents, rankOfBits]
  cases s with
  | positive =>
    rw [hpos, if_pos (by omega), Sign.apply]
    omega
  | negative =>
    rw [hneg, if_neg (by omega), Sign.apply]
    omega

/-- A rank, but not outside those of the two infinities. -/
def confine (r : Int) : Int := max (-infinityBits) (min infinityBits r)

theorem confine_mono {r r' : Int} (h : r ≤ r') : confine r ≤ confine r' := by
  unfold confine
  omega

theorem confine_eq {r : Int} (h : -infinityBits ≤ r) (h' : r ≤ infinityBits) : confine r = r := by
  unfold confine
  omega

/-- What is packed keeps its rank, but what is too large becomes infinite. -/
theorem rankOfBits_pack {u : UnpackedFloat} (h : Rounded u) :
    rankOfBits (UnpackedFloat.pack Format.binary32 u).toNat = confine (place u) := by
  have hinf : infinityBits = 255 * 2 ^ 23 := rfl
  cases h with
  | infinity s =>
    show rankOfBits (packComponents Format.binary32 s (-1#8) 0#23).toNat = _
    rw [rankOfBits_packComponents]
    cases s <;> decide
  | zero s =>
    show rankOfBits (packComponents Format.binary32 s 0#8 0#23).toNat = _
    rw [rankOfBits_packComponents]
    cases s <;> decide
  | @finite s m e hpos hm he hfull =>
    have hplace : confine (place (.finite s m e hpos)) =
        s.apply (min infinityBits ((e + 149) * 2 ^ 23 + m)) := by
      cases s <;> simp only [place, Sign.apply, confine] <;> omega
    rw [hplace]
    show rankOfBits (BitVec.toNat (if 2 ^ 8 ≤ (e + 127 + 23).toNat + 1 then _ else
      if m.log2 + 1 = 24 then _ else _)) = _
    split
    · next hlarge =>
      show rankOfBits (packComponents Format.binary32 s (-1#8) 0#23).toNat = _
      rw [rankOfBits_packComponents]
      congr 1
      show ((255 : Int) * 2 ^ 23 + 0) = _
      omega
    · next hsmall =>
      split
      · next hlog =>
        obtain ⟨hlo, hhi⟩ := bounds_of_log2 (Nat.succ.inj hlog)
        show rankOfBits (packComponents Format.binary32 s (BitVec.ofNat 8 (e + 127 + 23).toNat)
          (BitVec.ofNat 23 m)).toNat = _
        rw [rankOfBits_packComponents, BitVec.toNat_ofNat, BitVec.toNat_ofNat]
        congr 1
        omega
      · next hlog =>
        have hsub : m < 2 ^ 23 := by
          by_contra hge
          exact hlog (congrArg Nat.succ (log2_eq_of_bounds (by omega) hm))
        have he' : e = -149 := by omega
        subst he'
        show rankOfBits (packComponents Format.binary32 s 0#8 (BitVec.ofNat 23 m)).toNat = _
        rw [rankOfBits_packComponents, BitVec.toNat_ofNat]
        congr 1
        show ((0 : Int) * 2 ^ 23 + (m % 2 ^ 23 : Nat)) = _
        omega

/-! ### Comparing -/

/-- Exponents are compared first, then mantissas. -/
theorem compare_scaled {m₁ m₂ : Nat} {e₁ e₂ : Int} (hm₁ : m₁ < 2 ^ 24) (hm₂ : m₂ < 2 ^ 24)
    (he₁ : -149 ≤ e₁) (he₂ : -149 ≤ e₂) (hfull₁ : 2 ^ 23 ≤ m₁ ∨ e₁ = -149)
    (hfull₂ : 2 ^ 23 ≤ m₂ ∨ e₂ = -149) : (compare e₁ e₂).then (compare m₁ m₂) =
      compare ((e₁ + 149) * 2 ^ 23 + (m₁ : Int)) ((e₂ + 149) * 2 ^ 23 + m₂) := by
  rcases Int.lt_trichotomy e₁ e₂ with hlt | rfl | hgt
  · have hscaled : (e₁ + 149) * 2 ^ 23 + (m₁ : Int) < (e₂ + 149) * 2 ^ 23 + m₂ := by omega
    rw [compare_lt_iff_lt.2 hscaled, compare_lt_iff_lt.2 hlt]
    rfl
  · rw [compare_eq_iff_eq.2 (rfl : e₁ = e₁), Ordering.eq_then]
    rcases Nat.lt_trichotomy m₁ m₂ with hlt | rfl | hgt
    · have hscaled : (e₁ + 149) * 2 ^ 23 + (m₁ : Int) < (e₁ + 149) * 2 ^ 23 + m₂ := by omega
      rw [compare_lt_iff_lt.2 hscaled, compare_lt_iff_lt.2 hlt]
    · rw [compare_eq_iff_eq.2 (rfl : m₁ = m₁), compare_eq_iff_eq.2 rfl]
    · have hscaled : (e₁ + 149) * 2 ^ 23 + (m₁ : Int) > (e₁ + 149) * 2 ^ 23 + m₂ := by omega
      rw [compare_gt_iff_gt.2 hscaled, compare_gt_iff_gt.2 hgt]
  · have hscaled : (e₁ + 149) * 2 ^ 23 + (m₁ : Int) > (e₂ + 149) * 2 ^ 23 + m₂ := by omega
    rw [compare_gt_iff_gt.2 hscaled, compare_gt_iff_gt.2 hgt]
    rfl

theorem compare_neg (a b : Int) : compare (-a) (-b) = (compare a b).swap := by
  rcases Int.lt_trichotomy a b with hlt | rfl | hgt
  · rw [compare_lt_iff_lt.2 hlt, compare_gt_iff_gt.2 (by omega)]
    rfl
  · rw [compare_eq_iff_eq.2 rfl, compare_eq_iff_eq.2 rfl]
    rfl
  · rw [compare_gt_iff_gt.2 hgt, compare_lt_iff_lt.2 (by omega)]
    rfl

/-- The place of a finite number lies strictly between zero and an infinity. -/
theorem place_finite {m : Nat} {e : Int} (hm : 0 < m) (hlt : m < 2 ^ 24) (he : -149 ≤ e)
    (he' : e ≤ 104) : 0 < place (.finite .positive m e hm) ∧
      place (.finite .positive m e hm) < infinityBits ∧
      place (.finite .negative m e hm) = -place (.finite .positive m e hm) := by
  have hinf : (infinityBits : Int) = 255 * 2 ^ 23 := rfl
  refine ⟨?_, ?_, rfl⟩ <;> simp only [place, Sign.apply] <;> omega

/-- Numbers are compared by their places. -/
theorem compare_places {u v : UnpackedFloat} (hu : Rounded u) (hv : Rounded v) (hu' : InRange u)
    (hv' : InRange v) : u.compare v = some (compare (place u) (place v)) := by
  have hlt : ∀ {a b : Int}, a < b → some Ordering.lt = some (compare a b) :=
    fun h => congrArg some (compare_lt_iff_lt.2 h).symm
  have hgt : ∀ {a b : Int}, b < a → some Ordering.gt = some (compare a b) :=
    fun h => congrArg some (compare_gt_iff_gt.2 h).symm
  have hzero : ∀ s, place (.zero s) = 0 := fun _ => rfl
  have htop : place (.infinity .positive) = infinityBits := rfl
  have hbottom : place (.infinity .negative) = -infinityBits := rfl
  cases hu with
  | infinity s =>
    cases hv with
    | infinity s' => cases s <;> cases s' <;> rfl
    | zero s' => cases s <;> rfl
    | @finite s' m' e' hpos' hm' he' _ =>
      obtain ⟨hlo, hhi, hneg⟩ := place_finite hpos' hm' he' hv'
      cases s with
      | positive => cases s' <;> exact hgt (by omega)
      | negative => cases s' <;> exact hlt (by omega)
  | zero s =>
    cases hv with
    | infinity s' => cases s' <;> rfl
    | zero s' => rfl
    | @finite s' m' e' hpos' hm' he' _ =>
      obtain ⟨hlo, hhi, hneg⟩ := place_finite hpos' hm' he' hv'
      cases s' with
      | positive => exact hlt (by rw [hzero]; omega)
      | negative => exact hgt (by rw [hzero]; omega)
  | @finite s m e hpos hm he hfull =>
    obtain ⟨hlo, hhi, hneg⟩ := place_finite hpos hm he hu'
    cases hv with
    | infinity s' =>
      cases s' with
      | positive => cases s <;> exact hlt (by omega)
      | negative => cases s <;> exact hgt (by omega)
    | zero s' =>
      cases s with
      | positive => exact hgt (by rw [hzero]; omega)
      | negative => exact hlt (by rw [hzero]; omega)
    | @finite s' m' e' hpos' hm' he' hfull' =>
      obtain ⟨hlo', hhi', hneg'⟩ := place_finite hpos' hm' he' hv'
      have hscaled := compare_scaled hm hm' he he' hfull hfull'
      cases s <;> cases s'
      · rw [hneg, hneg', compare_neg]
        exact congrArg (some ·.swap) hscaled
      · exact hlt (by omega)
      · exact hgt (by omega)
      · exact congrArg some hscaled

/-- The rank of a number among all. -/
def rank (x : Float32) : Int := rankOfBits x.toBits.toNat

/-- A number, unpacked, is rounded, and has the same rank. -/
theorem unpack_number {x : Float32} (hx : x.isNaN = false) :
    x.toBits.toNat % 2 ^ 31 ≤ infinityBits ∧ Rounded x.toModel.unpack ∧ InRange x.toModel.unpack ∧
      place x.toModel.unpack = rank x := by
  rcases unpack_cases x.toModel.toBits.toBitVec with ⟨hnan, -⟩ | hnumber
  · have hnan' : x.isNaN = true := by
      show (UnpackedFloat.unpack Format.binary32 x.toModel.toBits.toBitVec).isNaN = true
      rw [hnan]
      rfl
    rw [hx] at hnan'
    cases hnan'
  · exact hnumber

theorem isNaN_iff {x : Float32} : x.isNaN = true ↔ x.toModel.unpack = .notANumber := by
  show UnpackedFloat.isNaN x.toModel.unpack = true ↔ _
  cases x.toModel.unpack <;> simp [UnpackedFloat.isNaN]

theorem le_iff_rank {x y : Float32} (hx : x.isNaN = false) (hy : y.isNaN = false) :
    x ≤ y ↔ rank x ≤ rank y := by
  obtain ⟨-, hu, hur, hplace⟩ := unpack_number hx
  obtain ⟨-, hv, hvr, hplace'⟩ := unpack_number hy
  show decide (UnpackedFloat.le x.toModel.unpack y.toModel.unpack = true) = true ↔ _
  rw [UnpackedFloat.le, compare_places hu hv hur hvr, hplace, hplace']
  simp [Int.isLE_compare]

theorem lt_iff_rank {x y : Float32} (hx : x.isNaN = false) (hy : y.isNaN = false) :
    x < y ↔ rank x < rank y := by
  obtain ⟨-, hu, hur, hplace⟩ := unpack_number hx
  obtain ⟨-, hv, hvr, hplace'⟩ := unpack_number hy
  show decide (UnpackedFloat.lt x.toModel.unpack y.toModel.unpack = true) = true ↔ _
  rw [UnpackedFloat.lt, compare_places hu hv hur hvr, hplace, hplace']
  simp [compare_lt_iff_lt]

/-- Only numbers are compared. -/
theorem number_of_le {x y : Float32} (h : x ≤ y) : x.isNaN = false ∧ y.isNaN = false := by
  have hle : decide (UnpackedFloat.le x.toModel.unpack y.toModel.unpack = true) = true := h
  rw [decide_eq_true_eq, UnpackedFloat.le] at hle
  refine ⟨Bool.eq_false_iff.2 fun hx => ?_, Bool.eq_false_iff.2 fun hy => ?_⟩
  · rw [isNaN_iff.1 hx] at hle
    cases hle
  · rw [isNaN_iff.1 hy] at hle
    cases hu : x.toModel.unpack <;> rw [hu] at hle <;> cases hle

theorem not_lt_of_isNaN {x y : Float32} (h : x.isNaN = true ∨ y.isNaN = true) : ¬x < y := by
  intro hlt
  have hlt' : decide (UnpackedFloat.lt x.toModel.unpack y.toModel.unpack = true) = true := hlt
  rw [decide_eq_true_eq, UnpackedFloat.lt] at hlt'
  rcases h with h | h
  · rw [isNaN_iff.1 h] at hlt'
    cases hlt'
  · rw [isNaN_iff.1 h] at hlt'
    cases hu : x.toModel.unpack <;> rw [hu] at hlt' <;> cases hlt'

/-- A number is told by its rank. -/
theorem number_of_rank {x : Float32} (h : -infinityBits ≤ rank x) (h' : rank x ≤ infinityBits) :
    x.isNaN = false := by
  have hlt : x.toBits.toNat < 2 ^ 32 := x.toBits.toBitVec.isLt
  have hbits : x.toBits.toNat % 2 ^ 31 ≤ infinityBits := by
    unfold rank rankOfBits at h h'
    split at h <;> omega
  rcases unpack_cases x.toModel.toBits.toBitVec with ⟨-, hnan⟩ | ⟨-, hrounded, -⟩
  · exact absurd hbits (Nat.not_le.2 hnan)
  · exact hrounded.number

/-- A number made from bits has their rank. -/
theorem rank_ofBits {w : Nat} (hw : w < 2 ^ 32) (h : w % 2 ^ 31 ≤ infinityBits) :
    rank (.ofBits (.ofNat w)) = rankOfBits w := by
  have htoNat : (UInt32.ofNat w).toBitVec.toNat = w := Nat.mod_eq_of_lt hw
  rcases unpack_cases (UInt32.ofNat w).toBitVec with ⟨-, hnan⟩ | ⟨-, hrounded, -, hplace⟩
  · rw [htoNat] at hnan
    exact absurd h (Nat.not_le.2 hnan)
  · refine (rankOfBits_pack hrounded).trans ?_
    rw [hplace, htoNat]
    refine confine_eq ?_ ?_ <;> unfold rankOfBits <;> split <;> omega

def positiveInfinity : Float32 := .ofBits 0x7F800000

def negativeInfinity : Float32 := .ofBits 0xFF800000

/-- A whole number of 32 bits is a number that is not negative. -/
theorem number_ofNat {n : Nat} (hn : n < 2 ^ 32) :
    (Float32.ofNat n).isNaN = false ∧ 0 ≤ rank (.ofNat n) := by
  rcases Nat.eq_zero_or_pos n with rfl | hpos
  · decide
  · obtain ⟨m, e, hm, hunpack, -, hlow, -⟩ := isNormal_ofNat (Nat.ne_of_gt hpos) hn
    have hnumber : (Float32.ofNat n).isNaN = false := by
      rw [Bool.eq_false_iff, Ne, isNaN_iff, hunpack]
      exact nofun
    refine ⟨hnumber, ?_⟩
    rw [← (unpack_number hnumber).2.2.2, hunpack]
    simp only [place, Sign.apply]
    omega

/-- A number that is packed again. -/
def packed (u : UnpackedFloat) : Float32 := .ofModel (.pack u)

theorem rank_packed {u : UnpackedFloat} (h : Rounded u) : rank (packed u) = confine (place u) :=
  rankOfBits_pack h

theorem number_packed {u : UnpackedFloat} (h : Rounded u) : (packed u).isNaN = false := by
  have hbound : -(infinityBits : Int) ≤ confine (place u) ∧ confine (place u) ≤ infinityBits := by
    unfold confine
    omega
  rw [← rank_packed h] at hbound
  exact number_of_rank hbound.1 hbound.2

end AudioShader
