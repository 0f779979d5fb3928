/-
# The window of smoothing

The window around a position reaches from the position divided by a factor to the
position times that factor, on a logarithmic scale, and both ends are clamped to
the last position. Whatever functions stand for the logarithm and the exponential,
as long as they never fall, the window does not end before it starts.

The last position is clamped to as a number of single precision, which has 24
bits. For a longer buffer that number is the length itself, and a window that
reaches it ends one position behind the buffer.

Key definitions: `Single.windowOn`, `Single.LogExp`, `Single.positionUpTo`.
Key theorems: `Single.windowOn_ordered`, `Single.rank_last`,
`Single.window_within_buffer_iff`.
-/
import AudioShader.Proofs.Number.Rounding
import AudioShader.Proofs.Settings.Independent
import AudioShader.Proofs.Signal.Positions
import AudioShader.Signal.Reshape

namespace AudioShader
namespace Single

variable {ln exp : Float32 → Float32} {t len : Nat} {last x y d : Float32}

/-- The window that smoothing takes with a logarithm and an exponential function. -/
def windowOn (ln exp : Float32 → Float32) (t len : Nat) (d : Float32) : Nat × Nat :=
  @smoothWindow Float32 _ (scale ln exp) t len d

theorem windowOn_log_exp (t len : Nat) (d : Float32) :
    windowOn Float32.log Float32.exp t len d = smoothWindow t len d := rfl

/-- What smoothing relies on of its logarithm and its exponential function. -/
structure LogExp (ln exp : Float32 → Float32) : Prop where
  ln_mono : ∀ {x y}, 0.0 ≤ x → x ≤ y → ln x ≤ ln y
  ln_zero : ln 0.0 = negativeInfinity
  exp_mono : ∀ {x y}, x ≤ y → exp x ≤ exp y

/-- What it relies on for distances that are infinite: an exponential function that
comes down to zero, and gives no number for what is none. -/
structure Ends (exp : Float32 → Float32) : Prop where
  bottom : exp negativeInfinity ≤ 0.0
  isNaN : ∀ {x}, x.isNaN = true → (exp x).isNaN = true

/-! ### Clamped positions -/

/-- The position of a number that is clamped between zero and a last one. -/
def positionUpTo (last x : Float32) : Nat := toIndex (clamp 0.0 last x)

theorem windowOn_eq : windowOn ln exp t len d =
    (positionUpTo (.ofNat (len - 1)) (floor (exp (ln (.ofNat t) - d))),
      positionUpTo (.ofNat (len - 1)) (ceil (exp (ln (.ofNat t) + d)))) := rfl

theorem number_zero : (0.0 : Float32).isNaN = false := by decide

theorem positionUpTo_of_isNaN (hx : x.isNaN = true) : positionUpTo last x = 0 := by
  rw [positionUpTo, clamp_of_isNaN hx, toIndex_of_isNaN hx]

theorem positionUpTo_floor_of_isNaN (hx : x.isNaN = true) : positionUpTo last (floor x) = 0 := by
  rw [floor, mapBits_of_isNaN hx, positionUpTo_of_isNaN hx]

section Clamped

variable (hlast : last.isNaN = false) (hpos : 0 ≤ rank last)
include hlast hpos

/-- A clamped position goes by the rank. -/
theorem positionUpTo_eq (hx : x.isNaN = false) :
    positionUpTo last x = positionOfRank (min (rank last) (max 0 (rank x))) := by
  have hle : rank 0.0 ≤ rank last := rank_zero.trans_le hpos
  rw [positionUpTo, toIndex_eq (number_clamp number_zero hlast hx),
    rank_clamp number_zero hlast hle hx, rank_zero]
  congr 1
  omega

theorem positionUpTo_mono (hx : x.isNaN = false) (hy : y.isNaN = false) (h : rank x ≤ rank y) :
    positionUpTo last x ≤ positionUpTo last y := by
  rw [positionUpTo_eq hlast hpos hx, positionUpTo_eq hlast hpos hy]
  exact positionOfRank_mono (by omega)

theorem positionUpTo_le (x : Float32) : positionUpTo last x ≤ positionOfRank (rank last) := by
  rcases Bool.eq_false_or_eq_true x.isNaN with hx | hx
  · rw [positionUpTo_of_isNaN hx]
    exact Nat.zero_le _
  · rw [positionUpTo_eq hlast hpos hx]
    exact positionOfRank_mono (Int.min_le_left _ _)

theorem positionUpTo_of_le (h : last ≤ x) :
    positionUpTo last x = positionOfRank (rank last) := by
  have hx := (number_of_le h).2
  rw [le_iff_rank hlast hx] at h
  rw [positionUpTo_eq hlast hpos hx]
  congr 1
  omega

omit hpos in
/-- What stays below the bound has at most the position of the number before it. -/
theorem positionUpTo_of_not_le (hpos : 0 < rank last) (h : ¬last ≤ x) :
    positionUpTo last x ≤ positionOfRank (rank last - 1) := by
  rcases Bool.eq_false_or_eq_true x.isNaN with hx | hx
  · rw [positionUpTo_of_isNaN hx]
    exact Nat.zero_le _
  · rw [le_iff_rank hlast hx] at h
    rw [positionUpTo_eq hlast (Int.le_of_lt hpos) hx]
    exact positionOfRank_mono (by omega)

/-- What is not positive has the first position. -/
theorem positionUpTo_floor_of_nonpos (h : x ≤ 0.0) : positionUpTo last (floor x) = 0 := by
  have hx := (number_of_le h).1
  rw [le_iff_rank hx number_zero, rank_zero] at h
  have hfloor := rank_floor_le hx
  have hfirst : min (rank last) (max 0 (rank (floor x))) = 0 := by omega
  rw [positionUpTo_eq hlast hpos (number_floor hx), hfirst]
  decide

/-- Rounding down one number and up another that is no less keeps the order. -/
theorem positionUpTo_floor_le_ceil (h : x ≤ y) :
    positionUpTo last (floor x) ≤ positionUpTo last (ceil y) := by
  obtain ⟨hx, hy⟩ := number_of_le h
  refine positionUpTo_mono hlast hpos (number_floor hx) (number_ceil hy) ?_
  calc rank (floor x) ≤ rank x := rank_floor_le hx
    _ ≤ rank y := (le_iff_rank hx hy).1 h
    _ ≤ rank (ceil y) := rank_le_ceil hy

end Clamped

/-! ### The window is not empty -/

theorem LogExp.number_ln (h : LogExp ln exp) (ht : t < 2 ^ 32) : (ln (.ofNat t)).isNaN = false := by
  obtain ⟨hnumber, hpos⟩ := number_ofNat ht
  have hzero : (0.0 : Float32) ≤ .ofNat t := (le_iff_rank number_zero hnumber).2 (rank_zero ▸ hpos)
  have hself : Float32.ofNat t ≤ .ofNat t := (le_iff_rank hnumber hnumber).2 (Int.le_refl _)
  exact (number_of_le (h.ln_mono hzero hself)).1

/-- **The window does not end before it starts.** -/
theorem windowOn_ordered (h : LogExp ln exp) (hends : d.isInf = true → Ends exp) (ht : t < 2 ^ 32)
    (hlen : len < 2 ^ 32) (hd : ¬d < 0.0) :
    (windowOn ln exp t len d).1 ≤ (windowOn ln exp t len d).2 := by
  obtain ⟨hlast, hpos⟩ := number_ofNat (n := len - 1) (by omega)
  rw [windowOn_eq]
  rcases Bool.eq_false_or_eq_true d.isNaN with hdnan | hdnumber
  · -- both ends come from the same number, or from none
    rw [sub_eq_add_of_isNaN hdnan]
    rcases Bool.eq_false_or_eq_true (exp (ln (.ofNat t) + d)).isNaN with hz | hz
    · rw [positionUpTo_floor_of_isNaN hz]
      exact Nat.zero_le _
    · exact positionUpTo_floor_le_ceil hlast hpos ((le_iff_rank hz hz).2 (Int.le_refl _))
  · rw [lt_iff_rank hdnumber number_zero, rank_zero, Int.not_lt] at hd
    rcases Bool.eq_false_or_eq_true d.isInf with hinf | hfin
    · rcases sub_infinity (h.number_ln ht) hdnumber hd hinf with hnone | hbottom
      · rw [positionUpTo_floor_of_isNaN ((hends hinf).isNaN hnone)]
        exact Nat.zero_le _
      · rw [hbottom, positionUpTo_floor_of_nonpos hlast hpos (hends hinf).bottom]
        exact Nat.zero_le _
    · exact positionUpTo_floor_le_ceil hlast hpos
        (h.exp_mono (sub_le_add (h.number_ln ht) hdnumber hd hfin))

/-! ### The end of the window -/

/-- The last position of a buffer as a number: it is rounded to the length when it
has more than 24 bits, and then only the number before it is inside the buffer. -/
theorem rank_last : ∀ k < 31, 0 < rank (.ofNat (2 ^ (k + 1) - 1)) ∧
    (k < 24 → positionOfRank (rank (.ofNat (2 ^ (k + 1) - 1))) = 2 ^ (k + 1) - 1) ∧
    (24 ≤ k → Float32.ofNat (2 ^ (k + 1) - 1) = .ofNat (2 ^ (k + 1)) ∧
      positionOfRank (rank (.ofNat (2 ^ (k + 1) - 1))) = 2 ^ (k + 1) ∧
      positionOfRank (rank (.ofNat (2 ^ (k + 1) - 1)) - 1) < 2 ^ (k + 1)) := by
  decide +kernel

theorem eq_of_bufferLength {n : Nat} (h : bufferLength n = .ok len) : len = n := by
  unfold bufferLength at h
  split at h <;> cases h
  rfl

/-- A buffer size that a request sets is a power of two that fits 32 bits. -/
theorem exists_pow_of_read {args : List Arg} (h : Setting.bufferSize.read args = .ok len) :
    ∃ k < 31, len = 2 ^ (k + 1) := by
  obtain ⟨n, hn, hmade⟩ := ok_of_bind h
  obtain ⟨i, -, hpositive⟩ := ok_of_bind hn
  have hsame : len = n := eq_of_bufferLength hmade
  have hfits : len < 2 ^ 32 := hsame ▸ (bounds_of_positive hpositive).2
  obtain ⟨htwo, k, rfl⟩ := pow_of_bufferLength hmade
  have hk : k < 32 := (Nat.pow_lt_pow_iff_right (by decide)).1 hfits
  have hk' : k ≠ 0 := by
    rintro rfl
    exact absurd htwo (by decide)
  exact ⟨k - 1, by omega, by rw [Nat.sub_add_cancel (Nat.pos_of_ne_zero hk')]⟩

theorem not_neg_of_distance (h : distance x = .ok d) : ¬d < 0.0 := by
  unfold distance at h
  split at h
  · cases h
  · next hx =>
    cases h
    exact hx

/-! ### Functions of signs -/

/-- A function with one value below a number, one at it and one above it. -/
def stepAt (pivot low mid high x : Float32) : Float32 :=
  if x < pivot then low else if pivot < x then high else if x.isNaN then x else mid

section StepAt

variable {pivot low mid high : Float32}

theorem stepAt_of_isNaN (hx : x.isNaN = true) : stepAt pivot low mid high x = x := by
  rw [stepAt, if_neg (not_lt_of_isNaN (.inl hx)), if_neg (not_lt_of_isNaN (.inr hx)), if_pos hx]

theorem stepAt_cases (hpivot : pivot.isNaN = false) (hx : x.isNaN = false) :
    rank x < rank pivot ∧ stepAt pivot low mid high x = low ∨
      rank x = rank pivot ∧ stepAt pivot low mid high x = mid ∨
      rank pivot < rank x ∧ stepAt pivot low mid high x = high := by
  simp only [stepAt, lt_iff_rank hx hpivot, lt_iff_rank hpivot hx, hx, Bool.false_eq_true, if_false]
  split
  · next hlt => exact .inl ⟨hlt, rfl⟩
  · split
    · next hgt => exact .inr (.inr ⟨hgt, rfl⟩)
    · exact .inr (.inl ⟨by omega, rfl⟩)

theorem stepAt_mono (hpivot : pivot.isNaN = false) (hlow : low ≤ mid) (hhigh : mid ≤ high)
    (h : x ≤ y) : stepAt pivot low mid high x ≤ stepAt pivot low mid high y := by
  obtain ⟨hx, hy⟩ := number_of_le h
  obtain ⟨hl, hm⟩ := number_of_le hlow
  have hh := (number_of_le hhigh).2
  rw [le_iff_rank hx hy] at h
  rw [le_iff_rank hl hm] at hlow
  rw [le_iff_rank hm hh] at hhigh
  rcases stepAt_cases hpivot hx with ⟨hxp, hxv⟩ | ⟨hxp, hxv⟩ | ⟨hxp, hxv⟩ <;>
    rcases stepAt_cases hpivot hy with ⟨hyp, hyv⟩ | ⟨hyp, hyv⟩ | ⟨hyp, hyv⟩ <;>
    rw [hxv, hyv, le_iff_rank (by assumption) (by assumption)] <;> omega

end StepAt

/-- A logarithm that only tells on which side of one a number lies. -/
def signLn : Float32 → Float32 := stepAt 1.0 negativeInfinity 0.0 positiveInfinity

/-- An exponential function that only tells the sign of the exponent. -/
def signExp : Float32 → Float32 := stepAt 0.0 0.0 1.0 positiveInfinity

theorem logExp_sign : LogExp signLn signExp where
  ln_mono _ h := stepAt_mono (by decide) (by decide) (by decide) h
  ln_zero := by decide
  exp_mono h := stepAt_mono (by decide) (by decide) (by decide) h

theorem ends_sign : Ends signExp where
  bottom := by decide
  isNaN hx := by rwa [signExp, stepAt_of_isNaN hx]

/-! ### Smoothing in long buffers -/

/-- **Smoothing stays in the buffer as long as its length has 24 bits.** The
window is never empty, and ends in the buffer unless that is longer and the upper
end of the window reaches the length: then it ends one position behind. -/
theorem window_within_buffer_iff (h : LogExp ln exp) (hends : d.isInf = true → Ends exp)
    {args : List Arg} (hlen : Setting.bufferSize.read args = .ok len) (hd : distance x = .ok d)
    (ht : t < len) :
    (windowOn ln exp t len d).1 ≤ (windowOn ln exp t len d).2 ∧
      (windowOn ln exp t len d).2 ≤ len ∧
      ((windowOn ln exp t len d).2 ≤ len - 1 ↔
        len ≤ 2 ^ 24 ∨ ¬.ofNat len ≤ ceil (exp (ln (.ofNat t) + d))) := by
  obtain ⟨k, hk, rfl⟩ := exists_pow_of_read hlen
  have hfits : 2 ^ (k + 1) < 2 ^ 32 := (Nat.pow_lt_pow_iff_right (by decide)).2 (by omega)
  have hpositive : 0 < 2 ^ (k + 1) := Nat.two_pow_pos _
  obtain ⟨hlast, -⟩ := number_ofNat (n := 2 ^ (k + 1) - 1) (by omega)
  obtain ⟨hpos, hshort, hlong⟩ := rank_last k hk
  refine ⟨windowOn_ordered h hends (Nat.lt_trans ht hfits) hfits (not_neg_of_distance hd), ?_⟩
  rw [windowOn_eq]
  dsimp only
  generalize ceil (exp (ln (.ofNat t) + d)) = high
  have hend := positionUpTo_le hlast (Int.le_of_lt hpos) high
  rcases Nat.lt_or_ge k 24 with hk24 | hk24
  · rw [hshort hk24] at hend
    have hlen24 : 2 ^ (k + 1) ≤ 2 ^ 24 := Nat.pow_le_pow_right (by decide) (by omega)
    exact ⟨by omega, fun _ => .inl hlen24, fun _ => hend⟩
  · obtain ⟨hsame, hlength, hbefore⟩ := hlong hk24
    have hlen24 : ¬2 ^ (k + 1) ≤ 2 ^ 24 := by
      rw [Nat.pow_le_pow_iff_right (by decide)]
      omega
    rw [hlength] at hend
    refine ⟨hend, fun hle => .inr fun hreach => ?_, fun hreach => ?_⟩
    · rw [← hsame] at hreach
      rw [positionUpTo_of_le hlast (Int.le_of_lt hpos) hreach, hlength] at hle
      omega
    · have hbelow := hreach.resolve_left hlen24
      rw [← hsame] at hbelow
      have hle := positionUpTo_of_not_le hlast hpos hbelow
      omega

/-- In a buffer of one bit more, smoothing over a great distance leaves the buffer. -/
theorem window_behind_long_buffer : LogExp signLn signExp ∧ Ends signExp ∧
    Setting.bufferSize.read [.int 33554432] = .ok (33554432 : Nat) ∧
    distance 1000.0 = .ok 1000.0 ∧ 1 < 33554432 ∧
    (windowOn signLn signExp 1 33554432 1000.0).1 ≤ (windowOn signLn signExp 1 33554432 1000.0).2 ∧
    (windowOn signLn signExp 1 33554432 1000.0).2 ≤ 33554432 ∧
    ¬(windowOn signLn signExp 1 33554432 1000.0).2 ≤ 33554431 := by
  have hread : Setting.bufferSize.read [.int 33554432] = .ok (33554432 : Nat) := by rfl
  have hdistance : distance 1000.0 = .ok 1000.0 := by rfl
  obtain ⟨hordered, hend, hiff⟩ :=
    window_within_buffer_iff (t := 1) logExp_sign (fun _ => ends_sign) hread hdistance (by decide)
  have hreach : ¬(33554432 ≤ 2 ^ 24 ∨
      ¬Float32.ofNat 33554432 ≤ ceil (signExp (signLn (.ofNat 1) + 1000.0))) := by decide +kernel
  exact ⟨logExp_sign, ends_sign, hread, hdistance, by decide, hordered, hend,
    fun h => hreach (hiff.1 h)⟩

/-- Smoothing may take a position behind the buffer. -/
theorem not_always_within_buffer : ¬∀ (ln exp : Float32 → Float32) (args : List Arg) (len t : Nat)
    (x d : Float32), LogExp ln exp → Ends exp → Setting.bufferSize.read args = .ok len →
      distance x = .ok d → t < len →
      (windowOn ln exp t len d).1 ≤ (windowOn ln exp t len d).2 ∧
        (windowOn ln exp t len d).2 ≤ len - 1 := by
  intro h
  have hwindow : windowOn signLn signExp 1 33554432 1000.0 = (0, 33554432) := by decide +kernel
  have hend := (h signLn signExp [.int 33554432] 33554432 1 1000.0 1000.0 logExp_sign ends_sign
    rfl rfl (by decide)).2
  rw [hwindow] at hend
  exact absurd hend (by decide)

end Single
end AudioShader
