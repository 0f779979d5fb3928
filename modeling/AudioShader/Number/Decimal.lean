/-
# Decimals of binary numbers

A finite nonnegative floating-point number is `m * 2 ^ q`. From that form, in
exact arithmetic, come the two decimal texts the library writes: with a fixed
number of places, and with the fewest digits that read back to the number. The
way back, from a quotient to the nearest number, is exact as well.

Key definitions: `Binary`, `Binary.ofFloat`, `Binary.ofFloat32`,
`BinaryFormat.nearest`, `Binary.fixed`, `Binary.shortest`, `FloatText.render`.
Key theorems: `roundDiv_near`.
-/

namespace AudioShader

/-- A floating-point format: significands store `width` bits, and numbers are
multiples of `2 ^ least`. -/
structure BinaryFormat where
  width : Nat
  least : Int
  /-- The bits of infinity. -/
  infinity : Nat

namespace BinaryFormat

def single : BinaryFormat := ⟨23, -149, 0x7F800000⟩

def double : BinaryFormat := ⟨52, -1074, 0x7FF0000000000000⟩

end BinaryFormat

/-- A finite nonnegative number `mantissa * 2 ^ exponent`. -/
structure Binary where
  mantissa : Nat
  exponent : Int
  /-- The gap to the number below is half the gap to the number above. -/
  narrowBelow : Bool
  deriving DecidableEq

namespace Binary

/-- The number whose bits, without the sign, are `bits` in a format. -/
def ofBits (f : BinaryFormat) (bits : Nat) : Binary :=
  let field := bits / Nat.pow 2 f.width
  let fraction := bits % Nat.pow 2 f.width
  if field = 0 then ⟨fraction, f.least, false⟩
  else ⟨Nat.pow 2 f.width + fraction, f.least + (field - 1 : Nat), fraction == 0 && 1 < field⟩

/-- The absolute value of a finite double-precision number. -/
def ofFloat (x : Float) : Binary := ofBits .double (x.toBits.toNat % (UInt64.size / 2))

/-- The absolute value of a finite single-precision number. -/
def ofFloat32 (x : Float32) : Binary := ofBits .single (x.toBits.toNat % (UInt32.size / 2))

end Binary

/-! ### Rounding a quotient -/

/-- The integer nearest to `num / den`; of two equally near, the even one. -/
def roundDiv (num den : Nat) : Nat :=
  let q := num / den
  let r := num % den
  if 2 * r < den then q
  else if den < 2 * r then q + 1
  else if q % 2 = 0 then q else q + 1

/-- A rounded quotient is within half a unit of the exact one. -/
theorem roundDiv_near (num den : Nat) (h : 0 < den) :
    2 * (roundDiv num den * den) ≤ 2 * num + den ∧
      2 * num ≤ 2 * (roundDiv num den * den) + den := by
  have e : den * (num / den) + num % den = num := Nat.div_add_mod num den
  have l : num % den < den := Nat.mod_lt _ h
  simp only [roundDiv]
  generalize num / den = q at *
  generalize num % den = r at *
  have hq : (q + 1) * den = den * q + den := by rw [Nat.add_mul, Nat.mul_comm]; simp
  have hq0 : q * den = den * q := Nat.mul_comm ..
  generalize den * q = p at *
  split
  · omega
  · split
    · omega
    · split <;> omega

/-- The exponent `e` with `2 ^ e ≤ num / den < 2 ^ (e + 1)`, for a positive quotient. -/
def leadingExponent (num den : Nat) : Int :=
  let e : Int := num.log2 - den.log2
  if num * Nat.pow 2 (-e).toNat < den * Nat.pow 2 e.toNat then e - 1 else e

/-- The bits of the number of a format nearest to a positive `num / den`; of two
equally near, the one with the even significand. -/
def BinaryFormat.nearest (f : BinaryFormat) (num den : Nat) : Nat :=
  let exponent := max f.least (leadingExponent num den - f.width)
  let significand :=
    roundDiv (num * Nat.pow 2 (-exponent).toNat) (den * Nat.pow 2 exponent.toNat)
  min f.infinity ((exponent - f.least).toNat * Nat.pow 2 f.width + significand)

namespace Binary

/-- `mantissa * 2 ^ exponent / 10 ^ place` as a numerator and a denominator. -/
def ratioAt (mantissa : Nat) (exponent place : Int) : Nat × Nat :=
  (mantissa * Nat.pow 2 exponent.toNat * Nat.pow 10 (-place).toNat,
    Nat.pow 2 (-exponent).toNat * Nat.pow 10 place.toNat)

/-- The whole part of a number. -/
def whole (x : Binary) : Nat := (ratioAt x.mantissa x.exponent 0).1 / (ratioAt x.mantissa x.exponent 0).2

/-- The digits of a number in a base, filled with zeros on the left to `width`. -/
def padded (base width n : Nat) : List Char :=
  let digits := Nat.toDigits base n
  List.replicate (width - digits.length) '0' ++ digits

/-- The number with `places` digits after the point; a tie goes to the even
neighbour. -/
def fixed (places : Nat) (x : Binary) : String :=
  let (num, den) := ratioAt x.mantissa x.exponent (-places)
  let digits := padded 10 (places + 1) (roundDiv num den)
  let whole := digits.length - places
  String.ofList (digits.take whole ++ '.' :: digits.drop whole)

end Binary

/-! ### The fewest digits that read back -/

/-- The number `digits * 10 ^ exponent`. -/
structure Decimal where
  digits : Nat
  exponent : Int
  deriving DecidableEq

namespace Binary

/-- Whether a decimal lies among the reals that round to `x`: between the
halfway points to its neighbours, which belong to the numbers with an even
mantissa. -/
def readsBack (x : Binary) (d : Decimal) : Bool :=
  let low := ratioAt (4 * x.mantissa - if x.narrowBelow then 1 else 2) (x.exponent - 2) d.exponent
  let high := ratioAt (4 * x.mantissa + 2) (x.exponent - 2) d.exponent
  if x.mantissa % 2 = 0 then
    low.1 ≤ d.digits * low.2 && d.digits * high.2 ≤ high.1
  else
    low.1 < d.digits * low.2 && d.digits * high.2 < high.1

/-- The first place `k` from a given one on, within `tries` steps, with
`x < 10 ^ k`. -/
def scaleFrom (x : Binary) : (tries : Nat) → Int → Int
  | 0, k => k
  | tries + 1, k =>
    let (num, den) := ratioAt x.mantissa x.exponent k
    if num < den then k else scaleFrom x tries (k + 1)

/-- The least `k` with `x < 10 ^ k`, for a positive `x`. -/
def scale (x : Binary) : Int :=
  let lead : Int := (x.mantissa.log2 : Int) + x.exponent
  scaleFrom x 4 (lead * 30103 / 100000 - 1)

/-- The neighbour of `x` on the grid of multiples of `10 ^ place` that reads
back, the nearer one if both do, and the upper one if both are as near. -/
def onGrid? (x : Binary) (place : Int) : Option Decimal :=
  let (num, den) := ratioAt x.mantissa x.exponent place
  let below : Decimal := ⟨num / den, place⟩
  let above : Decimal := ⟨num / den + 1, place⟩
  match x.readsBack below, x.readsBack above with
  | true, true => some (if 2 * (num % den) < den then below else above)
  | true, false => some below
  | false, true => some above
  | false, false => none

/-- The first grid, coarsest first, that holds a decimal reading back to `x`. -/
def search (x : Binary) : (tries : Nat) → (place : Int) → Option Decimal
  | 0, _ => none
  | tries + 1, place => (onGrid? x place).or (search x tries (place - 1))

/-- The decimal with the fewest digits that reads back to a positive `x`. -/
def shortest (x : Binary) : Decimal :=
  (search x 17 (x.scale - 1)).getD ⟨(ratioAt x.mantissa x.exponent 0).1, 0⟩

end Binary

namespace Decimal

/-- The digits without trailing zeros, which go to the exponent. -/
def stripped (d : Decimal) : List Char × Int :=
  let digits := Nat.toDigits 10 d.digits
  let kept := (digits.reverse.dropWhile (· == '0')).reverse
  (kept, d.exponent + (digits.length - kept.length : Nat))

/-- A positive decimal with all its places written out, and a point only before
a fraction. -/
def plain (d : Decimal) : String :=
  let (digits, exponent) := d.stripped
  let lead : Int := exponent + digits.length - 1
  if 0 ≤ exponent then String.ofList (digits ++ List.replicate exponent.toNat '0')
  else if lead < 0 then
    String.ofList ('0' :: '.' :: List.replicate (-lead - 1).toNat '0' ++ digits)
  else String.ofList (digits.take (lead + 1).toNat ++ '.' :: digits.drop (lead + 1).toNat)

/-- A positive decimal: from `10 ^ -4` to below `10 ^ 16` written out, with a
point and at least one place behind it; elsewhere with an exponent. -/
def render (d : Decimal) : String :=
  let (digits, exponent) := d.stripped
  let lead : Int := exponent + digits.length - 1
  if -4 ≤ lead ∧ lead < 16 then
    if 0 ≤ exponent then d.plain ++ ".0" else d.plain
  else
    let tail := match digits.drop 1 with
      | [] => []
      | more => '.' :: more
    String.ofList (digits.take 1 ++ tail ++ 'e' :: (toString lead).toList)

end Decimal

/-! ### The text of a floating-point number -/

namespace FloatText

/-- The text of a number with a given sign and absolute value. -/
def signed (negative : Bool) (x : Binary) : String :=
  let text := if x.mantissa = 0 then "0.0" else x.shortest.render
  if negative then "-" ++ text else text

/-- A double-precision number as logs and messages show it. -/
def render (x : Float) : String :=
  if x.isNaN then "NaN"
  else if x.isInf then (if x < 0 then "-inf" else "inf")
  else signed (UInt64.size / 2 ≤ x.toBits.toNat) (.ofFloat x)

/-- A single-precision number as logs and messages show it. -/
def render32 (x : Float32) : String :=
  if x.isNaN then "NaN"
  else if x.isInf then (if x < 0 then "-inf" else "inf")
  else signed (UInt32.size / 2 ≤ x.toBits.toNat) (.ofFloat32 x)

/-- A single-precision number with `places` digits after the point. -/
def fixed32 (places : Nat) (x : Float32) : String :=
  if x.isNaN || x.isInf then render32 x
  else
    let text := (Binary.ofFloat32 x).fixed places
    if UInt32.size / 2 ≤ x.toBits.toNat then "-" ++ text else text

/-- The thousandths of a finite double-precision number, rounded half away from zero. -/
def thousandths (x : Float) : Int :=
  let y := (x * 1000.0).round
  let b := Binary.ofFloat y
  let n : Int := b.whole
  if y < 0.0 then -n else n

end FloatText
end AudioShader
