/-
# Reading numbers

The numbers on directive lines, in settings and in live updates: integers with
an optional sign and a range, and decimals with an optional sign, fraction and
exponent, `inf`, `infinity` and `nan`. A decimal is rounded once, straight to
the format it is read for.

Key definitions: `IntFault`, `readInt`, `FloatFault`, `readNumeral`,
`readFloat`, `readFloat32`.
-/
import AudioShader.Number.Decimal
import AudioShader.Text.Blank

namespace AudioShader

/-! ### Integers -/

/-- Why a text is no integer of a range. -/
inductive IntFault where
  | empty
  | badDigit
  | tooLarge
  | tooSmall
  deriving DecidableEq

namespace IntFault

def message : IntFault → String
  | .empty => "cannot parse integer from empty string"
  | .badDigit => "invalid digit found in string"
  | .tooLarge => "number too large to fit in target type"
  | .tooSmall => "number too small to fit in target type"

end IntFault

/-- The value of a decimal digit. -/
def digitValue (c : Char) : Nat := c.toNat - '0'.toNat

/-- Reads decimal digits after a number `n`, refusing values above `limit` with
`excess`; what comes first in the text decides. -/
def readDigits (limit : Nat) (excess : IntFault) : Nat → List Char → Except IntFault Nat
  | n, [] => .ok n
  | n, c :: cs =>
    if c.isDigit = false then .error .badDigit
    else if limit < 10 * n + digitValue c then .error excess
    else readDigits limit excess (10 * n + digitValue c) cs

theorem readDigits_le (limit : Nat) (excess : IntFault) : ∀ (n : Nat) (cs : List Char) (m : Nat),
    n ≤ limit → readDigits limit excess n cs = .ok m → m ≤ limit
  | n, [], m, hn, h => by simp only [readDigits, Except.ok.injEq] at h; omega
  | n, c :: cs, m, hn, h => by
    simp only [readDigits] at h
    split at h
    · simp at h
    · split at h
      · simp at h
      · exact readDigits_le limit excess _ cs m (by omega) h

/-- Reads an integer from `-below` to `above`. -/
def readInt (below above : Nat) (s : String) : Except IntFault Int :=
  match s.toList with
  | [] => .error .empty
  | ['+'] => .error .badDigit
  | ['-'] => .error .badDigit
  | '+' :: cs => (readDigits above .tooLarge 0 cs).map Int.ofNat
  | '-' :: cs => (readDigits below .tooSmall 0 cs).map fun n => -(Int.ofNat n)
  | cs => (readDigits above .tooLarge 0 cs).map Int.ofNat

/-- Reads a signed integer of 64 bits. -/
def readInt64 (s : String) : Except IntFault Int := readInt (UInt64.size / 2) (UInt64.size / 2 - 1) s

/-- Reads a signed integer of 32 bits. -/
def readInt32 (s : String) : Except IntFault Int := readInt (UInt32.size / 2) (UInt32.size / 2 - 1) s

/-- Reads a natural number of 64 bits, which may have a plus sign. -/
def readWord64? (cs : List Char) : Option Nat :=
  let digits := match cs with
    | '+' :: ds => ds
    | ds => ds
  if digits.isEmpty then none else (readDigits (UInt64.size - 1) .tooLarge 0 digits).toOption

/-! ### Decimals -/

/-- Why a text is no number. -/
inductive FloatFault where
  | empty
  | malformed
  deriving DecidableEq

namespace FloatFault

def message : FloatFault → String
  | .empty => "cannot parse float from empty string"
  | .malformed => "invalid float literal"

end FloatFault

/-- What the text of a number says, apart from its sign. -/
inductive Magnitude where
  | nan
  | infinity
  /-- The number `mantissa * 10 ^ exponent`. -/
  | finite (mantissa : Nat) (exponent : Int)
  deriving DecidableEq

/-- The text of a number, read. -/
structure Numeral where
  negative : Bool
  magnitude : Magnitude
  deriving DecidableEq

/-- The value of a run of decimal digits. -/
def digitsValue (cs : List Char) : Nat := cs.foldl (fun n c => 10 * n + digitValue c) 0

/-- Reads the exponent behind a mantissa: nothing, or `e`, a sign and digits. -/
def readExponent? : List Char → Option Int
  | [] => some 0
  | c :: cs =>
    if c = 'e' ∨ c = 'E' then
      let (negative, digits) := match cs with
        | '+' :: ds => (false, ds)
        | '-' :: ds => (true, ds)
        | ds => (false, ds)
      if digits.isEmpty || !digits.all Char.isDigit then none
      else
        let n : Int := digitsValue digits
        some (if negative then -n else n)
    else none

/-- Reads digits with an optional fraction and exponent; one digit must stand
before or behind the point. -/
def readDecimal? (cs : List Char) : Option Magnitude :=
  let whole := cs.takeWhile Char.isDigit
  let (fraction, rest) := match cs.dropWhile Char.isDigit with
    | '.' :: more => (more.takeWhile Char.isDigit, more.dropWhile Char.isDigit)
    | more => ([], more)
  if whole.isEmpty && fraction.isEmpty then none
  else (readExponent? rest).map fun e =>
    .finite (digitsValue (whole ++ fraction)) (e - fraction.length)

/-- Reads a number without its sign. -/
def readMagnitude? (cs : List Char) : Option Magnitude :=
  let word := String.ofList (cs.map Char.toLower)
  if word = "nan" then some .nan
  else if word = "inf" ∨ word = "infinity" then some .infinity
  else readDecimal? cs

/-- Reads the text of a number. -/
def readNumeral (s : String) : Except FloatFault Numeral :=
  let (negative, cs) := match s.toList with
    | '-' :: cs => (true, cs)
    | '+' :: cs => (false, cs)
    | cs => (false, cs)
  if s.toList.isEmpty then .error .empty
  else match readMagnitude? cs with
    | some magnitude => .ok ⟨negative, magnitude⟩
    | none => .error .malformed

namespace Magnitude

/-- The number `mantissa * 10 ^ exponent` in a format, by its bits. A leading
digit so far out that every format holds only zero or infinity there is not
computed with. -/
def decimalBits (f : BinaryFormat) (mantissa : Nat) (exponent : Int) : Nat :=
  let lead := exponent + (Nat.toDigits 10 mantissa).length
  if mantissa = 0 ∨ lead < -400 then 0
  else if 400 < lead then f.infinity
  else f.nearest (mantissa * Nat.pow 10 exponent.toNat) (Nat.pow 10 (-exponent).toNat)

/-- The bits of a number in a format; what is no number has a bit behind infinity's. -/
def bits (f : BinaryFormat) : Magnitude → Nat
  | .nan => f.infinity + Nat.pow 2 (f.width - 1)
  | .infinity => f.infinity
  | .finite mantissa exponent => decimalBits f mantissa exponent

end Magnitude

namespace Numeral

/-- The double-precision number nearest to what the text says. -/
def toFloat (n : Numeral) : Float :=
  let x := Float.ofBits (n.magnitude.bits .double).toUInt64
  if n.negative then -x else x

/-- The single-precision number nearest to what the text says. -/
def toFloat32 (n : Numeral) : Float32 :=
  let x := Float32.ofBits (n.magnitude.bits .single).toUInt32
  if n.negative then -x else x

end Numeral

/-- Reads a double-precision number. -/
def readFloat (s : String) : Except FloatFault Float := (readNumeral s).map Numeral.toFloat

/-- Reads a single-precision number. -/
def readFloat32 (s : String) : Except FloatFault Float32 := (readNumeral s).map Numeral.toFloat32

end AudioShader
