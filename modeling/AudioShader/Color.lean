/-
# Color literals

A color is written with six hexadecimal digits, or eight with an alpha pair,
in a shader, a setting or a live update. Each pair of digits is one channel
between zero and one.

Key definitions: `Color`, `ColorFault`, `readChannels`, `Color.ofHex`,
`Color.toGlsl`, `Color.scan`.
-/
import AudioShader.Text.Blank
import AudioShader.Number.Decimal

namespace AudioShader

/-- The longest run of digits that a color has. -/
def maxHexDigits : Nat := 8

/-- Why a text is no color. -/
inductive ColorFault where
  | badDigit (c : Char)
  | length (found : Nat)
  deriving DecidableEq

namespace ColorFault

/-- The name of the cause. -/
def label : ColorFault → String
  | .badDigit _ => "InvalidDigit"
  | .length _ => "Length"

def message : ColorFault → String
  | .badDigit c => s!"invalid hex digit '{c}' in color literal"
  | .length n => s!"color literal must have 6 or 8 hex digits, found {n}"

end ColorFault

/-- The value of a hexadecimal digit of either case. -/
def hexValue? (c : Char) : Option Nat :=
  if '0' ≤ c ∧ c ≤ '9' then some (c.toNat - '0'.toNat)
  else if 'a' ≤ c ∧ c ≤ 'f' then some (c.toNat - 'a'.toNat + 10)
  else if 'A' ≤ c ∧ c ≤ 'F' then some (c.toNat - 'A'.toNat + 10)
  else none

def isHexDigit (c : Char) : Bool := (hexValue? c).isSome

/-- The values of hexadecimal digits; the first other character is the fault. -/
def readNibbles : List Char → Except ColorFault (List Nat)
  | [] => .ok []
  | c :: cs =>
    match hexValue? c with
    | none => .error (.badDigit c)
    | some v => (readNibbles cs).map (v :: ·)

/-- The channel that a pair of digits stands for. -/
def channelOf (high low : Nat) : Float32 := Float32.ofNat (16 * high + low) / 255

/-- The channels that digits stand for in pairs. -/
def pairChannels : List Nat → List Float32
  | high :: low :: rest => channelOf high low :: pairChannels rest
  | _ => []

/-- The channels of a run of digits. A bad digit is reported before a bad length. -/
def readChannels (digits : List Char) : Except ColorFault (List Float32) := do
  let nibbles ← readNibbles digits
  if nibbles.length % 2 ≠ 0 then throw (.length nibbles.length)
  return pairChannels nibbles

/-- A color with its transparency. -/
structure Color where
  red : Float32
  green : Float32
  blue : Float32
  alpha : Float32

namespace Color

def toList (c : Color) : List Float32 := [c.red, c.green, c.blue, c.alpha]

/-- The color of four channels. -/
def ofList? : List Float32 → Option Color
  | [r, g, b, a] => some ⟨r, g, b, a⟩
  | _ => none

/-- Reads a color with or without a leading `#`; its length counts bytes. -/
def ofHex (s : String) : Except ColorFault Color := do
  let digits := match s.toList with
    | '#' :: cs => cs
    | cs => cs
  let size := (String.ofList digits).utf8ByteSize
  if maxHexDigits < size then throw (.length size)
  match ← readChannels digits with
  | [r, g, b] => return ⟨r, g, b, 1.0⟩
  | [r, g, b, a] => return ⟨r, g, b, a⟩
  | _ => throw (.length size)

/-- The color as a vector of the shading language, with six decimals. -/
def toGlsl (c : Color) : String :=
  let channels := c.toList.map fun x => (Binary.ofFloat32 x).fixed 6
  "vec4(" ++ String.intercalate ", " channels ++ ")"

/-- Reads a color behind a `#` in a line: the color and what follows it. No
color stands there if the `#` is followed by neither a digit nor a name. -/
def scan (cs : List Char) : Except ColorFault (Option (Color × List Char)) := do
  let digits := (cs.take maxHexDigits).takeWhile isHexDigit
  let rest := cs.drop digits.length
  match rest.head? with
  | some c =>
    if Text.isNameChar c then
      if digits ≠ [] ∧ isHexDigit c then throw (.length (digits.length + 1))
      else throw (.badDigit c)
  | none => pure ()
  if digits = [] then return none
  return some (← ofHex (String.ofList digits), rest)

end Color
end AudioShader
