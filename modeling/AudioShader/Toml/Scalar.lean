/-
# Scalars of TOML

Keys, texts, numbers and dates of the configuration language TOML 1.0.

Key definitions: `Toml.readText?`, `Toml.readInteger?`, `Toml.readFloat?`,
`Toml.isDate`, `Toml.readWord?`, `Toml.readKey?`.
-/
import AudioShader.Number.Reading
import AudioShader.Text.Search
import AudioShader.Toml.Datum

namespace AudioShader
namespace Toml

/-- What a reader gives: a value and what follows it. -/
abbrev Result (α : Type) := Option (α × List Char)

/-- Spaces and tabs, which may stand between the parts of a line. -/
def isGap (c : Char) : Bool := c == ' ' || c == '\t'

def skipGaps (cs : List Char) : List Char := cs.dropWhile isGap

/-- Controls other than the tab, which stand nowhere. -/
def isBarred (c : Char) : Bool := (c.toNat < 0x20 && c != '\t') || c.toNat == 0x7F

/-- What follows a line end. -/
def newline? : List Char → Option (List Char)
  | '\n' :: cs => some cs
  | '\r' :: '\n' :: cs => some cs
  | _ => none

/-! ### Texts -/

/-- The character of a one-letter escape. -/
def escape? : Char → Option Char
  | 'b' => some '\x08'
  | 't' => some '\t'
  | 'n' => some '\n'
  | 'f' => some '\x0c'
  | 'r' => some '\r'
  | '"' => some '"'
  | '\\' => some '\\'
  | _ => none

/-- The value of a hexadecimal digit. -/
def hexDigit? (c : Char) : Option Nat :=
  if c.isDigit then some (c.toNat - '0'.toNat)
  else if 'a' ≤ c ∧ c ≤ 'f' then some (c.toNat - 'a'.toNat + 10)
  else if 'A' ≤ c ∧ c ≤ 'F' then some (c.toNat - 'A'.toNat + 10)
  else none

/-- The character whose code point is written in hexadecimal. -/
def codePoint? (digits : List Char) : Option Char := do
  let n ← digits.foldlM (fun n c => (hexDigit? c).map (16 * n + ·)) 0
  if n < 0xD800 ∨ (0xDFFF < n ∧ n < 0x110000) then some (Char.ofNat n) else none

/-- A result with one more character in front. -/
def cons? (c : Char) (r : Result (List Char)) : Result (List Char) :=
  r.map fun p => (c :: p.1, p.2)

/-- Reads a text on one line behind its quote. -/
def readBasic? : List Char → Result (List Char)
  | [] => none
  | '"' :: cs => some ([], cs)
  | '\\' :: 'u' :: a :: b :: c :: d :: cs =>
    (codePoint? [a, b, c, d]).bind fun x => cons? x (readBasic? cs)
  | '\\' :: 'U' :: a :: b :: c :: d :: e :: f :: g :: h :: cs =>
    (codePoint? [a, b, c, d, e, f, g, h]).bind fun x => cons? x (readBasic? cs)
  | '\\' :: c :: cs => (escape? c).bind fun x => cons? x (readBasic? cs)
  | c :: cs => if isBarred c then none else cons? c (readBasic? cs)

/-- Reads a text on several lines behind its quotes. Behind a backslash at the
end of a line, `skipping` drops blanks and line ends. -/
def readLongBasic? : (skipping : Bool) → List Char → Result (List Char)
  | _, [] => none
  | true, ' ' :: cs => readLongBasic? true cs
  | true, '\t' :: cs => readLongBasic? true cs
  | true, '\n' :: cs => readLongBasic? true cs
  | true, '\r' :: '\n' :: cs => readLongBasic? true cs
  | _, '"' :: '"' :: '"' :: '"' :: '"' :: cs => some (['"', '"'], cs)
  | _, '"' :: '"' :: '"' :: '"' :: cs => some (['"'], cs)
  | _, '"' :: '"' :: '"' :: cs => some ([], cs)
  | _, '\\' :: 'u' :: a :: b :: c :: d :: cs =>
    (codePoint? [a, b, c, d]).bind fun x => cons? x (readLongBasic? false cs)
  | _, '\\' :: 'U' :: a :: b :: c :: d :: e :: f :: g :: h :: cs =>
    (codePoint? [a, b, c, d, e, f, g, h]).bind fun x => cons? x (readLongBasic? false cs)
  | _, '\\' :: c :: cs =>
    match escape? c with
    | some x => cons? x (readLongBasic? false cs)
    | none => if (newline? (skipGaps (c :: cs))).isSome then readLongBasic? true (c :: cs) else none
  | _, '\r' :: '\n' :: cs => cons? '\n' (readLongBasic? false cs)
  | _, '\n' :: cs => cons? '\n' (readLongBasic? false cs)
  | _, c :: cs => if isBarred c then none else cons? c (readLongBasic? false cs)

/-- Reads a text in single quotes, which has no escapes. -/
def readLiteral? : List Char → Result (List Char)
  | [] => none
  | '\'' :: cs => some ([], cs)
  | c :: cs => if isBarred c then none else cons? c (readLiteral? cs)

/-- Reads a text on several lines in single quotes. -/
def readLongLiteral? : List Char → Result (List Char)
  | [] => none
  | '\'' :: '\'' :: '\'' :: '\'' :: '\'' :: cs => some (['\'', '\''], cs)
  | '\'' :: '\'' :: '\'' :: '\'' :: cs => some (['\''], cs)
  | '\'' :: '\'' :: '\'' :: cs => some ([], cs)
  | '\r' :: '\n' :: cs => cons? '\n' (readLongLiteral? cs)
  | '\n' :: cs => cons? '\n' (readLongLiteral? cs)
  | c :: cs => if isBarred c then none else cons? c (readLongLiteral? cs)

/-- The text behind opening quotes that a line end may follow. -/
def dropNewline (cs : List Char) : List Char := (newline? cs).getD cs

/-- Reads a text of any kind; `none` if no quote stands here. -/
def readText? (cs : List Char) : Option (Result (List Char)) :=
  match cs with
  | '"' :: '"' :: '"' :: cs => some (readLongBasic? false (dropNewline cs))
  | '"' :: cs => some (readBasic? cs)
  | '\'' :: '\'' :: '\'' :: cs => some (readLongLiteral? (dropNewline cs))
  | '\'' :: cs => some (readLiteral? cs)
  | _ => none

/-! ### Numbers -/

/-- Digits of a class with single underscores between them. -/
def isDigits (p : Char → Bool) (cs : List Char) : Bool :=
  (Text.splitAt '_' cs).all fun part => !part.isEmpty && part.all p

/-- Decimal digits without a leading zero, except for zero itself. -/
def isWhole (cs : List Char) : Bool := isDigits Char.isDigit cs && (cs == ['0'] || cs.head? != some '0')

/-- The word without its sign. -/
def unsigned (cs : List Char) : List Char :=
  match cs with
  | '+' :: ds => ds
  | '-' :: ds => ds
  | ds => ds

/-- The number that digits of a base make, if it has at most 63 bits. -/
def inBase? (base : Nat) (p : Char → Bool) (cs : List Char) : Option Int := do
  if !isDigits p cs then none
  let n ← (cs.filter (· != '_')).foldlM (fun n c => (hexDigit? c).map (base * n + ·)) 0
  if n < UInt64.size / 2 then some n else none

/-- Reads an integer of 64 bits. -/
def readInteger? (cs : List Char) : Option Int :=
  match cs with
  | '0' :: 'x' :: ds => inBase? 16 (fun c => (hexDigit? c).isSome) ds
  | '0' :: 'o' :: ds => inBase? 8 (fun c => '0' ≤ c && c ≤ '7') ds
  | '0' :: 'b' :: ds => inBase? 2 (fun c => c == '0' || c == '1') ds
  | _ =>
    if isWhole (unsigned cs) then
      (readInt64 (String.ofList (cs.filter (· != '_')))).toOption
    else none

/-- Digits behind a point or an exponent's sign. -/
def isFraction (cs : List Char) : Bool := isDigits Char.isDigit cs

/-- An exponent without its mark. -/
def isExponent (cs : List Char) : Bool := isFraction (unsigned cs)

/-- The form of a number with a fraction, an exponent or both. -/
def isFloatForm (cs : List Char) : Bool :=
  let mark (c : Char) : Bool := c == 'e' || c == 'E'
  let body := unsigned cs
  let mantissa := body.takeWhile fun c => !mark c
  let exponent := (body.dropWhile fun c => !mark c).drop 1
  let hasExponent := mantissa.length < body.length
  match Text.splitAt '.' mantissa with
  | [whole] => isWhole whole && hasExponent && isExponent exponent
  | [whole, fraction] =>
    isWhole whole && isFraction fraction && (!hasExponent || isExponent exponent)
  | _ => false

/-- Reads a number with a fraction or an exponent, or one that is none or
infinite by its name. A positive number too large for the format is refused. -/
def readFloat? (cs : List Char) : Option Float :=
  let word := String.ofList (unsigned cs)
  if word = "inf" ∨ word = "nan" then (readFloat (String.ofList cs)).toOption
  else if isFloatForm cs then
    ((readFloat (String.ofList (cs.filter (· != '_')))).toOption).filter fun x =>
      !(x.isInf && 0.0 < x)
  else none

/-! ### Dates -/

/-- The value of a run of digits of a given length, if it is between bounds. -/
def inBounds (width low high : Nat) (cs : List Char) : Bool :=
  cs.length == width && cs.all Char.isDigit && low ≤ digitsValue cs && digitsValue cs ≤ high

/-- The days of a month. -/
def daysOf (year month : Nat) : Nat :=
  if month = 2 then
    (if year % 4 = 0 ∧ (year % 100 ≠ 0 ∨ year % 400 = 0) then 29 else 28)
  else if month ∈ [4, 6, 9, 11] then 30 else 31

/-- A year, month and day. -/
def isDay (cs : List Char) : Bool :=
  match Text.splitAt '-' cs with
  | [y, m, d] =>
    inBounds 4 0 9999 y && inBounds 2 1 12 m &&
      inBounds 2 1 (daysOf (digitsValue y) (digitsValue m)) d
  | _ => false

/-- Hours, minutes and seconds, with a fraction or not. -/
def isClock (cs : List Char) : Bool :=
  match Text.splitAt ':' cs with
  | [h, m, s] =>
    inBounds 2 0 23 h && inBounds 2 0 59 m &&
      match Text.splitAt '.' s with
      | [whole] => inBounds 2 0 60 whole
      | [whole, fraction] =>
        inBounds 2 0 60 whole && !fraction.isEmpty && fraction.all Char.isDigit
      | _ => false
  | _ => false

/-- Hours and minutes from the meridian. -/
def isOffset (cs : List Char) : Bool :=
  match Text.splitAt ':' cs with
  | [h, m] => inBounds 2 0 23 h && inBounds 2 0 59 m
  | _ => false

/-- A time of day with an offset or not. -/
def isTime (cs : List Char) : Bool :=
  let clock := cs.takeWhile fun c => c.isDigit || c == ':' || c == '.'
  match cs.drop clock.length with
  | [] => isClock clock
  | ['Z'] => isClock clock
  | ['z'] => isClock clock
  | '+' :: offset => isClock clock && isOffset offset
  | '-' :: offset => isClock clock && isOffset offset
  | _ => false

/-- A date, a time of day, or both. -/
def isDate (cs : List Char) : Bool :=
  isClock cs || isDay cs ||
    (isDay (cs.take 10) &&
      match cs.drop 10 with
      | c :: time => (c == 'T' || c == 't' || c == ' ') && isTime time
      | [] => false)

/-! ### Words -/

def isWordChar (c : Char) : Bool :=
  c.isAlphanum || c == '_' || c == '+' || c == '-' || c == '.' || c == ':'

/-- Reads a value that is no text, list or table. A date and a time of day may
have a space between them. -/
def readWord? (cs : List Char) : Result Datum :=
  let word := cs.takeWhile isWordChar
  let rest := cs.drop word.length
  if word = "true".toList then some (.bool true, rest)
  else if word = "false".toList then some (.bool false, rest)
  else
    match readInteger? word with
    | some n => some (.int n, rest)
    | none =>
      match readFloat? word with
      | some x => some (.float x, rest)
      | none =>
        let long := word ++ ' ' :: (rest.drop 1).takeWhile isWordChar
        if rest.head? = some ' ' ∧ isDate long then some (.date, cs.drop long.length)
        else if isDate word then some (.date, rest)
        else none

/-! ### Keys -/

def isKeyChar (c : Char) : Bool := c.isAlphanum || c == '_' || c == '-'

/-- Reads one part of a key. -/
def readKeyPart? (cs : List Char) : Result String :=
  match cs with
  | '"' :: cs => (readBasic? cs).map fun p => (String.ofList p.1, p.2)
  | '\'' :: cs => (readLiteral? cs).map fun p => (String.ofList p.1, p.2)
  | _ =>
    let name := cs.takeWhile isKeyChar
    if name.isEmpty then none else some (String.ofList name, cs.drop name.length)

/-- Reads a key of parts with points between them, at most `limit` of them. -/
def readKey? : (limit : Nat) → List Char → Result (List String)
  | 0, _ => none
  | limit + 1, cs =>
    match readKeyPart? (skipGaps cs) with
    | none => none
    | some (part, rest) =>
      match skipGaps rest with
      | '.' :: more => (readKey? limit more).map fun p => (part :: p.1, p.2)
      | more => some ([part], more)

end Toml
end AudioShader
