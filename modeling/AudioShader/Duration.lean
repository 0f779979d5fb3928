/-
# Durations

Lengths of time in seconds and nanoseconds, read from numbers of seconds and
from texts such as `2m 30s`: counts, each with a unit, added up. A count may
have a fraction if that is a whole number of smaller steps: `0.5h` is half an
hour, and a part of a nanosecond is refused.

Key definitions: `Duration`, `DurationFault`, `Duration.ofSeconds?`,
`Duration.read`.
-/
import AudioShader.Number.Decimal
import AudioShader.Number.Reading

namespace AudioShader

def nanosPerSecond : Nat := 1000000000

/-- A length of time; its nanoseconds are less than a second. -/
structure Duration where
  secs : Nat
  nanos : Nat
  deriving DecidableEq

/-- Why a text stands for no duration. -/
inductive DurationFault where
  /-- It is not written as one, or a number in it is larger than a word. -/
  | malformed
  /-- Its nanoseconds fill exactly one second when its seconds fill a word;
  reading breaks off there. -/
  | overlong
  deriving DecidableEq

namespace Duration

/-- Seconds and counts are words of 64 bits. -/
def wordLimit : Nat := UInt64.size

def zero : Duration := ⟨0, 0⟩

def isZero (d : Duration) : Bool := d.secs == 0 && d.nanos == 0

/-- All of it in nanoseconds. -/
def toNanos (d : Duration) : Nat := d.secs * nanosPerSecond + d.nanos

/-- The duration of a number of nanoseconds, if its seconds fit a word. -/
def ofNanos? (n : Nat) : Option Duration :=
  if n / nanosPerSecond < wordLimit then some ⟨n / nanosPerSecond, n % nanosPerSecond⟩ else none

/-- The duration of a nonnegative number of seconds, to the nearest nanosecond. -/
def ofSeconds? (x : Float) : Option Duration :=
  if x.isInf then none
  else
    let (num, den) := Binary.ratioAt (Binary.ofFloat x).mantissa (Binary.ofFloat x).exponent (-9)
    ofNanos? (roundDiv num den)

/-! ### Reading -/

/-- The nanoseconds of a unit. -/
def unitNanos? (unit : String) : Option Nat :=
  if unit ∈ ["nanos", "nsec", "ns"] then some 1
  else if unit ∈ ["usec", "us", "µs"] then some 1000
  else if unit ∈ ["millis", "msec", "ms"] then some 1000000
  else if unit ∈ ["seconds", "second", "secs", "sec", "s"] then some nanosPerSecond
  else if unit ∈ ["minutes", "minute", "min", "mins", "m"] then some (60 * nanosPerSecond)
  else if unit ∈ ["hours", "hour", "hr", "hrs", "h"] then some (3600 * nanosPerSecond)
  else if unit ∈ ["days", "day", "d"] then some (86400 * nanosPerSecond)
  else if unit ∈ ["weeks", "week", "wk", "wks", "w"] then some (7 * 86400 * nanosPerSecond)
  else if unit ∈ ["months", "month", "M"] then some (2630016 * nanosPerSecond)
  else if unit ∈ ["years", "year", "yr", "yrs", "y"] then some (31557600 * nanosPerSecond)
  else none

def isUnitChar (c : Char) : Bool := c.isAlpha || c == 'µ'

/-- Reads digits with blanks between them after a count `n`, which must stay a
word: the count and the rest. -/
def readCount? : (n : Nat) → List Char → Option (Nat × List Char)
  | n, [] => some (n, [])
  | n, c :: cs =>
    if c.isDigit then
      let m := 10 * n + digitValue c
      if m < wordLimit then readCount? m cs else none
    else if Text.isBlank c then readCount? n cs
    else some (n, c :: cs)

/-- Reads the part behind a point as a fraction `num / den`, and the rest. -/
def readFraction? : (num den : Nat) → List Char → Option ((Nat × Nat) × List Char)
  | num, den, [] => if den = 1 then none else some ((num, den), [])
  | num, den, c :: cs =>
    if c.isDigit then
      if 10 * den < wordLimit then readFraction? (10 * num + digitValue c) (10 * den) cs else none
    else if Text.isBlank c then readFraction? num den cs
    else if den = 1 then none
    else some ((num, den), c :: cs)

theorem readCount?_length : ∀ {n m : Nat} {cs rest : List Char},
    readCount? n cs = some (m, rest) → rest.length ≤ cs.length
  | n, m, [], rest, h => by
    simp only [readCount?, Option.some.injEq, Prod.mk.injEq] at h
    simp [← h.2]
  | n, m, c :: cs, rest, h => by
    simp only [readCount?] at h
    split at h
    · split at h
      · exact Nat.le_succ_of_le (readCount?_length h)
      · simp at h
    · split at h
      · exact Nat.le_succ_of_le (readCount?_length h)
      · simp only [Option.some.injEq, Prod.mk.injEq] at h
        simp [← h.2]

theorem readFraction?_length : ∀ {num den : Nat} {f : Nat × Nat} {cs rest : List Char},
    readFraction? num den cs = some (f, rest) → rest.length ≤ cs.length
  | num, den, f, [], rest, h => by
    simp only [readFraction?] at h
    split at h
    · simp at h
    · simp only [Option.some.injEq, Prod.mk.injEq] at h
      simp [← h.2]
  | num, den, f, c :: cs, rest, h => by
    simp only [readFraction?] at h
    split at h
    · split at h
      · exact Nat.le_succ_of_le (readFraction?_length h)
      · simp at h
    · split at h
      · exact Nat.le_succ_of_le (readFraction?_length h)
      · split at h
        · simp at h
        · simp only [Option.some.injEq, Prod.mk.injEq] at h
          simp [← h.2]

/-- Reads the fraction behind a count, if there is one. -/
def readTail? (cs : List Char) : Option (Option (Nat × Nat) × List Char) :=
  match cs with
  | '.' :: more => (readFraction? 0 1 more).map fun p => (some p.1, p.2)
  | _ => some (none, cs)

theorem readTail?_length {f : Option (Nat × Nat)} {cs rest : List Char}
    (h : readTail? cs = some (f, rest)) : rest.length ≤ cs.length := by
  unfold readTail? at h
  split at h
  · obtain ⟨p, hp, he⟩ := Option.map_eq_some_iff.1 h
    obtain ⟨-, rfl⟩ := Prod.mk.inj he
    exact Nat.le_succ_of_le (readFraction?_length hp)
  · simp only [Option.some.injEq, Prod.mk.injEq] at h
    simp [← h.2]

/-! ### Adding up -/

/-- The duration with `n` seconds added, which with its own fit a word. -/
def addSeconds (d : Duration) (n : Nat) : Except DurationFault Duration :=
  if d.secs + n < wordLimit then .ok { d with secs := d.secs + n } else .error .malformed

/-- The duration with `n` nanoseconds added, which with its own fit a word. -/
def addNanos (d : Duration) (n : Nat) : Except DurationFault Duration :=
  if wordLimit ≤ d.nanos + n then .error .malformed
  else
    match ofNanos? (d.toNanos + n) with
    | some sum => .ok sum
    | none => .error (if d.nanos + n = nanosPerSecond then .overlong else .malformed)

/-- The duration with `count` units added; units of whole seconds are added to
its seconds. -/
def addCount (d : Duration) (unit count : Nat) : Except DurationFault Duration :=
  if unit < nanosPerSecond then d.addNanos (count * unit)
  else d.addSeconds (count * (unit / nanosPerSecond))

/-- The step that a fraction of a unit is a whole number of: a nanosecond up to
the minute, a second above. A nanosecond has no fractions. -/
def fractionStep? (unit : Nat) : Option Nat :=
  if unit ≤ 1 then none
  else if unit ≤ 60 * nanosPerSecond then some 1
  else some nanosPerSecond

/-- The duration with a fraction of a unit added. -/
def addFraction (d : Duration) (unit num den : Nat) : Except DurationFault Duration :=
  match fractionStep? unit with
  | none => .error .malformed
  | some step =>
    let scaled := num * (unit / step)
    if scaled < wordLimit ∧ scaled % den = 0 then d.addCount step (scaled / den)
    else .error .malformed

/-- The duration with a count, and then its fraction, of a unit added. -/
def addUnits (d : Duration) (unit count : Nat) (fraction : Option (Nat × Nat)) :
    Except DurationFault Duration := do
  let sum ← d.addCount unit count
  match fraction with
  | some (num, den) => sum.addFraction unit num den
  | none => return sum

/-- Whether a unit may end before these characters. -/
def endsUnit : List Char → Bool
  | [] => true
  | c :: _ => c.isDigit || Text.isBlank c

/-- Reads counts with units and adds them to `d`. -/
def readSpans (d : Duration) (cs : List Char) : Except DurationFault Duration :=
  match cs with
  | [] => .ok d
  | c :: cs =>
    if c.isDigit then
      match h : readCount? (digitValue c) cs with
      | none => .error .malformed
      | some (count, more) =>
        match h' : readTail? more with
        | none => .error .malformed
        | some (fraction, tail) =>
          let rest := tail.dropWhile isUnitChar
          match unitNanos? (String.ofList (tail.takeWhile isUnitChar)), endsUnit rest with
          | some unit, true =>
            match d.addUnits unit count fraction with
            | .error fault => .error fault
            | .ok sum =>
              have := readCount?_length h
              have := readTail?_length h'
              have := Text.length_dropWhile_le isUnitChar tail
              have := Text.length_trimStart_le (tail.dropWhile isUnitChar)
              readSpans sum (Text.trimStart rest)
          | _, _ => .error .malformed
    else .error .malformed
termination_by cs.length
decreasing_by simp only [List.length_cons]; omega

/-- Reads a duration: spans with blanks around them, or a zero without a unit. -/
def read (s : String) : Except DurationFault Duration :=
  if s = "0" then .ok zero
  else
    match Text.trimStart s.toList with
    | [] => .error .malformed
    | cs => readSpans zero cs

end Duration
end AudioShader
