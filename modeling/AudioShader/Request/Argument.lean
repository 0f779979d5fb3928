/-
# Request arguments

A request line carries words, some of them quoted. A handler declares what it
takes by a signature with one letter an argument; a word is turned into a value
of that type, and a quoted word is only ever text.

Key definitions: `ArgType`, `Arg`, `Token`, `Token.coerce`, `coerceArgs`.
-/
import AudioShader.Number.Decimal
import AudioShader.Number.Reading
import AudioShader.Text.Quoted

namespace AudioShader

/-- What an argument is declared to be. -/
inductive ArgType where
  | int
  | float
  | text
  | bool
  deriving DecidableEq

namespace ArgType

/-- The type that a letter of a signature stands for. -/
def ofCode? : Char → Option ArgType
  | 'i' => some .int
  | 'f' => some .float
  | 's' => some .text
  | 'b' => some .bool
  | _ => none

def name : ArgType → String
  | .int => "integer"
  | .float => "float"
  | .text => "string"
  | .bool => "boolean"

end ArgType

/-- The value of an argument. -/
inductive Arg where
  | int (value : Int)
  | float (value : Float)
  | text (value : String)
  | bool (value : Bool)

namespace Arg

/-- The declared type that a value has. -/
def type : Arg → ArgType
  | .int _ => .int
  | .float _ => .float
  | .text _ => .text
  | .bool _ => .bool

def asInt? : Arg → Option Int
  | .int n => some n
  | _ => none

/-- The value as a number with a fraction; an integer counts as one. -/
def asFloat? : Arg → Option Float
  | .float x => some x
  | .int n => some (Float.ofInt n)
  | _ => none

def asText? : Arg → Option String
  | .text s => some s
  | _ => none

def asBool? : Arg → Option Bool
  | .bool b => some b
  | _ => none

/-- The value as logs show it. -/
def render : Arg → String
  | .int n => s!"Int({n})"
  | .float x => s!"Float({FloatText.render x})"
  | .text s => s!"Str({Text.quoted s})"
  | .bool b => s!"Bool({b})"

end Arg

/-- A word of a request line. -/
structure Token where
  text : String
  quoted : Bool
  deriving DecidableEq

namespace Token

/-- An unquoted word as a value of a type, if it is one. Numbers must be finite. -/
def readAs (text : String) : ArgType → Option Arg
  | .int => (readInt64 text).toOption.map .int
  | .float => ((readFloat text).toOption.filter Float.isFinite).map .float
  | .text => some (.text text)
  | .bool =>
    if text = "true" then some (.bool true)
    else if text = "false" then some (.bool false)
    else none

/-- The word as a value of a type; a quoted word is only ever text. -/
def coerce (t : Token) (type : ArgType) : Option Arg :=
  if t.quoted then (if type = .text then some (.text t.text) else none)
  else readAs t.text type

/-- A word turned into a value of a type has that type. -/
theorem type_of_readAs {text : String} {type : ArgType} {a : Arg} (h : readAs text type = some a) :
    a.type = type := by
  cases type with
  | int => obtain ⟨n, -, rfl⟩ := Option.map_eq_some_iff.1 h; rfl
  | float => obtain ⟨x, -, rfl⟩ := Option.map_eq_some_iff.1 h; rfl
  | text => simp only [readAs, Option.some.injEq] at h; subst h; rfl
  | bool =>
    simp only [readAs] at h
    split at h
    · simp only [Option.some.injEq] at h; subst h; rfl
    · split at h
      · simp only [Option.some.injEq] at h; subst h; rfl
      · simp at h

theorem type_of_coerce {t : Token} {type : ArgType} {a : Arg} (h : t.coerce type = some a) :
    a.type = type := by
  unfold coerce at h
  split at h
  · split at h
    · next hs => simp only [Option.some.injEq] at h; subst h; exact hs.symm
    · simp at h
  · exact type_of_readAs h

end Token

/-- Why the words of a request line do not fit its signature. -/
inductive CoerceFault where
  | count (expected found : Nat)
  | signature (code : Char)
  /-- The word at `index`, counted from zero, is no `expected`. -/
  | type (index : Nat) (expected : ArgType) (found : String)
  deriving DecidableEq

/-- Turns words into values, letter by letter, from the argument at `index` on. -/
def coerceEach : (index : Nat) → List Char → List Token → Except CoerceFault (List Arg)
  | index, code :: codes, token :: tokens =>
    match ArgType.ofCode? code with
    | none => .error (.signature code)
    | some type =>
      match token.coerce type with
      | none => .error (.type index type token.text)
      | some arg => (coerceEach (index + 1) codes tokens).map (arg :: ·)
  | _, _, _ => .ok []

/-- Turns the words of a request line into the values its signature declares.
Their number is checked first, then the words from left to right. -/
def coerceArgs (signature : String) (tokens : List Token) : Except CoerceFault (List Arg) :=
  if signature.toList.length ≠ tokens.length then
    .error (.count signature.toList.length tokens.length)
  else coerceEach 0 signature.toList tokens

end AudioShader
