/-
# Values from outside

The values of the declared names, each with a slot of its own. Updates come as
texts and are decoded for the declared type; a text that does not decode leaves
the value as it was.

Key definitions: `decodeValue`, `ExternalValues`, `ExternalValues.ofBinds`,
`ExternalValues.set`.
-/
import AudioShader.Color
import AudioShader.Number.Reading
import AudioShader.Text.Search
import AudioShader.Uniform.Value

namespace AudioShader

/-- Why a text is no value of a type. -/
inductive DecodeFault where
  | int (fault : IntFault)
  | float (fault : FloatFault)
  | bool
  | color (fault : ColorFault)
  | component (part : String) (fault : FloatFault)
  | components (expected found : Nat)
  deriving DecidableEq

namespace DecodeFault

def message : DecodeFault → String
  | .int fault => fault.message
  | .float fault => fault.message
  | .bool => "expected true or false"
  | .color fault => fault.message
  | .component part fault => s!"'{part}': {fault.message}"
  | .components expected found => s!"expected {expected} components, found {found}"

end DecodeFault

/-- Why a value is not set. -/
inductive ExternalError where
  | unknownBind (name : String)
  | decode (name : String) (type : BindType) (text : String) (fault : DecodeFault)
  deriving DecidableEq

namespace ExternalError

/-- The name of the cause. -/
def label : ExternalError → String
  | .unknownBind _ => "UnknownBind"
  | .decode _ _ _ _ => "Decode"

def message : ExternalError → String
  | .unknownBind name => s!"no external bind named '{name}' was declared"
  | .decode name type text fault =>
    s!"cannot decode '{text}' as {type.name} for bind '{name}': {fault.message}"

end ExternalError

/-! ### Decoding -/

/-- What stands inside parentheses, or the whole text. -/
def insideParens (cs : List Char) : List Char :=
  match cs with
  | '(' :: rest => if rest.getLast? = some ')' then rest.dropLast else cs
  | _ => cs

/-- The parts between commas and blanks. -/
def tupleParts (cs : List Char) : List (List Char) :=
  let spaced := cs.map fun c => if Text.isBlank c then ',' else c
  (Text.splitAt ',' spaced).filter fun part => !part.isEmpty

/-- Reads numbers with commas or blanks between them. -/
def readTuple (cs : List Char) : Except DecodeFault (List Float32) :=
  (tupleParts (insideParens cs)).mapM fun part =>
    match readFloat32 (String.ofList part) with
    | .ok x => .ok x
    | .error fault => .error (.component (String.ofList part) fault)

/-- The channels of a color. -/
def readChannelList (s : String) : Except DecodeFault (List Float32) :=
  match Color.ofHex s with
  | .ok color => .ok color.toList
  | .error fault => .error (.color fault)

/-- Reads the components of a vector; of a color only the first ones count. -/
def readComponents (want : Nat) (s : String) : Except DecodeFault (List Float32) := do
  let isColor := s.toList.head? == some '#'
  let found ← if isColor then readChannelList s else readTuple s.toList
  if found.length = want ∨ (isColor ∧ want < found.length) then return found.take want
  else throw (.components want found.length)

/-- A truth value in words or digits. -/
def readBool (s : String) : Except DecodeFault Bool :=
  if s = "true" ∨ s = "1" then .ok true
  else if s = "false" ∨ s = "0" then .ok false
  else .error .bool

/-- The vector of components, whose number is that of the type. -/
def vectorOf : List Float32 → UniformValue
  | [x, y] => .vec2 x y
  | [x, y, z] => .vec3 x y z
  | [x, y, z, w] => .vec4 x y z w
  | _ => .bool false

/-- The value of a type that a text without blanks around it stands for. -/
def readValue (type : BindType) (s : String) : Except DecodeFault UniformValue :=
  match type with
  | .float =>
    match readFloat32 s with
    | .ok x => .ok (.float x)
    | .error fault => .error (.float fault)
  | .int =>
    match readInt32 s with
    | .ok n => .ok (.int n)
    | .error fault => .error (.int fault)
  | .bool => (readBool s).map .bool
  | .vec2 | .vec3 | .vec4 => (readComponents type.components s).map vectorOf

/-- Decodes a text as the value of a name. -/
def decodeValue (name : String) (type : BindType) (text : String) :
    Except ExternalError UniformValue :=
  match readValue type (Text.trimmed text) with
  | .ok value => .ok value
  | .error fault => .error (.decode name type text fault)

/-- The value of a type that no text gives. -/
def zeroOf : BindType → UniformValue
  | .float => .float 0.0
  | .int => .int 0
  | .bool => .bool false
  | .vec2 => .vec2 0.0 0.0
  | .vec3 => .vec3 0.0 0.0 0.0
  | .vec4 => .vec4 0.0 0.0 0.0 0.0

theorem zero?_ofBind (t : BindType) : UniformValue.zero? (.ofBind t) = some (zeroOf t) := by
  cases t <;> rfl

/-! ### Slots -/

/-- The latest value of a declared name. -/
structure Slot where
  name : String
  type : BindType
  value : UniformValue

/-- The slots of all declarations, in their order. -/
structure ExternalValues where
  slots : List Slot := []

namespace ExternalValues

/-- The slot of a declaration, with its first value. -/
def slotOf (b : BindDecl) : Except ExternalError Slot :=
  match b.value with
  | some text => (decodeValue b.name b.type text).map fun value => ⟨b.name, b.type, value⟩
  | none => .ok ⟨b.name, b.type, zeroOf b.type⟩

/-- A slot for each declaration. -/
def ofBinds (binds : List BindDecl) : Except ExternalError ExternalValues :=
  (binds.mapM slotOf).map ExternalValues.mk

/-- All values, in the order of their declarations. -/
def values (e : ExternalValues) : List UniformValue := e.slots.map (·.value)

def slot? (e : ExternalValues) (name : String) : Option Slot := e.slots.find? fun s => s.name == name

def get? (e : ExternalValues) (name : String) : Option UniformValue := (e.slot? name).map (·.value)

/-- Replaces the value of the first slot of a name. -/
def replace (name : String) (value : UniformValue) : List Slot → List Slot
  | [] => []
  | s :: ss => if s.name = name then { s with value } :: ss else s :: replace name value ss

/-- Decodes a text for a name and stores the value. -/
def set (e : ExternalValues) (name text : String) : Except ExternalError ExternalValues :=
  match e.slot? name with
  | none => .error (.unknownBind name)
  | some slot => (decodeValue name slot.type text).map fun value => ⟨replace name value e.slots⟩

end ExternalValues
end AudioShader
