/-
# Values of uniforms

A uniform is declared with a type and holds a value. A value fits one type, and
a texture either kind of sampler.

Key definitions: `ValueType`, `UniformValue`, `UniformValue.fits`,
`UniformValue.zero?`.
-/
import AudioShader.Number.Decimal
import AudioShader.RunFile.Basic

namespace AudioShader

/-- What a uniform is declared as. -/
inductive ValueType where
  | sampler2D
  | sampler1D
  | int
  | ivec2
  | float
  | bool
  | vec2
  | vec3
  | vec4
  deriving DecidableEq

namespace ValueType

def all : List ValueType := [.sampler2D, .sampler1D, .int, .ivec2, .float, .bool, .vec2, .vec3, .vec4]

/-- The type as the shading language writes it. -/
def name : ValueType → String
  | .sampler2D => "sampler2D"
  | .sampler1D => "sampler1D"
  | .int => "int"
  | .ivec2 => "ivec2"
  | .float => "float"
  | .bool => "bool"
  | .vec2 => "vec2"
  | .vec3 => "vec3"
  | .vec4 => "vec4"

def ofName? (name : String) : Option ValueType := all.find? fun t => t.name == name

theorem ofName?_name (t : ValueType) : ofName? t.name = some t := by cases t <;> decide

theorem name_of_ofName? {s : String} {t : ValueType} (h : ofName? s = some t) : t.name = s := by
  simpa using List.find?_some h

def isSampler : ValueType → Bool
  | .sampler1D | .sampler2D => true
  | _ => false

/-- The type of the uniform that a bound value is given to. -/
def ofBind : BindType → ValueType
  | .float => .float
  | .int => .int
  | .vec2 => .vec2
  | .vec3 => .vec3
  | .vec4 => .vec4
  | .bool => .bool

theorem isSampler_ofBind (t : BindType) : (ofBind t).isSampler = false := by cases t <;> rfl

end ValueType

/-- A texture of a backend. -/
structure TextureId where
  number : Nat
  deriving DecidableEq

inductive UniformValue where
  | float (x : Float32)
  | int (n : Int)
  | bool (b : Bool)
  | vec2 (x y : Float32)
  | vec3 (x y z : Float32)
  | vec4 (x y z w : Float32)
  | ivec2 (x y : Int)
  /-- A sampler reads from a texture. -/
  | texture (id : TextureId)

namespace UniformValue

/-- Whether a uniform declared as a type can hold a value. -/
def fits : UniformValue → ValueType → Bool
  | .float _, .float => true
  | .int _, .int => true
  | .bool _, .bool => true
  | .vec2 _ _, .vec2 => true
  | .vec3 _ _ _, .vec3 => true
  | .vec4 _ _ _ _, .vec4 => true
  | .ivec2 _ _, .ivec2 => true
  | .texture _, .sampler1D => true
  | .texture _, .sampler2D => true
  | _, _ => false

/-- The zero of a type; a sampler has none. -/
def zero? : ValueType → Option UniformValue
  | .float => some (.float 0.0)
  | .int => some (.int 0)
  | .bool => some (.bool false)
  | .vec2 => some (.vec2 0.0 0.0)
  | .vec3 => some (.vec3 0.0 0.0 0.0)
  | .vec4 => some (.vec4 0.0 0.0 0.0 0.0)
  | .ivec2 => some (.ivec2 0 0)
  | .sampler1D | .sampler2D => none

theorem fits_of_zero? {t : ValueType} {v : UniformValue} (h : zero? t = some v) :
    v.fits t = true := by
  cases t <;> simp only [zero?, Option.some.injEq, reduceCtorEq] at h <;> subst h <;> rfl

/-- The texture that a value reads from. -/
def texture? : UniformValue → Option TextureId
  | .texture id => some id
  | _ => none

/-- Texts in brackets. -/
def bracketed (items : List String) : String := "[" ++ String.intercalate ", " items ++ "]"

/-- The value as messages show it. -/
def render : UniformValue → String
  | .float x => "Float(" ++ FloatText.render32 x ++ ")"
  | .int n => s!"Int({n})"
  | .bool b => s!"Bool({b})"
  | .vec2 x y => "Vec2(" ++ bracketed ([x, y].map FloatText.render32) ++ ")"
  | .vec3 x y z => "Vec3(" ++ bracketed ([x, y, z].map FloatText.render32) ++ ")"
  | .vec4 x y z w => "Vec4(" ++ bracketed ([x, y, z, w].map FloatText.render32) ++ ")"
  | .ivec2 x y => "IVec2(" ++ bracketed [toString x, toString y] ++ ")"
  | .texture id => s!"Texture(TextureId({id.number}))"

end UniformValue
end AudioShader
