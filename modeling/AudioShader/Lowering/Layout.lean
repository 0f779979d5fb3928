/-
# Layout of uniform blocks

The members of a block are placed by the std140 rules: each at the least
multiple of its alignment that is not below the end of the member before it.

Key definitions: `ValueType.blockSize`, `ValueType.blockAlign`, `roundUp`,
`SlotLayout`, `SlotLayout.ofDeclarations`.
Key theorems: `le_roundUp`, `dvd_roundUp`.
-/
import AudioShader.Uniform.Value

namespace AudioShader

namespace ValueType

/-- The bytes that a member of a block takes; a sampler is no member. -/
def blockSize : ValueType → Nat
  | .float | .int | .bool => 4
  | .vec2 | .ivec2 => 8
  | .vec3 => 12
  | .vec4 => 16
  | .sampler1D | .sampler2D => 0

/-- What the offset of a member is a multiple of. -/
def blockAlign : ValueType → Nat
  | .float | .int | .bool => 4
  | .vec2 | .ivec2 => 8
  | .vec3 | .vec4 => 16
  | .sampler1D | .sampler2D => 1

theorem blockAlign_pos (t : ValueType) : 0 < t.blockAlign := by cases t <;> decide

end ValueType

/-- The least multiple of `align` that is not below `n`. -/
def roundUp (n align : Nat) : Nat := (n + align - 1) / align * align

theorem le_roundUp (n align : Nat) (h : 0 < align) : n ≤ roundUp n align := by
  unfold roundUp
  have := Nat.div_add_mod (n + align - 1) align
  have := Nat.mod_lt (n + align - 1) h
  have e : (n + align - 1) / align * align = align * ((n + align - 1) / align) := Nat.mul_comm ..
  omega

theorem dvd_roundUp (n align : Nat) : align ∣ roundUp n align := ⟨_, Nat.mul_comm ..⟩

/-- Where the value of a uniform is kept. -/
inductive SlotKind where
  /-- In the block, at an offset in bytes. -/
  | block (offset : Nat)
  /-- As a texture and its sampler. -/
  | texture (index : Nat)
  deriving DecidableEq

/-- A uniform with its place. -/
structure UniformSlot where
  name : String
  type : ValueType
  kind : SlotKind
  deriving DecidableEq

/-- The slots so far, the end of the block and the number of textures. -/
structure SlotLayout where
  slots : List UniformSlot := []
  blockEnd : Nat := 0
  textures : Nat := 0

namespace SlotLayout

/-- Places one more uniform. -/
def add (l : SlotLayout) (type : ValueType) (name : String) : SlotLayout :=
  if type.isSampler then
    { l with slots := l.slots ++ [⟨name, type, .texture l.textures⟩], textures := l.textures + 1 }
  else
    let offset := roundUp l.blockEnd type.blockAlign
    { l with slots := l.slots ++ [⟨name, type, .block offset⟩], blockEnd := offset + type.blockSize }

/-- Uniforms placed in the order of their declarations. -/
def ofDeclarations (ds : List (ValueType × String)) : SlotLayout :=
  ds.foldl (fun l d => l.add d.1 d.2) {}

/-- The bytes of the block: a positive multiple of sixteen. -/
def blockSize (l : SlotLayout) : Nat := max (roundUp l.blockEnd 16) 16

end SlotLayout
end AudioShader
