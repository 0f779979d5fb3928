/-
# Lowered fragments

A fragment written for one version of the shading language is lowered for a
device that keeps plain uniforms in a block: the version becomes 450, plain
declarations become blank lines, and one text of declarations is put behind the
version. No line moves otherwise, so that `#line` numbers stay right.

Key definitions: `FragmentLine`, `FragmentLine.ofText`, `FragmentLine.lowered`,
`declarationLines`, `lowerFragment`.
-/
import AudioShader.Text.Line
import AudioShader.Lowering.Layout
import AudioShader.Uniform.Declaration

namespace AudioShader

/-- What a line of a fragment is to the lowering. -/
inductive FragmentLine where
  | version
  | uniform (type : ValueType) (name : String)
  /-- An output without a place of its own; `rest` stands behind `out`. -/
  | output (rest : List Char)
  | other (text : List Char)
  deriving DecidableEq

namespace FragmentLine

/-- The kind of a line; `versioned` says that the version has been seen. -/
def ofText (versioned : Bool) (line : List Char) : FragmentLine :=
  let trimmed := Text.trimStart line
  if !versioned && Text.startsWith "#version".toList trimmed then .version
  else
    match declaredExactly? line with
    | some (type, name) => .uniform type name
    | none =>
      match Text.after? "out ".toList trimmed with
      | some rest => if Text.holds "layout".toList trimmed then .other line else .output rest
      | none => .other line

/-- What stands for a line afterwards. -/
def lowered : FragmentLine → List Char
  | .version => "#version 450".toList
  | .uniform _ _ => []
  | .output rest => "layout(location = 0) out ".toList ++ rest
  | .other text => text

/-- The uniform that a line declares. -/
def declaration? : FragmentLine → Option (ValueType × String)
  | .uniform type name => some (type, name)
  | _ => none

/-- The kinds of lines in order. Only the first version counts. -/
def ofLines : (versioned : Bool) → List (List Char) → List FragmentLine
  | _, [] => []
  | versioned, line :: rest =>
    let kind := ofText versioned line
    kind :: ofLines (versioned || kind == .version) rest

end FragmentLine

/-! ### Declarations -/

namespace UniformSlot

/-- The members that a slot adds to the block. -/
def members (s : UniformSlot) : List String :=
  match s.kind with
  | .block _ =>
    let type := if s.type = .bool then ValueType.int.name else s.type.name
    [s!"    {type} _u_{s.name};"]
  | .texture _ => []

/-- What makes the name of a slot stand for its value. -/
def definitions (s : UniformSlot) : List String :=
  match s.kind with
  | .block _ =>
    if s.type = .bool then [s!"#define {s.name} bool(_stage._u_{s.name})"]
    else [s!"#define {s.name} _stage._u_{s.name}"]
  | .texture index =>
    let (texture, sampler) :=
      if s.type = .sampler1D then ("texture1D", "sampler1D") else ("texture2D", "sampler2D")
    let first := 2 * index
    let second := 2 * index + 1
    [s!"layout(set = 1, binding = {first}) uniform {texture} _t_{s.name};",
     s!"layout(set = 1, binding = {second}) uniform sampler _s_{s.name};",
     s!"#define {s.name} {sampler}(_t_{s.name}, _s_{s.name})"]

end UniformSlot

/-- The lines that declare all slots: the block, then the definitions. -/
def declarationLines (slots : List UniformSlot) : List String :=
  let members := slots.flatMap UniformSlot.members
  "layout(std140, set = 0, binding = 0) uniform StageUniforms \x7b" ::
    (if members.isEmpty then ["    vec4 _u_unused;"] else members) ++
    "\x7d _stage;" :: slots.flatMap UniformSlot.definitions

/-- Lines with others put behind the first version, or behind one of their own
in front of all. -/
def insertLines (declared : List (List Char)) (lines : List FragmentLine) : List (List Char) :=
  match lines.findIdx? (· == .version) with
  | some index =>
    (lines.take (index + 1)).map FragmentLine.lowered ++ declared ++
      (lines.drop (index + 1)).map FragmentLine.lowered
  | none =>
    FragmentLine.lowered .version :: declared ++ lines.map FragmentLine.lowered

/-- A fragment for the device, with the places of its uniforms. -/
structure LoweredFragment where
  source : String
  layout : SlotLayout

namespace LoweredFragment

/-- The samplers, by the indices of their textures. -/
def textures (t : LoweredFragment) : List (Nat × ValueType) :=
  t.layout.slots.filterMap fun s =>
    match s.kind with
    | .texture index => some (index, s.type)
    | .block _ => none

end LoweredFragment

/-- Lowers a fragment. -/
def lowerFragment (source : String) : LoweredFragment :=
  let lines := FragmentLine.ofLines false (Text.lines source)
  let layout := SlotLayout.ofDeclarations (lines.filterMap FragmentLine.declaration?)
  let declared := (declarationLines layout.slots).map String.toList
  { source := Text.unlines ((insertLines declared lines).map String.ofList), layout }

end AudioShader
