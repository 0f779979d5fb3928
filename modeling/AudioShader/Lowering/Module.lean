/-
# Shader modules

The modules that a device with the newer shading language is given for a
program: the vertices of one triangle that covers the screen, and a lowered
fragment.

Key definitions: `ShaderModule`, `screenVertices`, `fragmentModule`.
-/
import AudioShader.Text.Quoted
import AudioShader.Lowering.Fragment

namespace AudioShader

/-- The step of drawing that a module is for. -/
inductive ShaderStep where
  | vertex
  | fragment
  deriving DecidableEq

namespace ShaderStep

def name : ShaderStep → String
  | .vertex => "Vertex"
  | .fragment => "Fragment"

end ShaderStep

structure ShaderModule where
  label : String
  step : ShaderStep
  source : String

namespace ShaderModule

/-- The module as logs show it, with its text. -/
def render (m : ShaderModule) : String :=
  "module " ++ Text.quoted m.label ++ " " ++ m.step.name ++ "\n" ++ m.source

end ShaderModule

/-- One triangle that covers the screen. -/
def screenVertices : ShaderModule where
  label := "fullscreen triangle vertex"
  step := .vertex
  source := Text.unlines
    ["#version 450",
     "const vec2 positions[3] = vec2[3](",
     "    vec2(-1.0, -3.0),",
     "    vec2(3.0, 1.0),",
     "    vec2(-1.0, 1.0)",
     ");",
     "",
     "void main() \x7b",
     "    gl_Position = vec4(positions[uint(gl_VertexIndex)], 0.0, 1.0);",
     "\x7d"]

/-- The module of a lowered fragment. -/
def fragmentModule (label : String) (t : LoweredFragment) : ShaderModule :=
  ⟨label, .fragment, t.source⟩

end AudioShader
