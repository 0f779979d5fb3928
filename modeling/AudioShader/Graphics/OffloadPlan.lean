/-
# Device objects for tails

What a device makes to run the tails of chains: one module, one layout, and a
pipeline for each pass. The passes blend single floating-point values, which
not every device can; one that cannot makes all objects and then refuses them.

Key definitions: `PassBlend`, `PassPipeline`, `OffloadPlan`, `OffloadPlan.create`.
-/
import AudioShader.Graphics.Backend
import AudioShader.Text.Quoted

namespace AudioShader

/-- How a pass joins what it draws with what is there. -/
inductive PassBlend where
  | replace
  | larger
  | sum
  deriving DecidableEq

namespace PassBlend

/-- The operation and the factors of the new and the old value. -/
def render : PassBlend → String
  | .replace => "Add One Zero"
  | .larger => "Max One One"
  | .sum => "Add One One"

end PassBlend

/-- The pipeline of a pass. -/
structure PassPipeline where
  label : String
  /-- The function of the module that computes a value. -/
  entry : String
  blend : PassBlend
  deriving DecidableEq

/-- All that a device is asked to make. -/
structure OffloadPlan where
  module : String
  layout : String
  /-- What is bound, by its number. -/
  bindings : List (Nat × String)
  pipelines : List PassPipeline

namespace OffloadPlan

/-- The format of all buffers of the passes. -/
def format : String := "R32Float"

def standard : OffloadPlan where
  module := "offload passes"
  layout := "offload layout"
  bindings := [(0, "uniform"), (1, "D2")]
  pipelines :=
    [⟨"offload dft", "dft", .replace⟩, ⟨"offload dft max", "dft", .larger⟩,
     ⟨"offload decay", "decay", .sum⟩, ⟨"offload average", "average", .replace⟩]

/-- The objects in the order they are made, one line each. -/
def lines (p : OffloadPlan) : List String :=
  let bound := String.intercalate " " (p.bindings.map fun b => s!"{b.1}={b.2}")
  ("module " ++ Text.quoted p.module ++ " Wgsl") ::
    ("layout " ++ Text.quoted p.layout ++ " [" ++ bound ++ "]") ::
    p.pipelines.map fun q =>
      "pipeline " ++ Text.quoted q.label ++ " " ++ q.entry ++ " " ++ format ++ " " ++ q.blend.render

/-- The objects that a device makes, and whether it keeps them. -/
def create (p : OffloadPlan) (blendsFloats : Bool) : List String × Except BackendError Unit :=
  (p.lines, if blendsFloats then .ok () else .error (.device s!"{format} is not blendable"))

end OffloadPlan
end AudioShader
