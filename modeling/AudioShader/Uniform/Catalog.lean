/-
# Sources of uniforms

The values that the pipeline computes for a uniform at each tick, by the names
under which a stage asks for them.

Key definitions: `SourceKind`, `BindSource`, `BindSource.catalog`,
`BindSource.ofName?`.
-/
import AudioShader.Uniform.Value

namespace AudioShader

/-- The number of audio channels. -/
def channelCount : Nat := 2

/-- A channel of the audio. -/
inductive Channel where
  | left
  | right
  deriving DecidableEq

namespace Channel

def index : Channel → Nat
  | .left => 0
  | .right => 1

end Channel

/-- What a value is computed from. -/
inductive SourceKind where
  /-- What the stage before has drawn. -/
  | previous
  | audio (channel : Channel)
  /-- The length of the audio buffers. -/
  | audioLength
  | screenSize
  /-- Seconds since the pipeline was built. -/
  | time
  deriving DecidableEq

namespace SourceKind

def channel? : SourceKind → Option Channel
  | .audio channel => some channel
  | _ => none

def isAudio (k : SourceKind) : Bool := k.channel?.isSome

end SourceKind

/-- An entry of the catalog. -/
structure BindSource where
  name : String
  type : ValueType
  kind : SourceKind
  deriving DecidableEq

namespace BindSource

def catalog : List BindSource :=
  [⟨"prev", .sampler2D, .previous⟩,
   ⟨"audio_l", .sampler1D, .audio .left⟩,
   ⟨"audio_r", .sampler1D, .audio .right⟩,
   ⟨"audio_sz", .int, .audioLength⟩,
   ⟨"screen", .ivec2, .screenSize⟩,
   ⟨"time", .float, .time⟩]

def ofName? (name : String) : Option BindSource := catalog.find? fun s => s.name == name

theorem mem_catalog_of_ofName? {name : String} {s : BindSource} (h : ofName? name = some s) :
    s ∈ catalog :=
  List.mem_of_find?_eq_some h

end BindSource
end AudioShader
