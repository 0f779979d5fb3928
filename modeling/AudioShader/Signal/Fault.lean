/-
# Transforms and what can be wrong with them

The transforms that a chain is made of, their names, and the reasons for which
one is refused.

Key definitions: `Transform`, `Transform.ofName`, `TransformError`,
`isBufferLength`.
-/

namespace AudioShader

/-- A transform of a buffer. -/
inductive Transform where
  | window
  | fft
  | gravity
  | average
  | wrange
  | smooth
  deriving DecidableEq

namespace Transform

/-- All transforms, in their listed order. -/
def all : List Transform := [.window, .fft, .gravity, .average, .wrange, .smooth]

def name : Transform → String
  | .window => "window"
  | .fft => "fft"
  | .gravity => "gravity"
  | .average => "avg"
  | .wrange => "wrange"
  | .smooth => "smooth"

/-- The place of a transform in the listed order. -/
def index : Transform → Nat
  | .window => 0
  | .fft => 1
  | .gravity => 2
  | .average => 3
  | .wrange => 4
  | .smooth => 5

theorem all_getElem?_index (t : Transform) : all[t.index]? = some t := by cases t <;> rfl

/-- Whether the transform keeps a state from one update to the next. -/
def isStateful : Transform → Bool
  | .gravity => true
  | .average => true
  | _ => false

end Transform

/-- A parameter that no transform can run with. -/
inductive BadParameter where
  /-- An update rate, as it reads, that is not positive and finite. -/
  | updateRate (shown : String)
  | noFrames
  deriving DecidableEq

namespace BadParameter

def message : BadParameter → String
  | .updateRate shown => s!"update rate must be positive, got {shown}"
  | .noFrames => "average frame count must be at least 1"

end BadParameter

/-- Why a transform is refused. -/
inductive TransformError where
  | unknownTransform (name : String)
  | notPowerOfTwo (len : Nat)
  | bufferLength (kind : Transform) (expected found : Nat)
  | parameter (fault : BadParameter)
  /-- A step of a binding's chain found the state of another transform. -/
  | stateMismatch (binding step : Nat) (found : Transform)
  deriving DecidableEq

namespace TransformError

/-- The name of the cause. -/
def label : TransformError → String
  | .unknownTransform _ => "UnknownTransform"
  | .notPowerOfTwo _ => "NotPowerOfTwo"
  | .bufferLength _ _ _ => "BufferLength"
  | .parameter _ => "Parameter"
  | .stateMismatch _ _ _ => "StateMismatch"

def message : TransformError → String
  | .unknownTransform name => s!"unknown transform '{name}'"
  | .notPowerOfTwo len => s!"buffer length {len} is not a power of two of at least 2"
  | .bufferLength kind expected found =>
    s!"{kind.name} state was sized for {expected} samples, got {found}"
  | .parameter fault => s!"invalid transform parameter: {fault.message}"
  | .stateMismatch binding step found =>
    s!"binding {binding} step {step} already holds {found.name} state"

end TransformError

/-- The transform of a name. -/
def Transform.ofName (name : String) : Except TransformError Transform :=
  match Transform.all.find? fun t => t.name == name with
  | some t => .ok t
  | none => .error (.unknownTransform name)

theorem Transform.ofName_name (t : Transform) : Transform.ofName t.name = .ok t := by
  cases t <;> rfl

/-- The lengths that buffers have: powers of two of at least two. -/
def isBufferLength (n : Nat) : Bool := 2 ≤ n && Nat.pow 2 n.log2 == n

end AudioShader
