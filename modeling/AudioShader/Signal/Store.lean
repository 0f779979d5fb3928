/-
# States of chains

Stateful transforms keep their state between updates, each step of each
binding's chain its own. A state is made when its step first runs and stays
until its binding is released.

Key definitions: `BindingId`, `StateKey`, `TransformState`, `StateStore`,
`StateStore.gravity`, `StateStore.average`, `StateStore.release`.
-/
import AudioShader.Registry
import AudioShader.Signal.Average
import AudioShader.Signal.Gravity

namespace AudioShader

/-- A uniform of a stage, numbered over the whole run. -/
structure BindingId where
  number : Nat
  deriving DecidableEq

/-- A step of a binding's chain, by its place in the chain. -/
structure StateKey where
  binding : BindingId
  step : Nat
  deriving DecidableEq

/-- The state of a stateful transform. -/
inductive TransformState (α : Type) where
  | gravity (state : GravityState α)
  | average (state : AverageState α)

namespace TransformState

variable {α : Type}

def kind : TransformState α → Transform
  | .gravity _ => .gravity
  | .average _ => .average

/-- The length of the buffers a state is for. -/
def len : TransformState α → Nat
  | .gravity s => s.len
  | .average s => s.len

end TransformState

/-- The states of all steps that have run. -/
structure StateStore (α : Type) where
  states : Registry StateKey (TransformState α) := .empty

namespace StateStore

variable {α : Type}

def size (s : StateStore α) : Nat := s.states.size

def isEmpty (s : StateStore α) : Bool := s.states.isEmpty

def get? (s : StateStore α) (key : StateKey) : Option (TransformState α) := s.states.get? key

def put (s : StateStore α) (key : StateKey) (state : TransformState α) : StateStore α :=
  ⟨s.states.put key state⟩

/-- The fault of a step that found another transform's state. -/
def mismatch (key : StateKey) (found : TransformState α) : TransformError :=
  .stateMismatch key.binding.number key.step found.kind

/-- The gravity state of a step; a new one is for buffers of `len`. -/
def gravity [Zero α] (s : StateStore α) (key : StateKey) (len : Nat) :
    Except TransformError (GravityState α) :=
  match s.get? key with
  | none => .ok (GravityState.new len)
  | some (.gravity state) => .ok state
  | some found => .error (mismatch key found)

/-- The average state of a step; a new one has `frames` frames of `len`. -/
def average [Zero α] (s : StateStore α) (key : StateKey) (frames len : Nat) :
    Except TransformError (AverageState α) :=
  match s.get? key with
  | none => .ok (AverageState.new frames len)
  | some (.average state) => .ok state
  | some found => .error (mismatch key found)

/-- Drops all states of a binding. -/
def release (s : StateStore α) (binding : BindingId) : StateStore α :=
  ⟨s.states.filter fun key => key.binding ≠ binding⟩

end StateStore
end AudioShader
