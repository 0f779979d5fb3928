/-
# Chains

The transforms of a uniform, in order. A chain is run as a whole or from one
step to another, on a buffer and the states of its stateful steps; a step that
fails leaves both as the steps before it made them.

The end of a chain may run on the graphics device instead: a spectrum, with
gravity and an average behind it. Where a chain runs is decided once.

Key definitions: `Chain`, `Work`, `runStep`, `Chain.runSteps`, `Chain.run`,
`Tail`, `Chain.split?`, `ChainMode.decide`.
-/
import AudioShader.Event
import AudioShader.Signal.Params
import AudioShader.Signal.Reshape
import AudioShader.Signal.Store

namespace AudioShader

/-- Transforms in the order they are run. -/
structure Chain where
  steps : List Transform := []
  deriving DecidableEq

/-- What a chain works on. -/
structure Work (α : Type) where
  buffer : List α
  store : StateStore α

/-- A part of a chain at work. -/
abbrev Running (α ρ : Type) := ExceptT TransformError (StateM (Work α)) ρ

variable {α : Type}

/-- Replaces the buffer by the result of a transform. -/
def setBuffer : Except TransformError (List α) → Running α Unit
  | .ok buffer => modify fun w => { w with buffer }
  | .error e => throw e

/-- Runs one step of a chain. -/
def runStep [Signal α] (params : TransformParams α) (key : StateKey) (kind : Transform) :
    Running α Unit := do
  let w ← get
  match kind with
  | .window => setBuffer (.ok (tapered w.buffer))
  | .wrange => setBuffer (.ok (ranged w.buffer))
  | .smooth => setBuffer (.ok (smoothed w.buffer params.smoothDistance))
  | .fft => setBuffer (spectrum w.buffer params.fftScale params.fftCutoff)
  | .gravity =>
    match w.store.gravity key w.buffer.length with
    | .error e => throw e
    | .ok state =>
      match state.apply w.buffer params.gravityDecay with
      | .error e => throw e
      | .ok state' => set (⟨state'.applied, w.store.put key (.gravity state')⟩ : Work α)
  | .average =>
    match w.store.average key params.avgFrames w.buffer.length with
    | .error e => throw e
    | .ok state =>
      match state.apply w.buffer params.avgWindow with
      | .error e => throw e
      | .ok (state', output) => set (⟨output, w.store.put key (.average state')⟩ : Work α)

/-- Runs steps one after the other, the first of them at place `step`. -/
def runFrom [Signal α] (params : TransformParams α) (binding : BindingId) :
    (step : Nat) → List Transform → Running α Unit
  | _, [] => pure ()
  | step, kind :: rest => do
    runStep params ⟨binding, step⟩ kind
    runFrom params binding (step + 1) rest

namespace Chain

def size (c : Chain) : Nat := c.steps.length

def isEmpty (c : Chain) : Bool := c.steps.isEmpty

/-- The chain with one more transform at its end. -/
def push (c : Chain) (kind : Transform) : Chain := ⟨c.steps ++ [kind]⟩

/-- The names in brackets. -/
def render (c : Chain) : String :=
  "[" ++ String.intercalate " " (c.steps.map Transform.name) ++ "]"

/-- The chain of transforms with the given names. -/
def ofNames (names : List String) : Except TransformError Chain :=
  (names.mapM Transform.ofName).map Chain.mk

/-- Runs the steps from `start` up to and without `stop`. A step keeps its state
under its place in the whole chain. -/
def runSteps [Signal α] (c : Chain) (start stop : Nat) (params : TransformParams α)
    (binding : BindingId) : Running α Unit :=
  runFrom params binding start ((c.steps.take stop).drop start)

/-- Runs all steps. -/
def run [Signal α] (c : Chain) (params : TransformParams α) (binding : BindingId) : Running α Unit :=
  c.runSteps 0 c.size params binding

end Chain

/-! ### Tails -/

/-- An end of a chain that can run on the graphics device. -/
inductive Tail where
  | fft
  | fftGravity
  | fftGravityAverage
  deriving DecidableEq

namespace Tail

def steps : Tail → List Transform
  | .fft => [.fft]
  | .fftGravity => [.fft, .gravity]
  | .fftGravityAverage => [.fft, .gravity, .average]

def hasGravity (t : Tail) : Bool := t != .fft

def hasAverage (t : Tail) : Bool := t == .fftGravityAverage

/-- The tail as logs show it. -/
def render : Tail → String
  | .fft => "Fft"
  | .fftGravity => "FftGravity"
  | .fftGravityAverage => "FftGravityAverage"

end Tail

/-- The number of steps before the longest tail that the chain ends in, and the
tail. -/
def Chain.split? (c : Chain) : Option (Nat × Tail) :=
  ([Tail.fftGravityAverage, .fftGravity, .fft].find? fun t => t.steps.isSuffixOf c.steps).map
    fun t => (c.size - t.steps.length, t)

/-- Where a chain runs. -/
inductive ChainMode where
  | cpu
  /-- The first steps run here, the tail on the device. -/
  | offloaded (lead : Nat) (tail : Tail)
  deriving DecidableEq

namespace ChainMode

/-- A chain runs on the device in part if it has a tail, acceleration is wanted
and the device can do it. -/
def decide (c : Chain) (wanted able : Bool) : ChainMode :=
  match c.split? with
  | some (lead, tail) => if wanted && able then .offloaded lead tail else .cpu
  | none => .cpu

/-- What is reported about a decision. -/
def events : ChainMode → List Event
  | .cpu => []
  | .offloaded lead tail =>
    [.debug "offloading chain tail" [("prefix", toString lead), ("tail", tail.render)]]

def isOffloaded : ChainMode → Bool
  | .cpu => false
  | .offloaded _ _ => true

/-- The number of steps that run here. -/
def cpuSteps (m : ChainMode) (c : Chain) : Nat :=
  match m with
  | .cpu => c.size
  | .offloaded lead _ => lead

end ChainMode
end AudioShader
