/-
# Averages over time

The last frames of a binding, in a ring, and their weighted mean. Before enough
updates have come the missing frames are silent. A ring of one frame leaves the
buffer as it is.

Key definitions: `AverageState`, `AverageState.aged`, `AverageState.apply`.
-/
import AudioShader.Signal.Fault
import AudioShader.Signal.Sample

namespace AudioShader

variable {α : Type}

/-- A ring of frames; the next one goes to place `next`. -/
structure AverageState (α : Type) where
  history : List (List α)
  next : Nat

namespace AverageState

/-- A ring of silent frames; there is at least one. -/
def new [Zero α] (frames len : Nat) : AverageState α :=
  ⟨List.replicate (max frames 1) (List.replicate len 0), 0⟩

def frames (s : AverageState α) : Nat := s.history.length

/-- The length of the frames. -/
def len (s : AverageState α) : Nat := (s.history.head?.map List.length).getD 0

/-- The frames by age, the oldest first. -/
def aged (s : AverageState α) : List (List α) := s.history.drop s.next ++ s.history.take s.next

/-- The ring after one more frame. -/
def push (s : AverageState α) (frame : List α) : AverageState α :=
  ⟨s.history.set s.next frame, (s.next + 1) % s.frames⟩

/-- The sum of numbers from left to right. -/
def total [Sample α] (xs : List α) : α := xs.foldl (· + ·) 0

/-- The weighted mean of the frames at one place. -/
def meanAt [Sample α] (weights : List α) (frames : List (List α)) (place : Nat) : α :=
  total (frames.zipWith (fun frame w => frame.getD place 0 * w) weights) / total weights

/-- The weights of the frames by age. -/
def weights [Sample α] [Weights α] (frames : Nat) (windowed : Bool) : List α :=
  (List.range frames).map fun age => if windowed then Weights.hann age frames else Sample.ofNat 1

/-- One update: the new state and the output. -/
def apply [Sample α] [Weights α] (s : AverageState α) (input : List α) (windowed : Bool) :
    Except TransformError (AverageState α × List α) :=
  if s.len ≠ input.length then .error (.bufferLength .average s.len input.length)
  else if s.frames = 1 then .ok ({ s with history := [input] }, input)
  else
    let s' := s.push input
    let ws := weights s'.frames windowed
    .ok (s', (List.range input.length).map (meanAt ws s'.aged))

end AverageState
end AudioShader
