/-
# Gravity

A value that follows rising input at once and sinks by a fixed decay at every
update when the input is lower.

Key definitions: `GravityState`, `fall`, `GravityState.apply`.
-/
import AudioShader.Signal.Fault
import AudioShader.Signal.Sample

namespace AudioShader

variable {α : Type}

/-- The decay of one update, for a step a second and updates a second. -/
def decayPerUpdate [Sample α] (gravityStep updateRate : α) : α := gravityStep / updateRate

/-- The value after an update. -/
def fall [Sample α] (decay applied input : α) : α :=
  if Sample.atMost applied input then input - decay else applied - decay

/-- The value that was applied last, for every place of the buffer. -/
structure GravityState (α : Type) where
  applied : List α

namespace GravityState

/-- All values are zero before the first update. -/
def new [Zero α] (len : Nat) : GravityState α := ⟨List.replicate len 0⟩

def len (s : GravityState α) : Nat := s.applied.length

/-- One update: the new state, whose values are the output. -/
def apply [Sample α] (s : GravityState α) (input : List α) (decay : α) :
    Except TransformError (GravityState α) :=
  if s.len = input.length then .ok ⟨s.applied.zipWith (fall decay) input⟩
  else .error (.bufferLength .gravity s.len input.length)

theorem len_new [Zero α] (n : Nat) : (new n : GravityState α).len = n := by simp [new, len]

theorem len_apply [Sample α] {s s' : GravityState α} {input : List α} {decay : α}
    (h : s.apply input decay = .ok s') : s'.len = s.len := by
  unfold apply at h
  split at h
  · next hl =>
    simp only [Except.ok.injEq] at h
    subst h
    simp only [len, List.length_zipWith] at *
    omega
  · simp at h

end GravityState
end AudioShader
