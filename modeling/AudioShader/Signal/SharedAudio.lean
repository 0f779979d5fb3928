/-
# Shared audio

Producers hand frames of two channels to readers through one slot. A producer
fills a frame of its own and then commits it; a reader takes a snapshot of the
slot. Commits and snapshots each happen at once, filling does not touch the
slot.

Key definitions: `AudioFrame`, `SharedAudio`, `AudioProducer`,
`AudioProducer.fill`, `SharedAudio.commit`, `SharedAudio.snapshot`, `Liveness`.
-/
import AudioShader.Signal.Sample

namespace AudioShader

variable {α : Type}

/-- The samples of one update. -/
structure AudioFrame (α : Type) where
  left : List α
  right : List α

namespace AudioFrame

def silent [Zero α] (len : Nat) : AudioFrame α :=
  ⟨List.replicate len 0, List.replicate len 0⟩

def len (f : AudioFrame α) : Nat := f.left.length

end AudioFrame

/-- The slot: the frame that was committed last, and whether no snapshot was
taken since. -/
structure SharedAudio (α : Type) where
  frame : AudioFrame α
  fresh : Bool := false

/-- A producer's own frame. -/
structure AudioProducer (α : Type) where
  staging : AudioFrame α

/-- What a reader got. -/
structure AudioSnapshot (α : Type) where
  frame : AudioFrame α
  fresh : Bool

/-- The front of `source`, cut to `len` samples or filled up with silence. -/
def fitted [Zero α] : (len : Nat) → (source : List α) → List α
  | 0, _ => []
  | len + 1, [] => 0 :: fitted len []
  | len + 1, s :: ss => s :: fitted len ss

theorem length_fitted [Zero α] : ∀ (len : Nat) (source : List α), (fitted len source).length = len
  | 0, _ => rfl
  | len + 1, [] => by simp [fitted, length_fitted len []]
  | len + 1, _ :: ss => by simp [fitted, length_fitted len ss]

namespace AudioProducer

/-- Fills the producer's frame. -/
def fill (p : AudioProducer α) (f : AudioFrame α → AudioFrame α) : AudioProducer α :=
  ⟨f p.staging⟩

/-- Fills the producer's frame with the given channels, fitted to its length. -/
def load [Zero α] (p : AudioProducer α) (left right : List α) : AudioProducer α :=
  p.fill fun s => ⟨fitted s.left.length left, fitted s.right.length right⟩

end AudioProducer

namespace SharedAudio

/-- A slot of silent frames. -/
def new [Zero α] (len : Nat) : SharedAudio α := { frame := .silent len }

def len (s : SharedAudio α) : Nat := s.frame.len

/-- A producer that has published nothing. -/
def producer [Zero α] (s : SharedAudio α) : AudioProducer α := ⟨.silent s.len⟩

/-- The slot after a producer's commit. -/
def commit (_ : SharedAudio α) (p : AudioProducer α) : SharedAudio α := ⟨p.staging, true⟩

/-- A snapshot, and the slot after it. -/
def snapshot (s : SharedAudio α) : AudioSnapshot α × SharedAudio α :=
  (⟨s.frame, s.fresh⟩, { s with fresh := false })

end SharedAudio

/-- Whether a loop goes on. All who hold it see the same value. -/
structure Liveness where
  alive : Bool := true

namespace Liveness

def stop (_ : Liveness) : Liveness := ⟨false⟩

end Liveness
end AudioShader
