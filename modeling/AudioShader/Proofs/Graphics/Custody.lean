/-
# Who has to delete what

Whatever is made on a backend has to be deleted by whoever made it, and once
only. A way to keep account of this says at each time which handles are still to
be deleted: a call that makes something adds its handle, or adds nothing if it
fails; a deletion takes one off; and all other calls leave the account as it is.

Key definitions: `Handle`, `Handle.delete`, `deleteAll`, `KeptByDrawing`, `Custody`.
Key theorems: `Custody.holding_deleteAll`.
-/
import AudioShader.Graphics.Backend
import AudioShader.Proofs.Outcome

namespace AudioShader

open AudioShader.Action (Ends Stays)

/-- What a backend has made. -/
inductive Handle where
  | program (id : ProgramId)
  | texture (id : TextureId)
  | target (id : TargetId)
  | offload (id : OffloadId)
  deriving DecidableEq

section Deleting

variable {σ : Type} [GraphicsBackend σ]

/-- Deletes what a handle stands for. -/
def Handle.delete : Handle → σ → σ
  | .program id => GraphicsBackend.deleteProgram id
  | .texture id => GraphicsBackend.deleteTexture id
  | .target id => GraphicsBackend.deleteTarget id
  | .offload id => GraphicsBackend.deleteOffload id

/-- Deletes what handles stand for, one after the other. -/
def deleteAll (hs : List Handle) (s : σ) : σ := hs.foldl (fun s h => h.delete s) s

@[simp] theorem deleteAll_nil (s : σ) : deleteAll [] s = s := rfl

theorem deleteAll_append (hs hs' : List Handle) (s : σ) :
    deleteAll (hs ++ hs') s = deleteAll hs' (deleteAll hs s) := List.foldl_append

end Deleting

/-- However the calls end that a tick makes, they keep a property of the device. -/
structure KeptByDrawing {σ : Type} [GraphicsBackend σ] (I : σ → Prop) : Prop where
  upload : ∀ id data, Stays I (GraphicsBackend.upload id data)
  bindTarget : ∀ target, Stays I (GraphicsBackend.bindTarget target)
  clear : ∀ color, Stays I (GraphicsBackend.clear color)
  useProgram : ∀ program, Stays I (GraphicsBackend.useProgram program)
  setUniform : ∀ location value, Stays I (GraphicsBackend.setUniform location value)
  draw : Stays I GraphicsBackend.draw
  runOffload : ∀ id input output, Stays I (GraphicsBackend.runOffload id input output)

/-- A call makes something with the handle that it gives, or fails and makes
nothing; `I` tells of a state which handles are still to be deleted. -/
def Makes {σ α : Type} (I : List Handle → σ → Prop) (handle : α → Handle)
    (a : Action σ BackendError α) : Prop :=
  ∀ hs, Ends (I hs) a (fun x => I (handle x :: hs)) fun _ => I hs

/-- A way to keep account of what is still to be deleted. While handles are made
none is deleted, so there are two accounts, one of each time. -/
structure Custody (σ : Type) [GraphicsBackend σ] where
  making : List Handle → σ → Prop
  holding : List Handle → σ → Prop
  making_perm : ∀ {hs hs' s}, hs.Perm hs' → making hs s → making hs' s
  holding_of_making : ∀ {hs s}, making hs s → holding hs s
  compile : ∀ label fragment, Makes making .program (GraphicsBackend.compile label fragment)
  createTarget : ∀ width height, Makes making .target (GraphicsBackend.createTarget width height)
  createAudioTexture : ∀ len, Makes making .texture (GraphicsBackend.createAudioTexture len)
  createColorTexture : ∀ width height,
    Makes making .texture (GraphicsBackend.createColorTexture width height)
  createOffload : ∀ tail params, Makes making .offload (GraphicsBackend.createOffload tail params)
  targetTexture : ∀ target hs, Stays (making hs) (GraphicsBackend.targetTexture target)
  drawing : ∀ hs, KeptByDrawing (holding hs)
  delete : ∀ {h hs s}, holding (h :: hs) s → holding hs (h.delete s)

namespace Custody

variable {σ : Type} [GraphicsBackend σ]

/-- What is deleted is no longer to be deleted. -/
theorem holding_deleteAll (c : Custody σ) : ∀ (hs : List Handle) {rest : List Handle} {s : σ},
    c.holding (hs ++ rest) s → c.holding rest (deleteAll hs s)
  | [], _, _, h => h
  | _ :: hs, _, _, h => c.holding_deleteAll hs (c.delete h)

end Custody
end AudioShader
