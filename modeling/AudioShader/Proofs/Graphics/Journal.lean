/-
# A journal of handles

Any backend, watched: the journal lists the handles that its calls gave and
those that were deleted. If no call gives a handle that is in use, what is still
to be deleted is told by the journal.

Key definitions: `Journaled`, `Fresh`, `GivesFresh`, `Journaled.Settled`.
Key theorems: `Journaled.custody`, `Journaled.settled_of_holding`.
-/
import AudioShader.Proofs.Graphics.Custody

namespace AudioShader

open AudioShader.Action (Ends Stays)

/-- A backend with the handles that were made on it and those that were deleted,
the newest first. -/
structure Journaled (σ : Type) where
  inner : σ
  made : List Handle := []
  gone : List Handle := []

namespace Journaled

variable {σ α : Type}

/-- Work of the backend inside. -/
def inside (a : Action σ BackendError α) : Action (Journaled σ) BackendError α :=
  Action.within (fun s => s.inner) (fun inner s => { s with inner }) a

/-- A call that makes something, entered in the journal if it does. -/
def entered (handle : α → Handle) (a : Action σ BackendError α) :
    Action (Journaled σ) BackendError α := do
  let x ← inside a
  modify fun s => { s with made := handle x :: s.made }
  return x

/-- A deletion, entered in the journal. -/
def crossed (h : Handle) (delete : σ → σ) (s : Journaled σ) : Journaled σ :=
  { s with inner := delete s.inner, gone := h :: s.gone }

open GraphicsBackend in
instance [GraphicsBackend σ] : GraphicsBackend (Journaled σ) where
  compile label fragment := entered .program (compile label fragment)
  location? s program name := location? s.inner program name
  createTarget width height := entered .target (createTarget width height)
  targetTexture target := inside (targetTexture target)
  createAudioTexture len := entered .texture (createAudioTexture len)
  createColorTexture width height := entered .texture (createColorTexture width height)
  upload id data := inside (upload id data)
  bindTarget target := inside (bindTarget target)
  clear color := inside (clear color)
  useProgram program := inside (useProgram program)
  setUniform location value := inside (setUniform location value)
  draw := inside draw
  screenSize s := screenSize s.inner
  supportsOffload s := supportsOffload s.inner
  createOffload tail params := entered .offload (createOffload tail params)
  runOffload id input output := inside (runOffload id input output)
  deleteOffload id := crossed (.offload id) (deleteOffload id)
  deleteProgram id := crossed (.program id) (deleteProgram id)
  deleteTarget id := crossed (.target id) (deleteTarget id)
  deleteTexture id := crossed (.texture id) (deleteTexture id)

end Journaled

/-! ### Fresh handles -/

/-- A call gives a handle that was not in use and is from now on, or it fails.
Either way what is in use stays in use. -/
def Fresh {σ α : Type} (inUse : Handle → σ → Prop) (handle : α → Handle)
    (a : Action σ BackendError α) : Prop :=
  ∀ s, Ends (fun t => t = s) a
    (fun x t => ¬inUse (handle x) s ∧ inUse (handle x) t ∧ ∀ h, inUse h s → inUse h t)
    fun _ t => ∀ h, inUse h s → inUse h t

/-- The calls of a backend that make something give fresh handles. -/
structure GivesFresh (σ : Type) [GraphicsBackend σ] (inUse : Handle → σ → Prop) : Prop where
  compile : ∀ label fragment,
    Fresh inUse .program (GraphicsBackend.compile label fragment : Action σ _ _)
  createTarget : ∀ width height,
    Fresh inUse .target (GraphicsBackend.createTarget width height : Action σ _ _)
  createAudioTexture : ∀ len,
    Fresh inUse .texture (GraphicsBackend.createAudioTexture len : Action σ _ _)
  createColorTexture : ∀ width height,
    Fresh inUse .texture (GraphicsBackend.createColorTexture width height : Action σ _ _)
  createOffload : ∀ tail params,
    Fresh inUse .offload (GraphicsBackend.createOffload tail params : Action σ _ _)
  targetTexture : ∀ target s, Ends (fun t => t = s)
    (GraphicsBackend.targetTexture target : Action σ _ _)
    (fun _ t => ∀ h, inUse h s → inUse h t) fun _ t => ∀ h, inUse h s → inUse h t

namespace Journaled

variable {σ α : Type} (inUse : Handle → σ → Prop) (before : σ)

/-- While handles are made: the journal lists those to be deleted, each once,
and none that was in use before. -/
structure Making (hs : List Handle) (s : Journaled σ) : Prop where
  gone : s.gone = []
  perm : s.made.Perm hs
  nodup : s.made.Nodup
  used : ∀ h ∈ s.made, inUse h s.inner
  fresh : ∀ h ∈ s.made, ¬inUse h before
  kept : ∀ h, inUse h before → inUse h s.inner

/-- When no more handles are made: each is either deleted or to be deleted. -/
structure Holding (hs : List Handle) (s : Journaled σ) : Prop where
  perm : s.made.Perm (s.gone ++ hs)
  nodup : s.made.Nodup
  fresh : ∀ h ∈ s.made, ¬inUse h before

/-- Each handle that was made has been deleted exactly once, and nothing else
has; none of them was in use before. -/
structure Settled (s : Journaled σ) : Prop where
  perm : s.gone.Perm s.made
  nodup : s.gone.Nodup
  fresh : ∀ h ∈ s.gone, ¬inUse h before

variable {inUse before}

theorem settled_of_holding {s : Journaled σ} (h : Holding inUse before [] s) :
    Settled inUse before s := by
  have hperm : s.made.Perm s.gone := by simpa using h.perm
  exact ⟨hperm.symm, hperm.nodup_iff.1 h.nodup, fun x hx => h.fresh x (hperm.mem_iff.2 hx)⟩

theorem making_nil (s : σ) : Making inUse s [] { inner := s } where
  gone := rfl
  perm := .refl _
  nodup := List.nodup_nil
  used _ h := nomatch h
  fresh _ h := nomatch h
  kept _ h := h

/-- The journal does not change where what is in use stays so. -/
theorem Making.inside {hs : List Handle} {s : Journaled σ} (hm : Making inUse before hs s) {t : σ}
    (ht : ∀ h, inUse h s.inner → inUse h t) : Making inUse before hs { s with inner := t } :=
  { hm with used := fun y hy => ht y (hm.used y hy), kept := fun y hy => ht y (hm.kept y hy) }

theorem makes_entered {handle : α → Handle} {a : Action σ BackendError α}
    (h : Fresh inUse handle a) : Makes (Making inUse before) handle (entered handle a) := by
  intro hs
  refine Ends.of_forall fun s hm => ?_
  refine Ends.bind (R := fun x t => Making inUse before (handle x :: hs)
    { t with made := handle x :: t.made }) (Ends.within ?_) fun x =>
      Ends.bind (R := fun _ => Making inUse before (handle x :: hs)) (Ends.modify fun _ h => h)
        fun _ => Ends.pure fun _ h => h
  rintro s rfl
  refine (h s.inner).weaken (fun _ h => h) ?_ fun _ t => hm.inside
  rintro x t ⟨hnew, hused, hkept⟩
  have hin := hm.inside hkept
  have hx : handle x ∉ s.made := fun hmem => hnew (hm.used _ hmem)
  exact ⟨hm.gone, hm.perm.cons _, List.nodup_cons.2 ⟨hx, hm.nodup⟩,
    List.forall_mem_cons.2 ⟨hused, hin.used⟩,
    List.forall_mem_cons.2 ⟨fun hb => hnew (hm.kept _ hb), hm.fresh⟩, hin.kept⟩

theorem stays_making_inside {hs : List Handle} {a : Action σ BackendError α}
    (h : ∀ s, Ends (fun t => t = s) a (fun _ t => ∀ h, inUse h s → inUse h t)
      fun _ t => ∀ h, inUse h s → inUse h t) : Stays (Making inUse before hs) (inside a) :=
  Ends.within fun s hm => (h s.inner).weaken (fun _ h => h) (fun _ _ => hm.inside) fun _ _ => hm.inside

theorem stays_inside (hs : List Handle) (a : Action σ BackendError α) :
    Stays (Holding inUse before hs) (inside a) :=
  Stays.within (J := fun _ => True) (fun _ _ _ => by split <;> trivial) (fun _ _ => trivial)
    fun _ _ _ hs => ⟨hs.perm, hs.nodup, hs.fresh⟩

theorem holding_crossed {h : Handle} {hs : List Handle} {s : Journaled σ}
    (hh : Holding inUse before (h :: hs) s) (delete : σ → σ) :
    Holding inUse before hs (crossed h delete s) :=
  ⟨hh.perm.trans List.perm_middle, hh.nodup, hh.fresh⟩

variable [GraphicsBackend σ]

variable (before) in
/-- The account that the journal keeps. -/
def custody (h : GivesFresh σ inUse) : Custody (Journaled σ) where
  making := Making inUse before
  holding := Holding inUse before
  making_perm hperm hm := { hm with perm := hm.perm.trans hperm }
  holding_of_making hm := ⟨by rw [hm.gone]; exact hm.perm, hm.nodup, hm.fresh⟩
  compile label fragment := makes_entered (h.compile label fragment)
  createTarget width height := makes_entered (h.createTarget width height)
  createAudioTexture len := makes_entered (h.createAudioTexture len)
  createColorTexture width height := makes_entered (h.createColorTexture width height)
  createOffload tail params := makes_entered (h.createOffload tail params)
  targetTexture target _ := stays_making_inside (h.targetTexture target)
  drawing hs :=
    { upload := fun _ _ => stays_inside hs _
      bindTarget := fun _ => stays_inside hs _
      clear := fun _ => stays_inside hs _
      useProgram := fun _ => stays_inside hs _
      setUniform := fun _ _ => stays_inside hs _
      draw := stays_inside hs _
      runOffload := fun _ _ _ => stays_inside hs _ }
  delete {h hs s} hh := by
    cases h with
    | program id => exact holding_crossed hh _
    | texture id => exact holding_crossed hh _
    | target id => exact holding_crossed hh _
    | offload id => exact holding_crossed hh _

end Journaled
end AudioShader
