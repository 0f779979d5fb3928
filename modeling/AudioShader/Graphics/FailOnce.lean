/-
# A backend that fails once

Any backend, with one call of it chosen to fail: the call is refused instead of
made, all others go through. It also counts draws, so that a loop can be
stopped from within a tick. What a build or a tick leaves behind when its
backend fails is tried with it.

Key definitions: `BackendCall`, `FailOnce`, `FailOnce.pass`.
-/
import AudioShader.Graphics.Backend
import AudioShader.Signal.SharedAudio

namespace AudioShader

/-- The calls that may fail. -/
inductive BackendCall where
  | compile
  | createTarget
  | targetTexture
  | createAudioTexture
  | createColorTexture
  | upload
  | bindTarget
  | clear
  | useProgram
  | setUniform
  | draw
  | createOffload
  | runOffload
  deriving DecidableEq

namespace BackendCall

def name : BackendCall → String
  | .compile => "compile_program"
  | .createTarget => "create_target"
  | .targetTexture => "target_texture"
  | .createAudioTexture => "create_texture_1d"
  | .createColorTexture => "create_texture_2d"
  | .upload => "upload_texture_1d"
  | .bindTarget => "bind_target"
  | .clear => "clear"
  | .useProgram => "use_program"
  | .setUniform => "set_uniform"
  | .draw => "draw_fullscreen"
  | .createOffload => "create_offload"
  | .runOffload => "run_offload"

end BackendCall

/-- A backend with a call that is to fail. -/
structure FailOnce (σ : Type) where
  inner : σ
  /-- The name of the call, and how many calls of it from now the failing one is. -/
  plan : Option (String × Nat) := none
  flag : Liveness := {}
  /-- The number of draws from now that clears the flag. -/
  drawsLeft : Option Nat := none

namespace FailOnce

variable {σ α : Type}

/-- Work of the backend inside. -/
def inside (a : Action σ BackendError α) : Action (FailOnce σ) BackendError α :=
  Action.within (fun s => s.inner) (fun inner s => { s with inner }) a

/-- Makes a call, or refuses it if it is the one that is to fail. -/
def pass (call : BackendCall) (a : Action σ BackendError α) :
    Action (FailOnce σ) BackendError α := do
  let s ← get
  match s.plan with
  | none => inside a
  | some (name, left) =>
    if name ≠ call.name then inside a
    else
      match left with
      | 0 => inside a
      | 1 =>
        set { s with plan := none }
        throw (.device s!"injected {name}")
      | left + 2 =>
        set { s with plan := some (name, left + 1) }
        inside a

/-- Counts a draw; the last one that is waited for clears the flag. -/
def countDraw (s : FailOnce σ) : FailOnce σ :=
  match s.drawsLeft with
  | none => s
  | some n =>
    if n ≤ 1 then { s with drawsLeft := none, flag := s.flag.stop }
    else { s with drawsLeft := some (n - 1) }

/-- Changes the backend inside. -/
def change (f : σ → σ) (s : FailOnce σ) : FailOnce σ := { s with inner := f s.inner }

open GraphicsBackend in
instance [GraphicsBackend σ] : GraphicsBackend (FailOnce σ) where
  compile label fragment := pass .compile (compile label fragment)
  location? s program name := location? s.inner program name
  createTarget width height := pass .createTarget (createTarget width height)
  targetTexture target := pass .targetTexture (targetTexture target)
  createAudioTexture len := pass .createAudioTexture (createAudioTexture len)
  createColorTexture width height := pass .createColorTexture (createColorTexture width height)
  upload id data := pass .upload (upload id data)
  bindTarget target := pass .bindTarget (bindTarget target)
  clear color := pass .clear (clear color)
  useProgram program := pass .useProgram (useProgram program)
  setUniform location value := pass .setUniform (setUniform location value)
  draw := do
    pass .draw draw
    modify countDraw
  screenSize s := screenSize s.inner
  supportsOffload s := supportsOffload s.inner
  createOffload tail params := pass .createOffload (createOffload tail params)
  runOffload id input output := pass .runOffload (runOffload id input output)
  deleteOffload id := change (deleteOffload id)
  deleteProgram id := change (deleteProgram id)
  deleteTarget id := change (deleteTarget id)
  deleteTexture id := change (deleteTexture id)

end FailOnce
end AudioShader
