/-
# The least backend

A backend that has one handle of each kind, uses every name and runs no tails:
it keeps all defaults of its class.

Key definitions: `MinimalBackend`.
-/
import AudioShader.Graphics.Backend

namespace AudioShader

structure MinimalBackend where

namespace MinimalBackend

instance : GraphicsBackend MinimalBackend where
  compile _ _ := pure ⟨1⟩
  location? _ _ _ := some ⟨0⟩
  createTarget _ _ := pure ⟨3⟩
  targetTexture _ := pure ⟨4⟩
  createAudioTexture _ := pure ⟨2⟩
  createColorTexture _ _ := pure ⟨5⟩
  upload _ _ := pure ()
  bindTarget _ := pure ()
  clear _ := pure ()
  useProgram _ := pure ()
  setUniform _ _ := pure ()
  draw := pure ()
  screenSize _ := (1, 1)
  deleteProgram _ s := s
  deleteTarget _ s := s
  deleteTexture _ s := s

end MinimalBackend
end AudioShader
