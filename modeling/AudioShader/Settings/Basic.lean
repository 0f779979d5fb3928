/-
# Settings of a pipeline

What a configuration decides about a run: the module that is shown, the rates,
the parameters of the transforms and what the stages are compiled with.

Key definitions: `PipelineSettings`, `PipelineSettings.updateRate`,
`PipelineSettings.params`.
-/
import AudioShader.Color
import AudioShader.Signal.Params

namespace AudioShader

structure PipelineSettings where
  /-- The name of the folder with the stages. -/
  module : String := "bars"
  /-- Frames a second. -/
  frameRate : Nat := 60
  /-- Whether audio moves between two updates. -/
  interpolate : Bool := true
  sampleRate : Nat := 22050
  /-- Samples in an audio update. -/
  sampleSize : Nat := 1024
  /-- The length of the audio buffers. -/
  bufferSize : Nat := 2048
  gravityStep : Float32 := 4.2
  avgFrames : Nat := 6
  avgWindow : Bool := true
  fftScale : Float32 := 10.2
  fftCutoff : Float32 := 0.3
  /-- A constant of the stages. -/
  smoothFactor : Float32 := 0.025
  smoothDistance : Float32 := 0.01
  /-- Whether chains may run on the device in part. -/
  accelFft : Bool := false
  background : Option Color := none
  glslVersion : Nat := 330
  uniformLimit : Nat := 256

namespace PipelineSettings

/-- Audio updates a second. -/
def updateRate (s : PipelineSettings) : Float32 :=
  Float32.ofNat s.sampleRate / Float32.ofNat s.sampleSize

/-- What the transforms are run with. -/
def params (s : PipelineSettings) : TransformParams Float32 where
  bufferLen := s.bufferSize
  updateRate := s.updateRate
  gravityStep := s.gravityStep
  avgFrames := s.avgFrames
  avgWindow := s.avgWindow
  fftScale := s.fftScale
  fftCutoff := s.fftCutoff
  smoothDistance := s.smoothDistance

end PipelineSettings
end AudioShader
