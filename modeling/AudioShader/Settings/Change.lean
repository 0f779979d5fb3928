/-
# Changing settings

Each setting has a request that changes it. The request takes one argument; the
argument is checked first, and one that is refused changes nothing.

Key definitions: `Setting`, `Setting.change`, `settingsRequests`.
-/
import AudioShader.Number.Narrowing
import AudioShader.Settings.Basic
import AudioShader.Source.Process

namespace AudioShader

/-- The settings that requests change. -/
inductive Setting where
  | module
  | frameRate
  | interpolate
  | sampleRate
  | sampleSize
  | bufferSize
  | gravityStep
  | avgFrames
  | avgWindow
  | fftScale
  | fftCutoff
  | smoothFactor
  | smoothDistance
  | accelFft
  | background
  | glslVersion
  | uniformLimit
  deriving DecidableEq

/-- Why a setting is not changed. -/
inductive SettingFault where
  /-- The argument at `index`, counted from zero, has another type. -/
  | argument (index : Nat) (expected : ArgType)
  | moduleName (name : String)
  | notPositive (what : String) (found : Int)
  | bufferSize (found : Nat)
  | negativeDistance
  | color (fault : ColorFault)
  deriving DecidableEq

namespace SettingFault

/-- A type as a message names it. -/
def kind : ArgType → String
  | .int => "an integer"
  | .float => "a number"
  | .bool => "true or false"
  | .text => "a string"

def message : SettingFault → String
  | .argument index expected =>
    let position := index + 1
    let words := kind expected
    s!"argument {position} must be {words}"
  | .moduleName name => s!"invalid module name '{name}'"
  | .notPositive what found => s!"{what} must be a positive integer, got {found}"
  | .bufferSize found => s!"buffer size must be a power of two of at least 2, got {found}"
  | .negativeDistance => "smoothing distance must be non-negative"
  | .color fault => fault.message

end SettingFault

/-! ### Arguments -/

/-- The argument at an index, as a value that `view` gives. -/
def argAt {α : Type} (expected : ArgType) (view : Arg → Option α) (args : List Arg) (index : Nat) :
    Except SettingFault α :=
  match (args[index]?).bind view with
  | some value => .ok value
  | none => .error (.argument index expected)

def intArg (args : List Arg) : Except SettingFault Int := argAt .int Arg.asInt? args 0

/-- A number, narrowed to single precision. -/
def numberArg (args : List Arg) : Except SettingFault Float32 :=
  (argAt .float Arg.asFloat? args 0).map narrow

def boolArg (args : List Arg) : Except SettingFault Bool := argAt .bool Arg.asBool? args 0

def textArg (args : List Arg) : Except SettingFault String := argAt .text Arg.asText? args 0

/-- A number of at least one that fits 32 bits. -/
def positive (what : String) (n : Int) : Except SettingFault Nat :=
  if 0 < n ∧ n < UInt32.size then .ok n.toNat else .error (.notPositive what n)

/-- A name that stays in its folder. -/
def moduleName (name : String) : Except SettingFault String :=
  if name.isEmpty || name.toList.any (fun c => c == '/' || c == '\\') || name == ".." then
    .error (.moduleName name)
  else .ok name

/-- A length that the transforms can work with. -/
def bufferLength (n : Nat) : Except SettingFault Nat :=
  if isBufferLength n then .ok n else .error (.bufferSize n)

def distance (x : Float32) : Except SettingFault Float32 :=
  if x < 0.0 then .error .negativeDistance else .ok x

def readColor (text : String) : Except SettingFault Color :=
  match Color.ofHex text with
  | .ok color => .ok color
  | .error fault => .error (.color fault)

namespace Setting

def all : List Setting :=
  [.module, .frameRate, .interpolate, .sampleRate, .sampleSize, .bufferSize, .gravityStep,
   .avgFrames, .avgWindow, .fftScale, .fftCutoff, .smoothFactor, .smoothDistance, .accelFft,
   .background, .glslVersion, .uniformLimit]

/-- The name of the request. -/
def name : Setting → String
  | .module => "mod"
  | .frameRate => "setframerate"
  | .interpolate => "setinterpolate"
  | .sampleRate => "setsamplerate"
  | .sampleSize => "setsamplesize"
  | .bufferSize => "setbufsize"
  | .gravityStep => "setgravitystep"
  | .avgFrames => "setavgframes"
  | .avgWindow => "setavgwindow"
  | .fftScale => "setfftscale"
  | .fftCutoff => "setfftcutoff"
  | .smoothFactor => "setsmoothfactor"
  | .smoothDistance => "setsmoothdist"
  | .accelFft => "setaccelfft"
  | .background => "setbg"
  | .glslVersion => "setversion"
  | .uniformLimit => "setuniformlimit"

/-- The signature of the request. -/
def signature : Setting → String
  | .module | .background => "s"
  | .frameRate | .sampleRate | .sampleSize | .bufferSize | .avgFrames | .glslVersion
  | .uniformLimit => "i"
  | .interpolate | .avgWindow | .accelFft => "b"
  | .gravityStep | .fftScale | .fftCutoff | .smoothFactor | .smoothDistance => "f"

/-- What a request with the given arguments changes. -/
def change (setting : Setting) (args : List Arg) :
    Except SettingFault (PipelineSettings → PipelineSettings) := do
  match setting with
  | .module =>
    let v ← moduleName (← textArg args)
    return fun s => { s with module := v }
  | .frameRate =>
    let v ← positive "frame rate" (← intArg args)
    return fun s => { s with frameRate := v }
  | .interpolate =>
    let v ← boolArg args
    return fun s => { s with interpolate := v }
  | .sampleRate =>
    let v ← positive "sample rate" (← intArg args)
    return fun s => { s with sampleRate := v }
  | .sampleSize =>
    let v ← positive "sample size" (← intArg args)
    return fun s => { s with sampleSize := v }
  | .bufferSize =>
    let v ← bufferLength (← positive "buffer size" (← intArg args))
    return fun s => { s with bufferSize := v }
  | .gravityStep =>
    let v ← numberArg args
    return fun s => { s with gravityStep := v }
  | .avgFrames =>
    let v ← positive "average frame count" (← intArg args)
    return fun s => { s with avgFrames := v }
  | .avgWindow =>
    let v ← boolArg args
    return fun s => { s with avgWindow := v }
  | .fftScale =>
    let v ← numberArg args
    return fun s => { s with fftScale := v }
  | .fftCutoff =>
    let v ← numberArg args
    return fun s => { s with fftCutoff := v }
  | .smoothFactor =>
    let v ← numberArg args
    return fun s => { s with smoothFactor := v }
  | .smoothDistance =>
    let v ← distance (← numberArg args)
    return fun s => { s with smoothDistance := v }
  | .accelFft =>
    let v ← boolArg args
    return fun s => { s with accelFft := v }
  | .background =>
    let v ← readColor (← textArg args)
    return fun s => { s with background := some v }
  | .glslVersion =>
    let v ← positive "GLSL version" (← intArg args)
    return fun s => { s with glslVersion := v }
  | .uniformLimit =>
    let v ← positive "uniform limit" (← intArg args)
    return fun s => { s with uniformLimit := v }

/-- Changes the settings, or refuses the arguments. -/
def handler (setting : Setting) : Handler PipelineSettings := fun args =>
  match setting.change args with
  | .ok f => modify f
  | .error fault => throw fault.message

def request (setting : Setting) : Request PipelineSettings :=
  ⟨setting.name, setting.signature, setting.handler⟩

end Setting

/-- The requests of a configuration. -/
def settingsRequests : RequestTable PipelineSettings := .ofList (Setting.all.map Setting.request)

/-- An entry file only configures: nothing is bound in it. -/
instance : Substitutions PipelineSettings where
  count? _ _ := none
  bound? _ _ := none

/-- Processes a unit as a configuration. -/
def configure (files : FileTree) (unit : SourceUnit) :
    Action PipelineSettings SourceError ProcessedSource :=
  processWith { files, requests := settingsRequests } unit

end AudioShader
