/-
# The headless backend

A backend without a screen: shaders are only scanned, textures hold their
values, and each draw is recorded with the uniforms it saw. Tails of chains run
on the processor. All handles are numbered by one counter.

Key definitions: `Texture`, `DrawRecord`, `HeadlessBackend`,
`HeadlessBackend.liveResources`.
-/
import AudioShader.Graphics.Backend
import AudioShader.Graphics.Compile
import AudioShader.Signal.Offload

namespace AudioShader

structure Program where
  label : String
  source : String
  uniforms : List Declared

/-- A texture with its values, row by row. -/
structure Texture where
  width : Nat
  height : Nat
  /-- Values in a texel: one for audio, four for colors. -/
  channels : Nat
  data : List Float32

namespace Texture

/-- A texture of zeros. -/
def zeros (width height channels : Nat) : Texture :=
  ⟨width, height, channels, List.replicate (width * height * channels) 0.0⟩

/-- Whether audio can be uploaded: one row of single values. -/
def isAudio (t : Texture) : Bool := t.height == 1 && t.channels == 1

/-- Values with each group of four replaced by a color. -/
def paint (c : Color) : List Float32 → List Float32
  | _ :: _ :: _ :: _ :: rest => c.red :: c.green :: c.blue :: c.alpha :: paint c rest
  | rest => rest

end Texture

/-- What one draw saw. -/
structure DrawRecord where
  program : ProgramId
  label : String
  /-- Where it went to; the screen if there is no target. -/
  target : Option TargetId
  uniforms : List (String × UniformValue)

namespace DrawRecord

/-- The value of a uniform. -/
def uniform? (d : DrawRecord) (name : String) : Option UniformValue := d.uniforms.lookup name

/-- The textures that the draw reads from. -/
def sampled (d : DrawRecord) : List TextureId := d.uniforms.filterMap fun u => u.2.texture?

end DrawRecord

structure HeadlessBackend where
  screen : Nat × Nat
  /-- Whether tails of chains are run. -/
  offloadEnabled : Bool := true
  next : Nat := 1
  programs : Registry ProgramId Program := .empty
  textures : Registry TextureId Texture := .empty
  /-- Targets with their textures. -/
  targets : Registry TargetId TextureId := .empty
  offloads : Registry OffloadId (OffloadPasses Float32) := .empty
  bound : Option TargetId := none
  current : Option ProgramId := none
  /-- What the screen was cleared to last. -/
  screenClear : Option Color := none
  draws : Array DrawRecord := #[]

namespace HeadlessBackend

/-- The number of handles in use. -/
def liveResources (b : HeadlessBackend) : Nat :=
  b.programs.size + b.textures.size + b.targets.size + b.offloads.size

/-- The values of a texture. -/
def textureData? (b : HeadlessBackend) (id : TextureId) : Option (List Float32) :=
  (b.textures.get? id).map (·.data)

/-- The text that a program was compiled from. -/
def programSource? (b : HeadlessBackend) (id : ProgramId) : Option String :=
  (b.programs.get? id).map (·.source)

/-- The draws so far, and the backend without them. -/
def takeDraws (b : HeadlessBackend) : List DrawRecord × HeadlessBackend :=
  (b.draws.toList, { b with draws := #[] })

/-! ### Operations -/

/-- Work on the backend. -/
abbrev Op (α : Type) := Action HeadlessBackend BackendError α

/-- The value behind a handle. -/
def require {α : Type} (kind : HandleKind) (number : Nat) : Option α → Op α
  | some a => pure a
  | none => throw (.unknownHandle kind number)

/-- A new handle number. -/
def allocate : Op Nat := do
  let b ← get
  set { b with next := b.next + 1 }
  return b.next

def addTexture (t : Texture) : Op TextureId := do
  let id : TextureId := ⟨← allocate⟩
  modify fun b => { b with textures := b.textures.put id t }
  return id

def compileProgram (label fragment : String) : Op ProgramId := do
  match scanFragment fragment with
  | .error log => throw (.compile log)
  | .ok uniforms =>
    let id : ProgramId := ⟨← allocate⟩
    Action.record (.debug "compiled headless program" [("program", toString id.number),
      ("label", label), ("uniforms", toString uniforms.length)])
    modify fun b => { b with programs := b.programs.put id ⟨label, fragment, uniforms⟩ }
    return id

/-- Where an active uniform stands among those of its program. -/
def uniformLocation? (b : HeadlessBackend) (program : ProgramId) (name : String) :
    Option UniformLocation := do
  let p ← b.programs.get? program
  let index ← p.uniforms.findIdx? fun u => u.active && u.name == name
  return ⟨index⟩

def addTarget (width height : Nat) : Op TargetId := do
  let texture ← addTexture (.zeros width height 4)
  let id : TargetId := ⟨← allocate⟩
  modify fun b => { b with targets := b.targets.put id texture }
  return id

def textureOf (target : TargetId) : Op TextureId := do
  require .target target.number ((← get).targets.get? target)

/-- The largest length of a texture. -/
def maxLength : Nat := UInt32.size - 1

def addAudioTexture (len : Nat) : Op TextureId := do
  if maxLength < len then throw (.device s!"texture length {len} is too large")
  addTexture (.zeros len 1 1)

def uploadAudio (id : TextureId) (data : List Float32) : Op Unit := do
  let t ← require .texture id.number ((← get).textures.get? id)
  if !t.isAudio || t.data.length ≠ data.length then throw (.uploadSize t.width data.length)
  modify fun b => { b with textures := b.textures.put id { t with data } }

def selectTarget (target : Option TargetId) : Op Unit := do
  if let some id := target then
    let _ ← require .target id.number ((← get).targets.get? id)
  modify fun b => { b with bound := target }

def clearTo (c : Color) : Op Unit := do
  match (← get).bound with
  | none => modify fun b => { b with screenClear := some c }
  | some target =>
    let id ← textureOf target
    if let some t := (← get).textures.get? id then
      modify fun b => { b with textures := b.textures.put id { t with data := Texture.paint c t.data } }

def selectProgram (program : ProgramId) : Op Unit := do
  let _ ← require .program program.number ((← get).programs.get? program)
  modify fun b => { b with current := some program }

/-- The program in use. -/
def currentProgram : Op (ProgramId × Program) := do
  match (← get).current with
  | none => throw .noProgram
  | some id => return (id, ← require .program id.number ((← get).programs.get? id))

def storeUniform (location : UniformLocation) (value : UniformValue) : Op Unit := do
  if let .texture id := value then
    let _ ← require .texture id.number ((← get).textures.get? id)
  let (id, program) ← currentProgram
  let u ← require .uniform location.number
    ((program.uniforms[location.number]?).filter fun u => u.active)
  if !value.fits u.type then throw (.uniformType location value)
  let uniforms := program.uniforms.set location.number { u with value := some value }
  modify fun b => { b with programs := b.programs.put id { program with uniforms } }

def recordDraw : Op Unit := do
  let (id, program) ← currentProgram
  modify fun b => { b with
    draws := b.draws.push
      { program := id
        label := program.label
        target := b.bound
        uniforms := program.uniforms.filterMap fun u => u.value.map fun v => (u.name, v) } }

def addOffload (tail : Tail) (params : TransformParams Float32) : Op OffloadId := do
  if !(← get).offloadEnabled then throw .noOffload
  let id : OffloadId := ⟨← allocate⟩
  modify fun b => { b with offloads := b.offloads.put id (.new tail params) }
  return id

def runTail (id : OffloadId) (input : List Float32) (output : TextureId) : Op Unit := do
  let passes ← require .offload id.number ((← get).offloads.get? id)
  match passes.run input with
  | .error error => throw (.transform error)
  | .ok (passes, result) =>
    Action.record passes.event
    modify fun b => { b with offloads := b.offloads.put id passes }
    uploadAudio output result

/-- The value without a handle that goes out of use. -/
def forget {α : Type} [DecidableEq α] (gone : α) (held : Option α) : Option α :=
  if held = some gone then none else held

instance : GraphicsBackend HeadlessBackend where
  compile := compileProgram
  location? := uniformLocation?
  createTarget := addTarget
  targetTexture := textureOf
  createAudioTexture := addAudioTexture
  createColorTexture width height := addTexture (.zeros width height 4)
  upload := uploadAudio
  bindTarget := selectTarget
  clear := clearTo
  useProgram := selectProgram
  setUniform := storeUniform
  draw := recordDraw
  screenSize b := b.screen
  supportsOffload b := b.offloadEnabled
  createOffload := addOffload
  runOffload := runTail
  deleteOffload id b := { b with offloads := b.offloads.erase id }
  deleteProgram id b := { b with programs := b.programs.erase id, current := forget id b.current }
  deleteTarget id b :=
    { b with
      bound := forget id b.bound
      targets := b.targets.erase id
      textures := match b.targets.get? id with
        | some texture => b.textures.erase texture
        | none => b.textures }
  deleteTexture id b := { b with textures := b.textures.erase id }

end HeadlessBackend
end AudioShader
