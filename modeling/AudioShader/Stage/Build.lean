/-
# Building stages

A module is a folder with the files `1.frag`, `2.frag` and so on, up to the
first number that is missing. Each is processed, compiled and bound; one whose
compiler log holds the sentinel is left out. All stages but the last get a
target. If anything fails, all that was allocated is freed again.

Key definitions: `stageFiles`, `BuildError`, `Building`, `buildStages`.
-/
import AudioShader.Diagnostic
import AudioShader.Stage.Basic
import AudioShader.Stage.Header

namespace AudioShader

/-- A compiler log that holds this leaves the stage out. -/
def disableSentinel : String := "__disablestage"

/-- The file of a stage. -/
def stageFile (moduleDir : Path) (ordinal : Nat) : Path := moduleDir.join ⟨s!"{ordinal}.frag"⟩

/-- The files of a module's stages. There are no more of them than files. -/
def stageFiles (files : FileTree) (moduleDir : Path) : List Path :=
  ((List.range files.files.length).map fun i => stageFile moduleDir (i + 1)).takeWhile files.isFile

/-- Why a module is not built. -/
inductive BuildError where
  | source (error : SourceError)
  | noStages (dir : Path)
  | allDisabled (dir : Path)
  | compile (ordinal : Nat) (path : Path) (diagnostics : List Diagnostic)
  | backend (ordinal : Nat) (error : BackendError)

namespace BuildError

/-- The name of the cause. -/
def label : BuildError → String
  | .source error => error.label
  | .noStages _ => "NoStages"
  | .allDisabled _ => "AllStagesDisabled"
  | .compile _ _ _ => "Compile"
  | .backend _ _ => "Backend"

/-- Diagnostics on lines of their own. -/
def listing (diagnostics : List Diagnostic) : String :=
  String.intercalate "\n" (diagnostics.map fun d => "  " ++ d.render)

def message : BuildError → String
  | .source error => error.message
  | .noStages dir => s!"no stage files in {dir.text} (expected 1.frag)"
  | .allDisabled dir => s!"every stage in {dir.text} was disabled"
  | .compile ordinal path diagnostics =>
    let lines := listing diagnostics
    s!"stage {ordinal} ({path.text}) failed to compile:\n{lines}"
  | .backend ordinal error => s!"stage {ordinal}: {error.message}"

/-- What a failure comes from, in words. -/
def causes : BuildError → List String
  | .source error => error.causes
  | .backend _ error => [error.message]
  | _ => []

end BuildError

/-- A build in progress. -/
structure Building (σ : Type) where
  device : σ
  /-- The stages so far, the last of which may still be incomplete. -/
  stages : List ShaderStage := []
  /-- The number of the next binding. -/
  nextBinding : Nat := 0

namespace Building

variable {σ α : Type}

/-- Work of the backend. -/
def onDevice (a : Action σ BackendError α) : Action (Building σ) BackendError α :=
  Action.within (fun b => b.device) (fun device b => { b with device }) a

/-- Changes the stage at an index. -/
def edit (index : Nat) (f : ShaderStage → ShaderStage) :
    Action (Building σ) BackendError Unit :=
  modify fun b => { b with stages := b.stages.modify index f }

/-- Reports events. -/
def report (events : List Event) : Action (Building σ) BackendError Unit :=
  events.forM Action.record

end Building

open Building

variable {σ : Type} [GraphicsBackend σ]

/-- The texture that audio is uploaded to; other sources need none. -/
def audioTexture (kind : SourceKind) (len : Nat) :
    Action (Building σ) BackendError (Option TextureId) :=
  if kind.isAudio then do return some (← onDevice (GraphicsBackend.createAudioTexture len))
  else return none

/-- Where the chain of a uniform runs on a backend. -/
def UniformRequest.mode (u : UniformRequest) (settings : PipelineSettings) (device : σ) : ChainMode :=
  if u.source.kind.isAudio then
    .decide u.chain settings.accelFft (GraphicsBackend.supportsOffload device)
  else .cpu

/-- Binds a uniform that the stage at `index` wants filled. -/
def attachUniform (settings : PipelineSettings) (index ordinal : Nat) (program : ProgramId)
    (u : UniformRequest) : Action (Building σ) BackendError Unit := do
  let b ← get
  let location := GraphicsBackend.location? b.device program u.name
  if location.isNone then
    report [.warn "bound uniform is not used by the program"
      [("stage", toString ordinal), ("uniform", u.name)]]
  let mode := u.mode settings b.device
  report mode.events
  let texture ← audioTexture u.source.kind settings.bufferSize
  let binding : UniformBinding :=
    { id := ⟨b.nextBinding⟩, name := u.name, source := u.source, location, chain := u.chain, mode,
      texture }
  modify fun b => { b with nextBinding := b.nextBinding + 1 }
  edit index fun st => { st with bindings := st.bindings ++ [binding] }
  match mode with
  | .cpu => pure ()
  | .offloaded _ tail =>
    let offload ← onDevice (GraphicsBackend.createOffload tail settings.params)
    edit index fun st =>
      { st with bindings := st.bindings.dropLast ++ [{ binding with offload := some offload }] }

/-- The declarations from outside that a program uses, each with its place. -/
def usedExternals (device : σ) (program : ProgramId) (binds : List BindDecl) :
    List (Nat × UniformLocation) :=
  binds.zipIdx.filterMap fun (b, i) =>
    (GraphicsBackend.location? device program (externalName b.name)).map fun l => (i, l)

/-- Binds all that the stage at `index` uses. -/
def attachAll (setup : StageSetup) (index ordinal : Nat) (program : ProgramId)
    (uniforms : List UniformRequest) : Action (Building σ) BackendError Unit := do
  uniforms.forM (attachUniform setup.settings index ordinal program)
  let externals := usedExternals (← get).device program setup.binds
  edit index fun st => { st with externals }

/-- The source of a stage's file, and the uniforms it wants filled. -/
def processStage (setup : StageSetup) (path : Path) :
    Action (Building σ) BuildError (ProcessedSource × List UniformRequest) := do
  match SourceUnit.ofFile setup.files path with
  | .error error => throw (.source error)
  | .ok unit =>
    let (source, context) ← Action.mapError BuildError.source
      (Action.ofLogged (Action.from? setup.context (setup.process (setup.equip unit))))
    return (source, context.uniforms)

/-- Compiles a source; none if its log disables the stage. -/
def compileStage (ordinal : Nat) (path : Path) (source : ProcessedSource) :
    Action (Building σ) BuildError (Option ProgramId) := do
  match ← Action.attempt (onDevice (GraphicsBackend.compile s!"stage {ordinal}" source.text)) with
  | .ok program =>
    Action.record (.debug "compiled stage" [("stage", toString ordinal), ("path", path.text)])
    return some program
  | .error (.compile log) =>
    if Text.holds disableSentinel.toList log.toList then
      Action.record (.info "stage disabled" [("stage", toString ordinal), ("path", path.text)])
      return none
    else throw (.compile ordinal path (diagnose log source.map))
  | .error error => throw (.backend ordinal error)

/-- Builds the stage of a file. -/
def buildStage (setup : StageSetup) (ordinal : Nat) (path : Path) :
    Action (Building σ) BuildError Unit := do
  let (source, uniforms) ← processStage setup path
  match ← compileStage ordinal path source with
  | none => pure ()
  | some program =>
    let index := (← get).stages.length
    modify fun b => { b with stages := b.stages ++ [{ ordinal, path, program, map := source.map }] }
    Action.mapError (.backend ordinal) (attachAll setup index ordinal program uniforms)

/-- Gives the stage at an index a target of the size of the screen. -/
def attachTarget (size : Nat × Nat) (index : Nat) : Action (Building σ) BackendError Unit := do
  let target ← onDevice (GraphicsBackend.createTarget size.1 size.2)
  edit index fun st => { st with target := some target }
  let output ← onDevice (GraphicsBackend.targetTexture target)
  edit index fun st => { st with output := some output }

/-- Gives all stages but the last their targets. -/
def attachTargets : Action (Building σ) BuildError Unit := do
  let b ← get
  let size := GraphicsBackend.screenSize b.device
  (b.stages.dropLast.zipIdx).forM fun (st, i) =>
    Action.mapError (.backend st.ordinal) (attachTarget size i)

/-- Builds the stages of files. -/
def buildFiles (setup : StageSetup) (moduleDir : Path) (files : List Path) :
    Action (Building σ) BuildError Unit := do
  (files.zipIdx).forM fun (path, i) => buildStage setup (i + 1) path
  if (← get).stages.isEmpty then throw (.allDisabled moduleDir)
  attachTargets

/-- Builds the stages of a module, or frees what was allocated for them. -/
def buildStages (setup : StageSetup) (moduleDir : Path) :
    Action σ BuildError (List ShaderStage) := fun device log =>
  let files := stageFiles setup.files moduleDir
  if files.isEmpty then ((.error (.noStages moduleDir), device), log)
  else
    match buildFiles setup moduleDir files { device } log with
    | ((.ok (), b), log) =>
      ((.ok b.stages, b.device), log.push (.info "built shader stages"
        [("module", moduleDir.text), ("stages", toString b.stages.length),
          ("files", toString files.length)]))
    | ((.error error, b), log) => ((.error error, releaseStages b.stages b.device), log)

end AudioShader
