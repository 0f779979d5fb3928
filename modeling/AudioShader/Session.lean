/-
# Sessions

A session is one configured run: its settings are loaded, the module they
select is built, and ticks are rendered until it is stopped or its time is
over. A failure is told with all that it comes from.

Key definitions: `SessionError`, `Session`, `Session.openOn`, `Session.run`,
`Session.shutdown`.
-/
import AudioShader.Graphics.Headless
import AudioShader.Pipeline.Loop
import AudioShader.Settings.Load

namespace AudioShader

/-- Why a session is not opened or does not run. -/
inductive SessionError where
  | noGpu
  | path (fault : PathFault)
  | settings (error : LoadError)
  | bindValue (error : ExternalError)
  | build (module : String) (error : BuildError)
  | closed
  | render (error : RenderError)

namespace SessionError

/-- What went wrong, outermost first, down to what it comes from. -/
def chain : SessionError → List String
  | .noGpu => ["the gpu backend needs the \x60gpu\x60 feature"]
  | .path fault => fault.message :: fault.causes
  | .settings error => "failed to load settings" :: error.message :: error.causes
  | .bindValue error => ["invalid bind value", error.message]
  | .build module error => s!"failed to build module '{module}'" :: error.message :: error.causes
  | .closed => ["session has already been shut down"]
  | .render error => error.message :: error.causes

/-- All of it on one line. -/
def message (e : SessionError) : String := String.intercalate ": " e.chain

end SessionError

structure Session (σ : Type) where
  config : RunConfig
  loaded : LoadedSettings
  device : σ
  /-- None after the session was shut down. -/
  pipeline : Option Pipeline
  audio : SharedAudio Float32
  liveness : Liveness := {}

namespace Session

variable {σ : Type} [GraphicsBackend σ]

/-- Builds the module of loaded settings on a device. -/
def buildOn (files : FileTree) (config : RunConfig) (folders : AppFolders)
    (loaded : LoadedSettings) (externals : ExternalValues) (device : σ) :
    Logged SessionError (Pipeline × σ) :=
  let setup : StageSetup :=
    { files, settings := loaded.settings, binds := config.binds, configDir := some folders.config,
      defaultDir := some folders.default }
  Logged.mapError (.build loaded.settings.module)
    (Action.from? device (Pipeline.build setup loaded.moduleDir externals))

/-- Opens a session on a device. -/
def openOn (files : FileTree) (config : RunConfig) (resolver : PathResolver) (device : σ) :
    Logged SessionError (Session σ) := do
  let folders ← Logged.mapError .path (AppFolders.ofRun config resolver)
  let loaded ← Logged.mapError .settings (loadSettings files config folders)
  let externals ← match ExternalValues.ofBinds config.binds with
    | .ok externals => pure externals
    | .error error => throw (.bindValue error)
  let (pipeline, device) ← buildOn files config folders loaded externals device
  Logged.record (.info "session ready" [("module", loaded.settings.module),
    ("stages", toString pipeline.stages.length)])
  return { config, loaded, device, pipeline := some pipeline, audio := .new loaded.settings.bufferSize }

/-- Opens a session on the backend that its run file asks for. -/
def open_ (files : FileTree) (config : RunConfig) (resolver : PathResolver) (screen : Nat × Nat) :
    Logged SessionError (Session HeadlessBackend) :=
  match config.backend with
  | .gpu => throw .noGpu
  | .headless => openOn files config resolver { screen }

/-- The values bound from outside, while the session is not shut down. -/
def externals? (s : Session σ) : Option ExternalValues := s.pipeline.map (·.externals)

/-- Changes the values bound from outside; nothing happens after the session was shut down. -/
def putExternals (s : Session σ) (externals : ExternalValues) : Session σ :=
  { s with pipeline := s.pipeline.map fun p => { p with externals } }

/-- Lets the next or current run end. -/
def stop (s : Session σ) : Session σ := { s with liveness := s.liveness.stop }

/-- Renders ticks until the session is stopped or its time is over, at most `most`. -/
def run (clock : Clock) (most : Nat) : Action (Session σ) SessionError Nat := do
  let s ← get
  match s.pipeline with
  | none => throw .closed
  | some pipeline =>
    let loop : RenderLoop := { frameRate := s.loaded.settings.frameRate, limit := s.config.duration }
    Action.mapError .render
      (Action.within (fun s => ({ device := s.device, audio := s.audio, pipeline } : Rendering σ))
        (fun r s => { s with device := r.device, audio := r.audio, pipeline := some r.pipeline })
        (loop.run clock (fun _ => s.liveness.alive) most))

/-- Frees all that the session holds; a second time does nothing. -/
def shutdown {ε : Type} : Action (Session σ) ε Unit := do
  match (← get).pipeline with
  | none => pure ()
  | some pipeline =>
    Action.within (fun s => s.device) (fun device s => { s with device, pipeline := none })
      pipeline.teardown

end Session
end AudioShader
