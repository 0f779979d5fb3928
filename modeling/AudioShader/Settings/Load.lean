/-
# Loading settings

The requests of a run file are made first, then the entry file is processed;
both change the same settings. The module they select is looked up last.

Key definitions: `LoadError`, `LoadedSettings`, `requestLines`, `loadSettings`.
-/
import AudioShader.Folders.Lookup
import AudioShader.Settings.Change

namespace AudioShader

/-- Why settings are not loaded. -/
inductive LoadError where
  | source (error : SourceError)
  | noEntry (entry : Path) (searched : List Path)
  | noModule (name : String) (searched : List Path)
  | params (error : TransformError)

namespace LoadError

/-- The name of the cause. -/
def label : LoadError → String
  | .source error => error.label
  | .noEntry _ _ => "EntryNotFound"
  | .noModule _ _ => "ModuleNotFound"
  | .params _ => "Invalid"

/-- Paths with commas between them. -/
def pathList (paths : List Path) : String := String.intercalate ", " (paths.map (·.text))

def message : LoadError → String
  | .source error => error.message
  | .noEntry entry searched =>
    let places := pathList searched
    s!"entry file '{entry.text}' not found (searched {places})"
  | .noModule name searched =>
    let places := pathList searched
    s!"module '{name}' not found (searched {places})"
  | .params error => s!"invalid pipeline settings: {error.message}"

/-- What a failure comes from, in words. -/
def causes : LoadError → List String
  | .source error => error.causes
  | .params error => [error.message]
  | _ => []

end LoadError

structure LoadedSettings where
  settings : PipelineSettings
  /-- The entry file that was found. -/
  entry : Path
  /-- The folder with the stages. -/
  moduleDir : Path

/-- Requests as the lines of a text. -/
def requestLines (requests : List String) : String :=
  Text.unlines (requests.map fun request => "#request " ++ request)

/-- A unit that includes look up in the folders of a run. -/
def AppFolders.equip (f : AppFolders) (unit : SourceUnit) : SourceUnit :=
  (unit.withConfigDir f.config).withDefaultDir f.default

/-- Processes a unit and gives the settings after it. -/
def configureFrom (files : FileTree) (settings : PipelineSettings) (unit : SourceUnit) :
    Logged LoadError PipelineSettings := do
  let (_, settings) ← Logged.mapError .source (Action.from? settings (configure files unit))
  return settings

/-- Makes the requests of a run file. -/
def applyRequests (files : FileTree) (folders : AppFolders) (requests : List String)
    (settings : PipelineSettings) : Logged LoadError PipelineSettings := do
  if requests.isEmpty then return settings
  let unit := folders.equip (.ofText ⟨"<requests>"⟩ (requestLines requests))
  let settings ← configureFrom files settings unit
  Logged.record (.debug "applied injected requests" [("count", toString requests.length)])
  return settings

/-- The first candidate that passes a test. -/
def findFirst (candidates : List Path) (test : Path → Bool) (error : LoadError) :
    Logged LoadError Path :=
  match candidates.find? test with
  | some path => pure path
  | none => throw error

/-- Loads the settings of a run and finds its module. -/
def loadSettings (files : FileTree) (run : RunConfig) (folders : AppFolders) :
    Logged LoadError LoadedSettings := do
  let settings ← applyRequests files folders run.requests {}
  let candidates := folders.entryCandidates run.entryPath
  let entry ← findFirst candidates files.isFile (.noEntry run.entryPath candidates)
  let unit ← match SourceUnit.ofFile files entry with
    | .ok unit => pure (folders.equip unit)
    | .error error => throw (.source error)
  let settings ← configureFrom files settings unit
  match settings.params.check with
  | .ok () => pure ()
  | .error error => throw (.params error)
  let candidates := folders.moduleCandidates settings.module
  let moduleDir ← findFirst candidates files.isFolder (.noModule settings.module candidates)
  Logged.record (.info "loaded settings" [("entry", entry.text), ("module", settings.module),
    ("dir", moduleDir.text), ("frame_rate", toString settings.frameRate)])
  return { settings, entry, moduleDir }

end AudioShader
