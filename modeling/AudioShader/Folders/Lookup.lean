/-
# The folders of a run

Entry files and modules are looked up in two folders: the user's own and the
one with what was installed. A run file may name them; otherwise variables do,
or they have their usual places.

Key definitions: `AppFolders`, `AppFolders.discover`, `AppFolders.ofRun`,
`AppFolders.moduleCandidates`, `AppFolders.entryCandidates`.
-/
import AudioShader.Folders.Expansion
import AudioShader.RunFile.Basic

namespace AudioShader

structure AppFolders where
  config : Path
  default : Path
  deriving DecidableEq

namespace AppFolders

/-- Where a module may lie. -/
def moduleCandidates (f : AppFolders) (module : String) : List Path :=
  [f.config.join ⟨module⟩, f.default.join ⟨module⟩]

/-- Where an entry file may lie. -/
def entryCandidates (f : AppFolders) (entry : Path) : List Path :=
  if entry.isAbsolute then [entry] else [f.config.join entry, f.default.join entry]

/-- The folder of user configurations. -/
def userConfig? (env : Environment) : Option Path :=
  match (env.get? "XDG_CONFIG_HOME").map Path.mk with
  | some dir => if dir.isAbsolute then some dir else (env.home?).map (·.join ⟨".config"⟩)
  | none => (env.home?).map (·.join ⟨".config"⟩)

/-- The folders where none are named. -/
def usual? (env : Environment) : Option AppFolders := do
  let _ ← env.home?
  let config ← userConfig? env
  let named (key : String) (usual : Path) : Path := ((env.filled? key).map Path.mk).getD usual
  return ⟨named "SPECTRASHADE_CONFIG_DIR" (config.join ⟨"spectrashade"⟩),
    named "SPECTRASHADE_DEFAULT_DIR" ⟨"/usr/share/spectrashade"⟩⟩

/-- Finds the folders and reports them. -/
def discover (env : Environment) : Logged PathFault AppFolders := do
  match usual? env with
  | none => throw .noFolders
  | some folders =>
    Logged.record (.debug "discovered directories"
      [("config", folders.config.text), ("defaults", folders.default.text)])
    return folders

/-- Resolves a path if there is one. -/
def resolveNamed (r : PathResolver) : Option String → Logged PathFault (Option Path)
  | some text => do return some (← r.resolve text)
  | none => return none

/-- The folders of a run file: those it names, and the discovered ones in place
of those it does not. -/
def ofRun (run : RunConfig) (r : PathResolver) : Logged PathFault AppFolders := do
  let config ← resolveNamed r run.configDir
  let default ← resolveNamed r run.defaultDir
  match config, default with
  | some config, some default => return ⟨config, default⟩
  | _, _ =>
    let found ← discover r.env
    return ⟨config.getD found.config, default.getD found.default⟩

end AppFolders
end AudioShader
