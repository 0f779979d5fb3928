/-
# Headers of stages

A stage is compiled with a header in front: the version of the language, what
the settings define, and a uniform for each name bound from outside.

Key definitions: `stageHeader`, `StageSetup`, `StageSetup.process`.
-/
import AudioShader.Stage.Context

namespace AudioShader

/-- The header of all stages of a run. -/
def stageHeader (settings : PipelineSettings) (binds : List BindDecl) : String :=
  let smooth := FloatText.fixed32 6 settings.smoothFactor
  Text.unlines (
    [s!"#version {settings.glslVersion}", s!"#define _SMOOTH_FACTOR {smooth}"] ++
    (binds.map fun b => "uniform " ++ b.type.name ++ " " ++ externalName b.name ++ ";") ++
    (controls settings).map fun c => s!"#define {c.1} {c.2}")

/-- What the stages of a module are built with. -/
structure StageSetup where
  files : FileTree
  settings : PipelineSettings
  binds : List BindDecl := []
  configDir : Option Path := none
  defaultDir : Option Path := none

namespace StageSetup

/-- A unit that includes look up in the folders of the setup. -/
def equip (s : StageSetup) (unit : SourceUnit) : SourceUnit :=
  { unit with
    configDir := s.configDir.or unit.configDir
    defaultDir := s.defaultDir.or unit.defaultDir }

/-- The context in which a stage starts. -/
def context (s : StageSetup) : StageContext := { settings := s.settings, binds := s.binds }

/-- Processes a unit as a stage. -/
def process (s : StageSetup) (unit : SourceUnit) : Action StageContext SourceError ProcessedSource := do
  let source ← processWith { files := s.files, requests := stageRequests } unit
  return source.withLead (stageHeader s.settings s.binds)

end StageSetup
end AudioShader
