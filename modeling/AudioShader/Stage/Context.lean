/-
# The context of a stage

While a stage is processed its requests declare the uniforms it wants filled
and add transforms to their chains. Expansions count what the settings say, and
the names bound from outside stand for uniforms of their own.

Key definitions: `UniformRequest`, `StageContext`, `StageFault`,
`StageContext.bindUniform`, `StageContext.addTransform`, `stageRequests`.
-/
import AudioShader.Settings.Change
import AudioShader.Signal.Chain
import AudioShader.Uniform.Catalog

namespace AudioShader

/-- A uniform that a stage wants filled from a source, through a chain. -/
structure UniformRequest where
  name : String
  source : BindSource
  chain : Chain := {}
  deriving DecidableEq

/-- The uniform that holds the value of a name bound from outside. -/
def externalName (name : String) : String := "_IN_" ++ name

/-- What expansions count: a name, and the number that the settings give it. -/
def controls (settings : PipelineSettings) : List (String × Nat) :=
  [("_AVG_FRAMES", settings.avgFrames), ("_CHANNELS", channelCount),
   ("_UNIFORM_LIMIT", settings.uniformLimit)]

structure StageContext where
  settings : PipelineSettings
  binds : List BindDecl
  /-- The uniforms declared so far. -/
  uniforms : List UniformRequest := []

/-- Why a request of a stage is refused. -/
inductive StageFault where
  | missing (what : String)
  | unknownSource (name : String)
  | boundTwice (name : String)
  | unknownTransform (error : TransformError)
  | unbound (name : String)
  | notAudio (transform : Transform) (name source : String)

namespace StageFault

def message : StageFault → String
  | .missing what => s!"missing {what}"
  | .unknownSource name => s!"unknown bind source '{name}'"
  | .boundTwice name => s!"uniform '{name}' is already bound"
  | .unknownTransform error => error.message
  | .unbound name => s!"no uniform named '{name}' has been bound"
  | .notAudio transform name source =>
    s!"transform '{transform.name}' needs an audio source, but '{name}' is bound to '{source}'"

end StageFault

namespace StageContext

instance : Substitutions StageContext where
  count? c control := (controls c.settings).lookup control
  bound? c name := if c.binds.any fun b => b.name == name then some (externalName name) else none

/-- The uniform of a name. -/
def uniform? (c : StageContext) (name : String) : Option UniformRequest :=
  c.uniforms.find? fun u => u.name == name

/-- Declares a uniform with an empty chain. -/
def bindUniform (c : StageContext) (sourceName name : String) : Except StageFault StageContext :=
  match BindSource.ofName? sourceName with
  | none => .error (.unknownSource sourceName)
  | some source =>
    if (c.uniform? name).isSome then .error (.boundTwice name)
    else .ok { c with uniforms := c.uniforms ++ [⟨name, source, {}⟩] }

/-- Adds a transform to the chain of the first uniform of a name. -/
def extend (name : String) (kind : Transform) : List UniformRequest → List UniformRequest
  | [] => []
  | u :: us =>
    if u.name = name then { u with chain := u.chain.push kind } :: us
    else u :: extend name kind us

/-- Adds a transform to the chain of a declared uniform with an audio source. -/
def addTransform (c : StageContext) (name transform : String) : Except StageFault StageContext :=
  match Transform.ofName transform with
  | .error error => .error (.unknownTransform error)
  | .ok kind =>
    match c.uniform? name with
    | none => .error (.unbound name)
    | some u =>
      if u.source.kind.isAudio then
        .ok { c with uniforms := extend name kind c.uniforms }
      else .error (.notAudio kind name u.source.name)

end StageContext

/-- The two texts that a request of a stage takes. -/
def twoTexts (first second : String) (args : List Arg) : Except StageFault (String × String) :=
  match (args[0]?).bind Arg.asText?, (args[1]?).bind Arg.asText? with
  | none, _ => .error (.missing first)
  | some _, none => .error (.missing second)
  | some a, some b => .ok (a, b)

/-- A handler that changes the context, or refuses its arguments and leaves the
context as it was. -/
def stageHandler (first second : String)
    (change : StageContext → String → String → Except StageFault StageContext) :
    Handler StageContext := fun args => do
  let c ← get
  match (twoTexts first second args).bind fun p => change c p.1 p.2 with
  | .ok c' => set c'
  | .error fault => throw fault.message

/-- The requests of a stage. -/
def stageRequests : RequestTable StageContext :=
  .ofList [
    ⟨"uniform", "ss", stageHandler "bind source" "uniform name" StageContext.bindUniform⟩,
    ⟨"transform", "ss", stageHandler "uniform name" "transform name" StageContext.addTransform⟩]

end AudioShader
