/-
# Run files

A run file names the entry file, the folders it is looked up in, requests that
are made before it and the values that are bound from outside, with how long
the run may take. A run file that was read may still be refused for what it
says; the first fault counts, in the order of the fields.

Key definitions: `BindType`, `BindDecl`, `RunConfig`, `ConfigFault`,
`RunConfig.check`.
-/
import AudioShader.Duration
import AudioShader.Files.Path
import AudioShader.Text.Blank
import AudioShader.Text.Quoted

namespace AudioShader

/-- What draws the frames. -/
inductive BackendKind where
  /-- A backend without a screen, which records what is drawn. -/
  | headless
  | gpu
  deriving DecidableEq

namespace BackendKind

def name : BackendKind → String
  | .headless => "headless"
  | .gpu => "gpu"

def ofName? : String → Option BackendKind
  | "headless" => some .headless
  | "gpu" => some .gpu
  | _ => none

end BackendKind

/-- The type of a value that is bound from outside. -/
inductive BindType where
  | float
  | int
  | vec2
  | vec3
  | vec4
  | bool
  deriving DecidableEq

namespace BindType

/-- The type as the shading language writes it. -/
def name : BindType → String
  | .float => "float"
  | .int => "int"
  | .vec2 => "vec2"
  | .vec3 => "vec3"
  | .vec4 => "vec4"
  | .bool => "bool"

def ofName? : String → Option BindType
  | "float" => some .float
  | "int" => some .int
  | "vec2" => some .vec2
  | "vec3" => some .vec3
  | "vec4" => some .vec4
  | "bool" => some .bool
  | _ => none

/-- The number of components. -/
def components : BindType → Nat
  | .float => 1
  | .int => 1
  | .vec2 => 2
  | .vec3 => 3
  | .vec4 => 4
  | .bool => 1

theorem ofName?_name (t : BindType) : ofName? t.name = some t := by cases t <;> rfl

end BindType

/-- A value that is bound from outside: its name, its type and the text of its
first value. -/
structure BindDecl where
  name : String
  type : BindType
  value : Option String := none
  deriving DecidableEq

structure RunConfig where
  version : Nat := 1
  entry : String := "rc.glsl"
  configDir : Option String := none
  defaultDir : Option String := none
  backend : BackendKind := .headless
  /-- Requests that are made before the entry file, without their keyword. -/
  requests : List String := []
  binds : List BindDecl := []
  /-- How long the run takes; it goes on until it is stopped if there is none. -/
  duration : Option Duration := none

/-- Why a run file is refused. -/
inductive ConfigFault where
  | version (found : Nat)
  | emptyEntry
  | emptyRequest
  | brokenRequest (request : String)
  | bindName (name : String)
  | bindTwice (name : String)
  | noTime
  deriving DecidableEq

namespace ConfigFault

def message : ConfigFault → String
  | .version found => s!"unsupported config version {found}; expected 1"
  | .emptyEntry => "entry must not be empty"
  | .emptyRequest => "requests may not be empty"
  | .brokenRequest request =>
    let shown := Text.escaped request
    s!"request '{shown}' must fit on one line"
  | .bindName name => s!"bind name '{name}' is not a valid identifier"
  | .bindTwice name => s!"bind '{name}' is declared more than once"
  | .noTime => "duration must be greater than zero"

end ConfigFault

namespace RunConfig

def entryPath (c : RunConfig) : Path := ⟨c.entry⟩

/-- The first declaration of a name. -/
def bind? (c : RunConfig) (name : String) : Option BindDecl := c.binds.find? fun b => b.name == name

/-- Nothing but white space. -/
def isVoid (s : String) : Bool := s.toList.all Text.isBlank

def checkRequest (request : String) : Except ConfigFault Unit :=
  if isVoid request then .error .emptyRequest
  else if request.toList.contains '\n' then .error (.brokenRequest request)
  else .ok ()

/-- Refuses a declaration whose name is none, or is among those before it. -/
def checkBind (seen : List String) (b : BindDecl) : Except ConfigFault Unit :=
  if !Text.isName b.name then .error (.bindName b.name)
  else if seen.contains b.name then .error (.bindTwice b.name)
  else .ok ()

/-- Checks declarations from left to right, behind those of the names `seen`. -/
def checkBinds : (seen : List String) → List BindDecl → Except ConfigFault Unit
  | _, [] => .ok ()
  | seen, b :: bs => do
    checkBind seen b
    checkBinds (seen ++ [b.name]) bs

def checkDuration : Option Duration → Except ConfigFault Unit
  | some d => if d.isZero then .error .noTime else .ok ()
  | none => .ok ()

/-- Refuses a run file for its first fault. -/
def check (c : RunConfig) : Except ConfigFault Unit := do
  if c.version ≠ 1 then throw (.version c.version)
  if isVoid c.entry then throw .emptyEntry
  c.requests.forM checkRequest
  checkBinds [] c.binds
  checkDuration c.duration

end RunConfig
end AudioShader
