/-
# Processing a unit

One pass over the lines of a unit and of everything it includes. Requests go to
their handlers, includes are put in place of their line, definitions get a
guard, expansions become calls, and colors and binds are replaced; comments and
the compiler's own directives are copied. The context that handlers change is
the one that later lines are read with.

Includes nest at most to a given depth, and no file includes itself on the way:
the open files are kept as a stack, outermost first.

Key definitions: `Substitutions`, `Run`, `processLine`, `processUnit`,
`process`.
-/
import AudioShader.Request.Table
import AudioShader.Source.Inline
import AudioShader.Source.Output
import AudioShader.Source.Unit

namespace AudioShader

/-- A context that lines are read with. -/
class Substitutions (C : Type) where
  /-- The number of calls that an expansion with a control makes. -/
  count? : C → String → Option Nat
  /-- The text that stands for a bound name. -/
  bound? : C → String → Option String

/-- A context in which nothing is bound. -/
instance : Substitutions Unit where
  count? _ _ := none
  bound? _ _ := none

/-- A handler called from a line. -/
structure Call where
  place : LineRef
  request : String
  args : List Arg

/-- How far a run has come. -/
structure Run (C : Type) where
  context : C
  /-- The files opened so far. -/
  files : Array Path := #[]
  /-- What has been written so far. -/
  pieces : Array Piece := #[]
  /-- The handlers called so far. -/
  calls : Array Call := #[]

namespace Run

variable {C : Type}

/-- Opens a file and gives its number. -/
def openFile (path : Path) : Action (Run C) SourceError Nat := do
  let r ← get
  set { r with files := r.files.push path }
  return r.files.size

/-- Writes a piece. -/
def emit (p : Piece) : Action (Run C) SourceError Unit :=
  modify fun r => { r with pieces := r.pieces.push p }

def refuse {α : Type} (place : LineRef) (fault : LineFault) : Action (Run C) SourceError α :=
  throw (.refused place fault)

/-- The result, or the run ends at a line. -/
def orRefuse {α : Type} (place : LineRef) : Except LineFault α → Action (Run C) SourceError α
  | .ok a => pure a
  | .error fault => refuse place fault

/-- The run as a processed source. -/
def source (r : Run C) : ProcessedSource :=
  let out := Output.ofPieces r.pieces.toList
  ⟨out.text, ⟨r.files.toList, out.markers.toList⟩⟩

end Run

/-- What a run works with: the files, the requests and the deepest nesting. -/
structure Setup (C : Type) where
  files : FileTree
  requests : RequestTable C
  maxDepth : Nat := 32

/-- The deepest nesting of includes where none is given. -/
def defaultMaxDepth : Nat := 32

variable {C : Type}

/-! ### Requests -/

/-- Calls the handler of a request with the words of its line. -/
def dispatch (requests : RequestTable C) (place : LineRef) (name : String) (tokens : List Token) :
    Action (Run C) SourceError Unit := do
  match requests.get? name with
  | none => Run.refuse place (.unknownRequest name)
  | some request =>
    match coerceArgs request.signature tokens with
    | .error fault => Run.refuse place (LineFault.ofCoerce name fault)
    | .ok args =>
      let shown := "[" ++ String.intercalate ", " (args.map Arg.render) ++ "]"
      Action.record (.debug "dispatching request" [("request", name), ("args", shown)])
      let r ← get
      let (outcome, context) := request.handler args r.context
      set { r with context, calls := r.calls.push ⟨place, name, args⟩ }
      match outcome with
      | .ok () => pure ()
      | .error reason => throw (.rejected place name reason)

/-! ### Lines -/

/-- What one line leaves for the next one. -/
structure Carry where
  inComment : Bool := false
  /-- The line before ended with a backslash. -/
  continued : Bool := false
  /-- Lines were consumed or written otherwise, so numbering has to restart. -/
  pending : Bool := false
  deriving DecidableEq

namespace Carry

/-- A directive can only stand here: outside comments, on a line that does not
go on from the one before. -/
def atLineStart (k : Carry) : Bool := !k.continued && !k.inComment

end Carry

/-- The line goes on in the next one: it ends with a backslash. -/
def isContinued (line : List Char) : Bool :=
  (Text.dropEnd (fun c => c == '\n' || c == '\r') line).getLast? == some '\\'

/-- The first character of the line that is no white space is a `#`. -/
def startsDirective (line : List Char) : Bool := (Text.trimStart line).head? == some '#'

/-- The directive on a line, read where directives can stand. -/
def lineDirective (k : Carry) (line : List Char) : Except LineFault (Option Directive) :=
  if k.atLineStart && startsDirective line then readDirective line else .ok none

/-- Directives of which nothing is written. -/
def isConsumed : Option Directive → Bool
  | some (.includeFile _) => true
  | some (.request _ _) => true
  | _ => false

/-- Processes one line of a file, with `nested` for its includes. -/
def processLine [Substitutions C] (setup : Setup C)
    (nested : LineRef → String → Action (Run C) SourceError Unit) (file : Nat) (place : LineRef)
    (k : Carry) (line : List Char) : Action (Run C) SourceError Carry := do
  let directive ← Run.orRefuse place (lineDirective k line)
  let restart := k.pending && k.atLineStart && !isConsumed directive
  if restart then Run.emit (.marker file place.line)
  let k' : Carry :=
    { k with continued := isContinued line, pending := k.pending && !restart }
  match directive with
  | some (.includeFile target) =>
    nested place target
    return { k' with pending := true }
  | some (.request name args) =>
    dispatch setup.requests place name args
    return { k' with pending := true }
  | some (.define name) =>
    Run.emit (.guard name)
    Run.emit (.marker file place.line)
    let (text, inComment) ←
      Run.orRefuse place (scanDefine (Substitutions.bound? (← get).context) line)
    Run.emit (.line file place.line text)
    return { k' with inComment, pending := true }
  | some (.expand name control) =>
    match Substitutions.count? (← get).context control with
    | none => Run.refuse place (.unknownExpansion control)
    | some count =>
      Run.emit (.calls file place.line name count)
      return { k' with pending := true }
  | none =>
    if k.atLineStart && startsDirective line then
      Run.emit (.line file place.line line)
      return { k' with inComment := endsInComment .code line }
    else
      let zone := if k.inComment then Zone.comment else Zone.code
      let (text, inComment) ←
        Run.orRefuse place (scan (Substitutions.bound? (← get).context) zone line)
      Run.emit (.line file place.line text)
      return { k' with inComment }

/-- Processes the lines of a file from `number` on. -/
def processLines [Substitutions C] (setup : Setup C)
    (nested : LineRef → String → Action (Run C) SourceError Unit) (origin : Path) (file : Nat) :
    (number : Nat) → Carry → List (List Char) → Action (Run C) SourceError Unit
  | _, _, [] => pure ()
  | number, k, line :: rest => do
    let k' ← processLine setup nested file ⟨origin, number⟩ k line
    processLines setup nested origin file (number + 1) k' rest

/-- Processes a unit, with `nested` for its includes. -/
def processText [Substitutions C] (setup : Setup C)
    (nested : LineRef → String → Action (Run C) SourceError Unit) (unit : SourceUnit) :
    Action (Run C) SourceError Unit := do
  let file ← Run.openFile unit.origin
  Run.emit (.marker file 1)
  processLines setup nested unit.origin file 1 {} (Text.splitLines unit.text.toList)

/-! ### Includes -/

/-- The unit that an include stands for, and what identifies its file. An open
file is not included again. -/
def openInclude (setup : Setup C) (stack : List FileIdentity) (unit : SourceUnit) (place : LineRef)
    (path : Path) : Action (Run C) SourceError (SourceUnit × FileIdentity) := do
  let key := setup.files.identity path
  if stack.contains key then Run.refuse place (.includeCycle path)
  match setup.files.readText path with
  | .error fault => throw (.unreadable path fault)
  | .ok text =>
    Action.record (.debug "including source"
      [("from", place.file.text), ("line", toString place.line), ("path", path.text)])
    return (unit.nested path text, key)

/-- Processes a unit and what it includes; `room` more levels may be nested. -/
def processUnit [Substitutions C] (setup : Setup C) :
    (room : Nat) → (stack : List FileIdentity) → SourceUnit → Action (Run C) SourceError Unit
  | 0, _, unit =>
    processText setup (fun place target => do
      let _ ← Run.orRefuse place (unit.resolve target)
      Run.refuse place (.includeDepth setup.maxDepth)) unit
  | room + 1, stack, unit =>
    processText setup (fun place target => do
      let path ← Run.orRefuse place (unit.resolve target)
      let (included, key) ← openInclude setup stack unit place path
      processUnit setup room (stack ++ [key]) included) unit

/-- Processes a unit and everything it includes. -/
def process [Substitutions C] (setup : Setup C) (unit : SourceUnit) :
    Action (Run C) SourceError ProcessedSource := do
  processUnit setup setup.maxDepth [setup.files.identity unit.origin] unit
  let source := (← get).source
  Action.record (.debug "preprocessed source"
    [("origin", unit.origin.text), ("bytes", toString source.text.utf8ByteSize),
      ("files", toString source.map.files.length)])
  return source

/-- Processes a unit for a context, which is given back changed. -/
def processWith [Substitutions C] (setup : Setup C) (unit : SourceUnit) :
    Action C SourceError ProcessedSource := fun c log =>
  match process setup unit ({ context := c } : Run C) log with
  | ((r, run), log') => ((r, run.context), log')

end AudioShader
