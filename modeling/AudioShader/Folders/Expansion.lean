/-
# Variables and the home folder in paths

A path of a run file may name variables, as `$NAME` or with the name in braces,
and start with a tilde for the home folder. The text is read from left to right
into parts, and each part is replaced; what a variable stands for is not read
again. The first part that stands for nothing is the fault.

Key definitions: `Environment`, `PathPart`, `pathParts`, `Environment.fill`,
`PathResolver.resolve`.
-/
import AudioShader.Event
import AudioShader.Files.Path
import AudioShader.Text.Blank

namespace AudioShader

/-- The variables of a run. -/
structure Environment where
  bindings : List (String × String) := []

namespace Environment

def get? (env : Environment) (name : String) : Option String := env.bindings.lookup name

/-- The value of a variable that is set to something. -/
def filled? (env : Environment) (name : String) : Option String :=
  (env.get? name).filter fun value => !value.isEmpty

/-- The home folder. -/
def home? (env : Environment) : Option Path := (env.filled? "HOME").map Path.mk

end Environment

/-! ### The parts of a path -/

/-- A part of a path's text. -/
inductive PathPart where
  | plain (c : Char)
  | named (name : List Char)
  /-- A brace behind a dollar sign that is not closed. -/
  | unclosed
  /-- Braces without a name. -/
  | unnamed
  deriving DecidableEq

theorem length_of_cutAt? {mark cs front back : List Char} (h : Text.cutAt? mark cs = some (front, back)) :
    back.length ≤ cs.length := by
  rw [Text.eq_append_of_cutAt? h]
  simp only [List.length_append]
  omega

/-- The parts of a text. Nothing is read behind braces that are not closed or
hold no name. -/
def pathParts : List Char → List PathPart
  | [] => []
  | '$' :: '\x7b' :: cs =>
    match _ : Text.cutAt? ['\x7d'] cs with
    | none => [.unclosed]
    | some ([], _) => [.unnamed]
    | some (c :: name, rest) => .named (c :: name) :: pathParts rest
  | c :: cs =>
    if c = '$' ∧ cs.takeWhile Text.isNameChar ≠ [] then
      .named (cs.takeWhile Text.isNameChar) :: pathParts (cs.dropWhile Text.isNameChar)
    else .plain c :: pathParts cs
termination_by cs => cs.length
decreasing_by
  · next h => have := length_of_cutAt? h; simp only [List.length_cons]; omega
  · have := Text.length_dropWhile_le Text.isNameChar cs; simp only [List.length_cons]; omega
  · simp

/-- Why a path of a run file is refused. -/
inductive PathFault where
  | empty
  | unclosed (input : String)
  | unnamed (input : String)
  | unset (name : String)
  | otherHome (input : String)
  | noHome
  | noFolders
  deriving DecidableEq

namespace PathFault

def message : PathFault → String
  | .empty => "path must not be empty"
  | .unclosed input => s!"unterminated '$\x7b' in '{input}'"
  | .unnamed input => s!"empty variable name in '{input}'"
  | .unset name => s!"variable '{name}' is not set"
  | .otherHome input => s!"'~user' paths are not supported: '{input}'"
  | .noHome => "no home directory to expand '~' against"
  | .noFolders => "failed to determine user directories"

/-- What a fault comes from, in words. -/
def causes : PathFault → List String
  | .unset _ => ["environment variable not found"]
  | _ => []

end PathFault

namespace Environment

/-- The text of a part; `input` is the whole text. -/
def fillPart (env : Environment) (input : String) : PathPart → Except PathFault (List Char)
  | .plain c => .ok [c]
  | .named name =>
    match env.get? (String.ofList name) with
    | some value => .ok value.toList
    | none => .error (.unset (String.ofList name))
  | .unclosed => .error (.unclosed input)
  | .unnamed => .error (.unnamed input)

/-- The texts of parts, one after the other. -/
def fillParts (env : Environment) (input : String) : List PathPart → Except PathFault (List Char)
  | [] => .ok []
  | part :: parts => do
    let front ← env.fillPart input part
    let back ← env.fillParts input parts
    return front ++ back

/-- A text with the values of its variables. -/
def fill (env : Environment) (input : String) : Except PathFault String :=
  (env.fillParts input (pathParts input.toList)).map String.ofList

/-- A path with the home folder in place of a leading tilde. -/
def underHome (env : Environment) (input : String) : Except PathFault Path :=
  let below (rest : List Char) : Except PathFault Path :=
    match env.home? with
    | some home => .ok (home.join ⟨String.ofList rest⟩)
    | none => .error .noHome
  match input.toList with
  | '~' :: '/' :: rest => below rest
  | ['~'] => below []
  | '~' :: _ => .error (.otherHome input)
  | _ => .ok ⟨input⟩

end Environment

/-- Paths are resolved with the variables of a run, from a working folder. -/
structure PathResolver where
  env : Environment
  here : Path

namespace PathResolver

/-- The path that a text stands for. -/
def expand (r : PathResolver) (input : String) : Except PathFault Path := do
  if input.toList.all Text.isBlank then throw .empty
  let path ← r.env.underHome (← r.env.fill input)
  return r.here.join path

/-- Resolves a text and reports the path. -/
def resolve (r : PathResolver) (input : String) : Logged PathFault Path := do
  let path ← r.expand input
  Logged.record (.debug "resolved path" [("original", input), ("resolved", path.text)])
  return path

end PathResolver
end AudioShader
