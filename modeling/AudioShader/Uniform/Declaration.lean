/-
# Declarations of uniforms

A line of a shader declares a uniform if it says `uniform`, a type and a name,
with a precision anywhere between them. Two readings exist: the scan of a
compiler, which takes the name as it finds it, and the stricter one of a
lowering, which wants the name alone with a semicolon behind it.

Key definitions: `words`, `declared?`, `declaredExactly?`.
-/
import AudioShader.Text.Blank
import AudioShader.Text.Search
import AudioShader.Uniform.Value

namespace AudioShader

/-- The words between blanks. -/
def words (cs : List Char) : List (List Char) :=
  (Text.splitAt ' ' (cs.map fun c => if Text.isBlank c then ' ' else c)).filter fun w => !w.isEmpty

/-- The precisions that a type may be declared with. -/
def isPrecision (word : List Char) : Bool :=
  word == "lowp".toList || word == "mediump".toList || word == "highp".toList

/-- The type and the name's word of a declaration, on a line without blanks
around it. -/
def typeAndWord? (line : List Char) : Option (ValueType × List Char) :=
  match Text.after? "uniform ".toList line with
  | none => none
  | some rest =>
    match (words rest).filter fun w => !isPrecision w with
    | type :: name :: _ => (ValueType.ofName? (String.ofList type)).map fun t => (t, name)
    | _ => none

/-- A declaration as the scan of a compiler sees it: semicolons behind the name
and a size in brackets do not belong to it. -/
def declared? (line : List Char) : Option (ValueType × String) := do
  let (type, word) ← typeAndWord? line
  let name := (Text.dropEnd (· == ';') word).takeWhile (· != '[')
  if name.isEmpty then none else return (type, String.ofList name)

/-- A declaration whose name is a name and is followed by a semicolon. -/
def declaredExactly? (line : List Char) : Option (ValueType × String) := do
  let (type, word) ← typeAndWord? (Text.trim line)
  match word.reverse with
  | ';' :: rest =>
    let name := rest.reverse
    if !name.isEmpty && name.all Text.isNameChar then return (type, String.ofList name) else none
  | _ => none

/-- The runs of name characters in a line. -/
def identifiers (line : List Char) : List String :=
  ((words (line.map fun c => if Text.isNameChar c then c else ' '))).map String.ofList

end AudioShader
