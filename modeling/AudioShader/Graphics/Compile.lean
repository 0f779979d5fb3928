/-
# The scan of a compiler

A fragment is scanned line by line: `#line` lines renumber what is reported,
`#error` lines refuse it, and uniforms are declared once each. A uniform is
active if its name stands anywhere else.

Key definitions: `Scan`, `Scan.step`, `scanFragment`, `Declared`.
-/
import AudioShader.Number.Reading
import AudioShader.Text.Line
import AudioShader.Uniform.Declaration

namespace AudioShader

/-- A declared uniform. -/
structure Declared where
  name : String
  type : ValueType
  /-- Its name stands outside of its declaration. -/
  active : Bool := false
  value : Option UniformValue := none

/-- How far a scan has come. -/
structure Scan where
  /-- The number of the file and of the last line, as `#line` lines tell it. -/
  file : Nat := 0
  line : Nat := 0
  errors : List String := []
  uniforms : List (ValueType × String) := []
  /-- The names that stand outside of declarations. -/
  used : List String := []

/-- What a line of a fragment is to a compiler. -/
inductive ShaderLine where
  /-- The next line has the given number, if it is one, in the given file. -/
  | renumber (line file : Option Nat)
  | error (message : List Char)
  | uniform (type : ValueType) (name : String)
  | code (text : List Char)

/-- The kind of a line without blanks around it. -/
def ShaderLine.ofText (line : List Char) : ShaderLine :=
  match Text.after? "#line".toList line with
  | some rest =>
    let numbers := (words rest).map readWord64?
    .renumber numbers.head?.join (numbers[1]?).join
  | none =>
    match Text.after? "#error".toList line with
    | some rest => .error (Text.trim rest)
    | none =>
      match declared? line with
      | some (type, name) => .uniform type name
      | none => .code line

namespace Scan

/-- The scan with an error at the line it has come to. -/
def report (s : Scan) (what : String) : Scan :=
  { s with errors := s.errors ++ [s!"ERROR: {s.file}:{s.line}: {what}"] }

/-- Scans a line. -/
def step (s : Scan) (line : List Char) : Scan :=
  let s := { s with line := s.line + 1 }
  match ShaderLine.ofText (Text.trim line) with
  | .renumber (some line) file => { s with line := line - 1, file := file.getD s.file }
  | .renumber none _ => s
  | .error message =>
    let shown := String.ofList message
    s.report s!"'#error' : {shown}"
  | .uniform type name =>
    let s := if s.uniforms.any fun u => u.2 == name then s.report s!"'{name}' : redefinition" else s
    { s with uniforms := s.uniforms ++ [(type, name)] }
  | .code text => { s with used := identifiers text ++ s.used }

/-- The declared uniforms, each active if its name is used. -/
def declarations (s : Scan) : List Declared :=
  s.uniforms.map fun u => { name := u.2, type := u.1, active := s.used.contains u.2 }

end Scan

/-- Scans a fragment: its uniforms, or the log of what is wrong with it. -/
def scanFragment (fragment : String) : Except String (List Declared) :=
  let scan := (Text.lines fragment).foldl Scan.step {}
  if scan.errors.isEmpty then .ok scan.declarations
  else .error (String.intercalate "\n" scan.errors)

end AudioShader
