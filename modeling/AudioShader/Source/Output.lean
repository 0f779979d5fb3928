/-
# What processing writes

Processing a unit yields pieces in order: the text of source lines, the guards
of definitions, the calls of expansions, and the markers that restart the
numbering of lines. Writing them out gives the text and the markers of its map.

Key definitions: `Piece`, `Piece.body`, `Output.write`, `Output.ofPieces`.
-/
import AudioShader.Source.Map

namespace AudioShader

/-- A piece of the output. Files are numbered in the order they are opened. -/
inductive Piece where
  /-- From here on the lines are those of `file` from `line` on. -/
  | marker (file line : Nat)
  /-- Takes back a macro before it is defined. -/
  | guard (name : String)
  /-- What stands for a line of a file. -/
  | line (file number : Nat) (text : List Char)
  /-- Calls of a macro with the numbers below `count`. -/
  | calls (file number : Nat) (name : String) (count : Nat)
  deriving DecidableEq

/-- The guard that stands before a definition: it may be repeated without a
warning. -/
def defineGuard (name : String) : String := s!"#ifdef {name}\n#undef {name}\n#endif\n"

/-- The calls of a macro on one line. -/
def expansion (name : String) (count : Nat) : String :=
  String.intercalate " " ((List.range count).map fun i => s!"{name}({i});") ++ "\n"

namespace Piece

/-- The text of a piece. -/
def body : Piece → String
  | .marker file number => s!"#line {number} {file}\n"
  | .guard name => defineGuard name
  | .line _ _ text => String.ofList text
  | .calls _ _ name count => expansion name count

/-- The line of a file that a piece stands for, if it stands for one. -/
def source? : Piece → Option (Nat × Nat)
  | .line file number _ => some (file, number)
  | .calls file number _ _ => some (file, number)
  | _ => none

end Piece

/-- What has been written. -/
structure Output where
  text : String := ""
  /-- The number of the line that is being written. -/
  line : Nat := 1
  /-- Nothing stands on that line yet. -/
  fresh : Bool := true
  markers : Array LineOrigin := #[]

namespace Output

/-- Writes a text. -/
def push (o : Output) (text : String) : Output :=
  let cs := text.toList
  { o with
    text := o.text ++ text
    line := o.line + Text.countBreaks cs
    fresh := if cs.isEmpty then o.fresh else Text.endsLine cs }

/-- Writes a piece. A marker starts on a line of its own, and the map notes the
line behind it. -/
def write (o : Output) (p : Piece) : Output :=
  match p with
  | .marker file line =>
    let o := if o.fresh then o else o.push "\n"
    let o := o.push p.body
    { o with markers := o.markers.push ⟨o.line, file, line⟩ }
  | _ => o.push p.body

def ofPieces (pieces : List Piece) : Output := pieces.foldl write {}

end Output
end AudioShader
