/-
# Source maps

A processed text tells, by its `#line` lines, which line of which file the text
behind each of them came from. The map holds the same facts as data, so that a
line of the whole text can be traced back.

Key definitions: `LineOrigin`, `SourceMap.resolve`, `ProcessedSource`,
`ProcessedSource.withLead`.
-/
import AudioShader.Source.Fault
import AudioShader.Text.Line

namespace AudioShader

/-- From `outputLine` on, the lines of the output are those of a file from
`line` on. -/
structure LineOrigin where
  outputLine : Nat
  file : Nat
  line : Nat
  deriving DecidableEq

/-- Files in the order they were opened, and the places where numbering restarts. -/
structure SourceMap where
  files : List Path := []
  markers : List LineOrigin := []
  deriving DecidableEq

namespace SourceMap

/-- The file line that a line of the output came from: the last restart at or
before it decides. -/
def resolve (m : SourceMap) (outputLine : Nat) : Option LineRef := do
  let marker ← (m.markers.takeWhile fun k => k.outputLine ≤ outputLine).getLast?
  let file ← m.files[marker.file]?
  return ⟨file, marker.line + (outputLine - marker.outputLine)⟩

/-- The file line that a compiler means which numbers lines as the `#line` lines
tell it. -/
def resolveReported (m : SourceMap) (file line : Nat) : Option LineRef :=
  (m.files[file]?).map fun path => ⟨path, line⟩

/-- The map of the same text behind `lines` more lines. -/
def shift (m : SourceMap) (lines : Nat) : SourceMap :=
  { m with markers := m.markers.map fun k => { k with outputLine := k.outputLine + lines } }

theorem shift_files (m : SourceMap) (n : Nat) : (m.shift n).files = m.files := rfl

end SourceMap

/-- A text ready to be compiled, with its map. -/
structure ProcessedSource where
  text : String
  map : SourceMap
  deriving DecidableEq

namespace ProcessedSource

/-- The text with another one in front, which gets a line feed if it has none. -/
def withLead (s : ProcessedSource) (lead : String) : ProcessedSource :=
  if lead.isEmpty then s
  else
    let lead := if Text.endsLine lead.toList then lead else lead ++ "\n"
    ⟨lead ++ s.text, s.map.shift (Text.countBreaks lead.toList)⟩

end ProcessedSource
end AudioShader
