/-
# Source units

A unit is one text to be processed, with the path it came from and the folders
its includes are looked up in: the unit's own, the configuration's and the one
with the defaults.

Key definitions: `SourceUnit`, `SourceUnit.ofText`, `SourceUnit.ofFile`,
`SourceUnit.nested`, `SourceUnit.resolve`.
-/
import AudioShader.Files.Tree
import AudioShader.Source.Fault

namespace AudioShader

structure SourceUnit where
  origin : Path
  text : String
  /-- Where plain relative includes are looked up. -/
  currentDir : Path
  /-- Where includes that start with a colon are looked up. -/
  configDir : Option Path := none
  /-- Where includes that start with an at sign are looked up. -/
  defaultDir : Option Path := none
  deriving DecidableEq

namespace SourceUnit

/-- A text as if it were read from `origin`. -/
def ofText (origin : Path) (text : String) : SourceUnit :=
  { origin, text, currentDir := origin.folder }

/-- The text of a file. -/
def ofFile (files : FileTree) (path : Path) : Except SourceError SourceUnit :=
  match files.readText path with
  | .ok text => .ok (ofText path text)
  | .error fault => .error (.unreadable path fault)

def withConfigDir (u : SourceUnit) (dir : Path) : SourceUnit := { u with configDir := some dir }

def withDefaultDir (u : SourceUnit) (dir : Path) : SourceUnit := { u with defaultDir := some dir }

def withCurrentDir (u : SourceUnit) (dir : Path) : SourceUnit := { u with currentDir := dir }

/-- The unit of a file that `u` includes: it is looked up from in its own folder
and keeps the other two. -/
def nested (u : SourceUnit) (path : Path) (text : String) : SourceUnit :=
  { u with origin := path, text, currentDir := path.folder }

/-- The path that an include target stands for. -/
def resolve (u : SourceUnit) (target : String) : Except LineFault Path :=
  match target.toList with
  | ':' :: rest =>
    match u.configDir with
    | some dir => .ok (dir.join ⟨String.ofList rest⟩)
    | none => .error (.missingRoot .config target)
  | '@' :: rest =>
    match u.defaultDir with
    | some dir => .ok (dir.join ⟨String.ofList rest⟩)
    | none => .error (.missingRoot .default target)
  | _ => .ok (u.currentDir.join ⟨target⟩)

end SourceUnit
end AudioShader
