/-
# Files

The files that a run can read: a tree of named folders, in which paths are
looked up step by step. A step through a name needs that name to exist, a step
out of a file fails, and nothing but folders lies above the top.

Key definitions: `FileTree`, `FileTree.locate`, `FileTree.readText`,
`FileTree.isFolder`, `FileTree.identity`.
-/
import AudioShader.Files.Path

namespace AudioShader

/-- Files with their bytes, and folders, each under its names from the top. -/
structure FileTree where
  files : List (List String × ByteArray) := []
  folders : List (List String) := []

/-- Where a path leads. -/
inductive Place where
  /-- A file or folder, by its names from the top. -/
  | inside (names : List String)
  /-- A folder above the top. -/
  | above
  deriving DecidableEq

/-- Why a path leads to no text. -/
inductive ReadFault where
  | missing
  /-- The way leads through a file. -/
  | throughFile
  | folder
  /-- The bytes are no text. -/
  | notText
  | nulCharacter
  deriving DecidableEq

namespace ReadFault

def message : ReadFault → String
  | .missing => "No such file or directory (os error 2)"
  | .throughFile => "Not a directory (os error 20)"
  | .folder => "Is a directory (os error 21)"
  | .notText => "stream did not contain valid UTF-8"
  | .nulCharacter => "file name contained an unexpected NUL byte"

end ReadFault

namespace FileTree

/-- A file's bytes, by its names from the top. -/
def contents? (t : FileTree) (names : List String) : Option ByteArray :=
  (t.files.find? fun f => f.1 == names).map (·.2)

/-- The top itself is a folder, and every part of the way to a file or folder. -/
def hasFolder (t : FileTree) (names : List String) : Bool :=
  names.isEmpty || (t.folders ++ t.files.map fun f => f.1.dropLast).any fun f => names.isPrefixOf f

def hasEntry (t : FileTree) (names : List String) : Bool :=
  t.hasFolder names || (t.contents? names).isSome

/-- One step of a look-up. -/
def step (t : FileTree) (segment : String) : Place → Except ReadFault Place
  | .above => if Path.isIdle segment || segment = ".." then .ok .above else .error .missing
  | .inside names =>
    if !t.hasFolder names then .error .throughFile
    else if Path.isIdle segment then .ok (.inside names)
    else if segment = ".." then
      .ok (if names.isEmpty then .above else .inside names.dropLast)
    else if t.hasEntry (names ++ [segment]) then .ok (.inside (names ++ [segment]))
    else .error .missing

/-- Where a path leads, if it leads anywhere. -/
def locate (t : FileTree) (p : Path) : Except ReadFault Place :=
  if p.text.toList.contains '\x00' then .error .nulCharacter
  else if p.text.isEmpty then .error .missing
  else p.segments.foldlM (fun place segment => t.step segment place)
    (if p.isAbsolute then .above else .inside [])

/-- The text of a file, if the path leads to one and its bytes are text. -/
def readText (t : FileTree) (p : Path) : Except ReadFault String := do
  match ← t.locate p with
  | .above => throw .folder
  | .inside names =>
    match t.contents? names with
    | none => throw .folder
    | some bytes =>
      match String.fromUTF8? bytes with
      | some text => return text
      | none => throw .notText

def isFile (t : FileTree) (p : Path) : Bool :=
  match t.locate p with
  | .ok (.inside names) => (t.contents? names).isSome
  | _ => false

def isFolder (t : FileTree) (p : Path) : Bool :=
  match t.locate p with
  | .ok (.inside names) => t.hasFolder names
  | .ok .above => true
  | .error _ => false

/-- The tree with one more file. -/
def insertFile (t : FileTree) (p : Path) (bytes : ByteArray) : FileTree :=
  { t with files := (p.segments.filter fun s => !Path.isIdle s, bytes) :: t.files }

/-- The tree with one more folder. -/
def insertFolder (t : FileTree) (p : Path) : FileTree :=
  { t with folders := (p.segments.filter fun s => !Path.isIdle s) :: t.folders }

end FileTree

/-- What makes two paths the same file: the place they lead to, or their
components if they lead nowhere. -/
inductive FileIdentity where
  | found (place : Place)
  | missing (components : List Component)
  deriving DecidableEq

namespace FileTree

def identity (t : FileTree) (p : Path) : FileIdentity :=
  match t.locate p with
  | .ok place => .found place
  | .error _ => .missing p.components

end FileTree
end AudioShader
