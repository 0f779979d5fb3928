/-
# Paths

A path is a text of names separated by slashes. Paths are joined and cut as
texts, without being simplified, and compared by their components: repeated
slashes, a slash at the end and single dots inside do not count.

Key definitions: `Path`, `Path.join`, `Path.parent?`, `Path.components`.
-/
import AudioShader.Text.Search

namespace AudioShader

/-- A path as it was written. -/
structure Path where
  text : String
  deriving DecidableEq, Inhabited

/-- A part of a path. -/
inductive Component where
  | root
  | here
  | parent
  | name (s : String)
  deriving DecidableEq

namespace Path

/-- The texts between the slashes. -/
def segments (p : Path) : List String := (Text.splitAt '/' p.text.toList).map String.ofList

/-- A segment that names nothing: an empty one or a single dot. -/
def isIdle (segment : String) : Bool := segment == "" || segment == "."

def isAbsolute (p : Path) : Bool := p.text.toList.head? == some '/'

/-- The component of a segment that names something. -/
def component (segment : String) : Component := if segment = ".." then .parent else .name segment

/-- The parts of a path: the root of an absolute one, a dot that a relative one
starts with, then parents and names. -/
def components (p : Path) : List Component :=
  match p.segments with
  | [] => []
  | first :: rest =>
    let body := (rest.filter fun s => !isIdle s).map component
    if p.isAbsolute then .root :: body
    else if first = "" then body
    else if first = "." then .here :: body
    else component first :: body

/-- The path followed by another one. An absolute one takes its place. -/
def join (p q : Path) : Path :=
  if q.isAbsolute then q
  else if p.text.isEmpty || p.text.toList.getLast? == some '/' then ⟨p.text ++ q.text⟩
  else ⟨p.text ++ "/" ++ q.text⟩

/-- The path of `segments`. -/
def ofSegments (segments : List String) : Path := ⟨String.intercalate "/" segments⟩

/-- The segments up to the last one that names something, and that one dropped. -/
def dropLast (rest : List String) : Option (List String) :=
  match rest.reverse.dropWhile isIdle with
  | [] => none
  | _ :: before => some (before.dropWhile isIdle).reverse

/-- The path without its last part; the root has no parent, nor has the empty path. -/
def parent? (p : Path) : Option Path :=
  match p.segments with
  | [] => none
  | first :: rest =>
    match dropLast rest with
    | some before =>
      if p.isAbsolute && before.isEmpty then some ⟨"/"⟩ else some (ofSegments (first :: before))
    | none => if p.text.isEmpty || p.isAbsolute then none else some ⟨""⟩

/-- The folder a path lies in, a dot for a path of one name. -/
def folder (p : Path) : Path :=
  match p.parent? with
  | some q => if q.text.isEmpty then ⟨"."⟩ else q
  | none => ⟨"."⟩

/-- Two paths with the same components. -/
def same (p q : Path) : Bool := p.components == q.components

end Path
end AudioShader
