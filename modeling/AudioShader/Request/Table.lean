/-
# Requests and their handlers

A request has a name, a signature and a handler, which works on a context that
later lines of the same run see. A handler may refuse its arguments with a
reason. A table holds at most one request of a name and lists them in the order
of their names.

Key definitions: `Request`, `RequestTable`, `RequestTable.insert`,
`RequestTable.get?`, `RequestTable.register`.
-/
import AudioShader.Event
import AudioShader.Request.Argument

namespace AudioShader

/-- What a handler does with its arguments and a context: it succeeds, or
refuses them with a reason. -/
abbrev Handler (C : Type) := List Arg → ExceptT String (StateM C) Unit

/-- A request that lines may make. -/
structure Request (C : Type) where
  name : String
  signature : String
  handler : Handler C

namespace Request

variable {C : Type}

/-- The declared types, one for each letter; none for a letter that is no type. -/
def argTypes (r : Request C) : List (Option ArgType) := r.signature.toList.map ArgType.ofCode?

/-- The request as logs show it. -/
def render (r : Request C) : String :=
  s!"Request \x7b name: {Text.quoted r.name}, signature: {Text.quoted r.signature} \x7d"

end Request

/-- Requests by name, in the order of the names. -/
structure RequestTable (C : Type) where
  entries : List (Request C) := []

namespace RequestTable

variable {C : Type}

/-- The request of a name. -/
def get? (t : RequestTable C) (name : String) : Option (Request C) :=
  t.entries.find? fun r => r.name == name

def names (t : RequestTable C) : List String := t.entries.map (·.name)

def size (t : RequestTable C) : Nat := t.entries.length

def isEmpty (t : RequestTable C) : Bool := t.entries.isEmpty

/-- Puts a request among requests in name order, in place of one of its name. -/
def insertSorted (r : Request C) : List (Request C) → List (Request C)
  | [] => [r]
  | e :: es =>
    if r.name < e.name then r :: e :: es
    else if r.name = e.name then r :: es
    else e :: insertSorted r es

/-- Adds a request, in place of an earlier one of its name. -/
def insert (t : RequestTable C) (r : Request C) : RequestTable C := ⟨insertSorted r t.entries⟩

/-- Adds a request, and reports if it takes the place of another. -/
def register {ε : Type} (t : RequestTable C) (r : Request C) : Logged ε (RequestTable C) := do
  if (t.get? r.name).isSome then
    Logged.record (.debug "replaced request handler" [("name", r.name)])
  return t.insert r

/-- The table of a list of requests; of two with one name the later one counts. -/
def ofList (rs : List (Request C)) : RequestTable C := rs.foldl insert {}

/-- Registers requests one after the other. -/
def registerAll {ε : Type} (t : RequestTable C) (rs : List (Request C)) :
    Logged ε (RequestTable C) :=
  rs.foldlM register t

end RequestTable
end AudioShader
