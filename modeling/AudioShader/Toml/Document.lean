/-
# Documents of TOML

Values, and documents: lines that give a key its value, headers that open a
table or add one to a list of tables, and comments. A key is given a value
once, and a table is not opened twice.

Key definitions: `Toml.readValue?`, `Toml.insertKey?`, `Toml.openTable?`,
`Toml.appendTable?`, `Toml.read?`.
-/
import AudioShader.Toml.Scalar

namespace AudioShader
namespace Toml

/-- A table under construction. -/
abbrev Table := Made × List (String × Datum)

/-! ### Building tables -/

/-- The last of a list of tables, and those before it. -/
def lastTable? (items : List Datum) : Option (List Datum × Table) :=
  match items.reverse with
  | .table made entries :: before => some (before.reverse, (made, entries))
  | _ => none

/-- Changes the table at the end of a path. Missing tables on the way are made;
those that a dotted key goes through must not have been opened otherwise. -/
def descend? (byDots : Bool) (change : Table → Option Table) : List String → Table → Option Table
  | [], t => change t
  | key :: path, (made, entries) =>
    match Datum.valueAt? entries key with
    | none => do
      let (m, es) ← descend? byDots change path (if byDots then .dotted else .implied, [])
      return (made, entries ++ [(key, .table m es)])
    | some (.table m es) =>
      if m = .braces || (byDots && m = .header) then none
      else do
        let (m', es') ← descend? byDots change path (m, es)
        return (made, Datum.replace entries key (.table m' es'))
    | some (.list true items) => do
      let (before, last) ← lastTable? items
      let (m, es) ← descend? byDots change path last
      return (made, Datum.replace entries key (.list true (before ++ [.table m es])))
    | some _ => none

/-- Gives a key a value. -/
def insertKey? (key : List String) (value : Datum) (t : Table) : Option Table :=
  let path := key.dropLast
  descend? true (fun (made, entries) =>
    let name := key.getLast?.getD ""
    if (made = .dotted) = path.isEmpty then none
    else if (Datum.valueAt? entries name).isSome then none
    else some (made, entries ++ [(name, value)])) path t

/-- Opens the table of a header. -/
def openTable? (key : List String) (t : Table) : Option Table :=
  descend? false (fun (made, entries) =>
    let name := key.getLast?.getD ""
    match Datum.valueAt? entries name with
    | none => some (made, entries ++ [(name, .table .header [])])
    | some (.table .implied es) => some (made, Datum.replace entries name (.table .header es))
    | some _ => none) key.dropLast t

/-- Adds a table to the list of tables of a header. -/
def appendTable? (key : List String) (t : Table) : Option Table :=
  descend? false (fun (made, entries) =>
    let name := key.getLast?.getD ""
    match Datum.valueAt? entries name with
    | none => some (made, entries ++ [(name, .list true [.table .header []])])
    | some (.list true items) =>
      some (made, Datum.replace entries name (.list true (items ++ [.table .header []])))
    | some _ => none) key.dropLast t

/-! ### Values -/

/-- What follows a comment, up to the end of its line. -/
def skipComment? : List Char → Option (List Char)
  | '#' :: cs =>
    let text := cs.takeWhile fun c => !isBarred c
    some (cs.drop text.length)
  | cs => some cs

/-- What follows blanks, line ends and comments. -/
def skipLines : (limit : Nat) → List Char → List Char
  | 0, cs => cs
  | limit + 1, cs =>
    match skipGaps cs with
    | '#' :: more => skipLines limit (((skipComment? ('#' :: more)).getD []))
    | rest =>
      match newline? rest with
      | some more => skipLines limit more
      | none => rest

mutual

/-- Reads a value. -/
def readValue? : (limit : Nat) → List Char → Result Datum
  | 0, _ => none
  | limit + 1, cs =>
    match readText? cs with
    | some r => r.map fun p => (.text (String.ofList p.1), p.2)
    | none =>
      match cs with
      | '[' :: rest => readItems? limit [] (skipLines rest.length rest)
      | '\x7b' :: rest =>
        match skipGaps rest with
        | '\x7d' :: more => some (.table .braces [], more)
        | more => readPairs? limit (.braces, []) more
      | _ => readWord? cs

/-- Reads the items of a list, behind those in `items`. -/
def readItems? : (limit : Nat) → (items : List Datum) → List Char → Result Datum
  | 0, _, _ => none
  | limit + 1, items, cs =>
    match cs with
    | ']' :: rest => some (.list false items, rest)
    | _ =>
      match readValue? limit cs with
      | none => none
      | some (item, rest) =>
        match skipLines rest.length rest with
        | ',' :: more => readItems? limit (items ++ [item]) (skipLines more.length more)
        | ']' :: more => some (.list false (items ++ [item]), more)
        | _ => none

/-- Reads the entries of a table in braces, behind those in `t`. -/
def readPairs? : (limit : Nat) → (t : Table) → List Char → Result Datum
  | 0, _, _ => none
  | limit + 1, t, cs =>
    match readKey? (cs.length + 1) cs with
    | some (key, '=' :: rest) =>
      match readValue? limit (skipGaps rest) with
      | none => none
      | some (value, rest) =>
        match insertKey? key value t, skipGaps rest with
        | some t', ',' :: more => readPairs? limit t' more
        | some t', '\x7d' :: more => some (.table .braces t'.2, more)
        | _, _ => none
    | _ => none

end

/-! ### Documents -/

/-- The root table of a document and the table that lines now add to. -/
structure Draft where
  root : Table := (.header, [])
  current : List String := []

/-- What follows the end of a line, which may have a comment. -/
def endLine? (cs : List Char) : Option (List Char) := do
  let rest ← skipComment? (skipGaps cs)
  if rest.isEmpty then some [] else newline? rest

/-- Reads one line: the draft after it, and the rest of the document. -/
def readLine? (draft : Draft) (cs : List Char) : Option (Draft × List Char) :=
  match cs with
  | '[' :: '[' :: rest => do
    let (key, rest) ← readKey? (rest.length + 1) rest
    let more ← Text.after? [']', ']'] rest
    let root ← appendTable? key draft.root
    return (⟨root, key⟩, ← endLine? more)
  | '[' :: rest => do
    let (key, rest) ← readKey? (rest.length + 1) rest
    let more ← Text.after? [']'] rest
    let root ← openTable? key draft.root
    return (⟨root, key⟩, ← endLine? more)
  | _ => do
    let (key, rest) ← readKey? (cs.length + 1) cs
    let more ← Text.after? ['='] rest
    let (value, more) ← readValue? (2 * more.length + 2) (skipGaps more)
    let root ← descend? false (insertKey? key value) draft.current draft.root
    return ({ draft with root }, ← endLine? more)

/-- Reads lines, at most `limit` of them. -/
def readLines? : (limit : Nat) → Draft → List Char → Option Table
  | 0, _, _ => none
  | limit + 1, draft, cs =>
    match skipLines cs.length cs with
    | [] => some draft.root
    | rest => (readLine? draft rest).bind fun p => readLines? limit p.1 p.2

/-- Reads a document. -/
def read? (s : String) : Option Datum :=
  let cs := match s.toList with
    | '\ufeff' :: cs => cs
    | cs => cs
  (readLines? (cs.length + 1) {} cs).map fun t => .table .header t.2

end Toml
end AudioShader
