/-
# Diagnostics

A compiler's log names lines as the `#line` lines number them. Each line of the
log becomes a diagnostic, traced back to the file it is about if its location
can be read: a file and a line, as `0:12` or `0(12)`, and what is said about it.

Key definitions: `Diagnostic`, `locate?`, `Diagnostic.ofLine`, `diagnose`.
-/
import AudioShader.Number.Reading
import AudioShader.Source.Map
import AudioShader.Text.Search

namespace AudioShader

/-- What a compiler says, and about which line if it tells. -/
structure Diagnostic where
  place : Option LineRef
  message : String
  deriving DecidableEq

namespace Diagnostic

def render (d : Diagnostic) : String :=
  match d.place with
  | some r => s!"{r.file.text}:{r.line}: {d.message}"
  | none => d.message

end Diagnostic

/-- The digits of a file and of a line at the front of a text, and what follows. -/
def locationAt? (cs : List Char) : Option (List Char × List Char × List Char) :=
  let file := cs.takeWhile Char.isDigit
  match cs.dropWhile Char.isDigit with
  | separator :: more =>
    let line := more.takeWhile Char.isDigit
    if line.isEmpty then none
    else
      match separator, more.dropWhile Char.isDigit with
      | ':', rest => some (file, line, rest)
      | '(', ')' :: rest => some (file, line, rest)
      | _, _ => none
  | [] => none

/-- The first location in a text, as digits; `open_` says that no letter or
digit stands right before the text. -/
def findLocation? : (open_ : Bool) → List Char → Option (List Char × List Char × List Char)
  | _, [] => none
  | open_, c :: cs =>
    if open_ && c.isDigit then
      match locationAt? (c :: cs) with
      | some found => some found
      | none => findLocation? false cs
    else findLocation? (!c.isAlphanum) cs

/-- The text without a column in parentheses at its front. -/
def dropColumn (cs : List Char) : List Char :=
  match cs with
  | '(' :: inner =>
    match Text.cutAt? [')'] inner with
    | some (column, rest) => if column.all Char.isDigit then rest else cs
    | none => cs
  | _ => cs

/-- What is said behind a location. -/
def trimMessage (cs : List Char) : List Char :=
  (dropColumn (Text.trimStart cs)).dropWhile fun c => c == ':' || c == ' '

/-- The file and the line that a log line is about, and what it says. Numbers
that fit no word give no location. -/
def locate? (cs : List Char) : Option (Nat × Nat × List Char) := do
  let (file, line, rest) ← findLocation? true cs
  return (← readWord64? file, ← readWord64? line, trimMessage rest)

/-- The diagnostic of a log line. -/
def Diagnostic.ofLine (map : SourceMap) (cs : List Char) : Diagnostic :=
  let traced := do
    let (file, line, message) ← locate? cs
    let place ← map.resolveReported file line
    return (⟨some place, String.ofList message⟩ : Diagnostic)
  traced.getD ⟨none, String.ofList (Text.trim cs)⟩

/-- The diagnostics of a log, one for each line that is not blank. -/
def diagnose (log : String) (map : SourceMap) : List Diagnostic :=
  ((Text.lines log).filter fun cs => !cs.all Text.isBlank).map (Diagnostic.ofLine map)

end AudioShader
