/-
# Data of configuration files

The values that a configuration is read from: texts, numbers, lists and tables
with named entries in the order in which they were written.

Key definitions: `Datum`, `Made`, `Datum.valueAt?`.
-/

namespace AudioShader

/-- How a table came to be, which decides what may still be added to it. -/
inductive Made where
  /-- It has a header of its own. -/
  | header
  /-- It was named on the way to another table. -/
  | implied
  /-- It was named by a dotted key. -/
  | dotted
  /-- It was written in braces, or is no part of a text. -/
  | braces
  deriving DecidableEq

inductive Datum where
  | null
  | bool (value : Bool)
  | int (value : Int)
  | float (value : Float)
  | text (value : String)
  /-- A date or a time of day. -/
  | date
  /-- A list; `open_` marks a list of tables that headers add to. -/
  | list (open_ : Bool) (items : List Datum)
  | table (made : Made) (entries : List (String × Datum))
  deriving Inhabited

namespace Datum

/-- The value of a key among entries. -/
def valueAt? (entries : List (String × Datum)) (key : String) : Option Datum := entries.lookup key

/-- Entries with the value of a key replaced. -/
def replace (entries : List (String × Datum)) (key : String) (value : Datum) :
    List (String × Datum) :=
  entries.map fun e => if e.1 = key then (key, value) else e

end Datum
end AudioShader
