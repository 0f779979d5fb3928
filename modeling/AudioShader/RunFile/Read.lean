/-
# Reading run files

A run file is read from a document, or from data handed over by another
program. Fields are read in the order in which they were written; keys that no
field has are passed over. A record may also be given as the list of its
fields, and a choice as a table with the chosen name as its only key.

Key definitions: `ConfigError`, `DataForm`, `RunConfig.ofDatum`,
`RunConfig.read`.
-/
import AudioShader.RunFile.Basic
import AudioShader.Toml.Document

namespace AudioShader

/-- Why there is no run file. -/
inductive ConfigError where
  /-- It does not have the form of one. -/
  | malformed
  /-- It gives a longer time than a duration can have, and reading breaks off. -/
  | overlong
  | invalid (fault : ConfigFault)
  deriving DecidableEq

namespace ConfigError

def ofDurationFault : DurationFault → ConfigError
  | .malformed => .malformed
  | .overlong => .overlong

/-- The name of the cause. -/
def label : ConfigError → String
  | .malformed => "Parse"
  | .overlong => "panic"
  | .invalid _ => "Invalid"

/-- The words for it; only a run file that says something wrong has them. -/
def message? : ConfigError → Option String
  | .invalid fault => some s!"invalid configuration: {fault.message}"
  | _ => none

end ConfigError

/-- Where data come from. -/
inductive DataForm where
  /-- The text of a document. -/
  | document
  /-- Data that another program hands over. -/
  | handed
  deriving DecidableEq

namespace DataForm

/-- What stands under the name of a choice that carries nothing. -/
def isBare : DataForm → Datum → Bool
  | .document, .table _ entries => entries.isEmpty
  | .document, .list _ items => items.isEmpty
  | .handed, .null => true
  | _, _ => false

/-- Whether a list of more items than a record has fields may stand for it. -/
def allowsSurplus : DataForm → Bool
  | .document => true
  | .handed => false

end DataForm

namespace Datum

variable {α : Type}

/-- The value, or the failure of a form. -/
def formed : Option α → Except ConfigError α
  | some a => .ok a
  | none => .error .malformed

def readText : Datum → Except ConfigError String
  | .text s => .ok s
  | _ => .error .malformed

/-- A number of at most 32 bits. -/
def readWord : Datum → Except ConfigError Nat
  | .int n => if 0 ≤ n ∧ n < UInt32.size then .ok n.toNat else .error .malformed
  | _ => .error .malformed

/-- A value that null leaves out. -/
def readOptional (read : Datum → Except ConfigError α) : Datum → Except ConfigError (Option α)
  | .null => .ok none
  | d => (read d).map some

def readList (read : Datum → Except ConfigError α) : Datum → Except ConfigError (List α)
  | .list _ items => items.mapM read
  | _ => .error .malformed

/-- One of several names. -/
def readChoice (form : DataForm) (ofName? : String → Option α) : Datum → Except ConfigError α
  | .text name => formed (ofName? name)
  | .table _ [(name, payload)] =>
    if form.isBare payload then formed (ofName? name) else .error .malformed
  | _ => .error .malformed

/-- A length of time: a number of seconds, or a text with units. -/
def readDuration : Datum → Except ConfigError Duration
  | .int n => if 0 ≤ n then .ok (⟨n.toNat, 0⟩) else .error .malformed
  | .float x =>
    if x.isNaN || UInt64.size / 2 ≤ x.toBits.toNat then .error .malformed
    else
      match Duration.ofSeconds? x with
      | some d => .ok d
      | none => .error .overlong
  | .text s => (Duration.read s).mapError ConfigError.ofDurationFault
  | _ => .error .malformed

/-- Reads a record with the given fields, of which `required` must be there. A
list gives the fields in their order. -/
def readRecord (form : DataForm) (fields required : List String)
    (readField : α → String × Datum → Except ConfigError α) (start : α) :
    Datum → Except ConfigError α
  | .table _ entries => do
    let record ← entries.foldlM readField start
    if required.all fun name => (valueAt? entries name).isSome then return record
    else throw .malformed
  | .list _ items => do
    let entries := fields.zip items
    let record ← entries.foldlM readField start
    if !(required.all fun name => (valueAt? entries name).isSome) then throw .malformed
    if !form.allowsSurplus && fields.length < items.length then throw .malformed
    return record
  | _ => .error .malformed

end Datum

namespace BindDecl

/-- Reads one field of a declaration. -/
def readField (form : DataForm) (b : BindDecl) : String × Datum → Except ConfigError BindDecl
  | ("name", d) => do return { b with name := ← d.readText }
  | ("type", d) => do return { b with type := ← d.readChoice form BindType.ofName? }
  | ("value", d) => do return { b with value := ← d.readOptional Datum.readText }
  | _ => .ok b

def ofDatum (form : DataForm) (d : Datum) : Except ConfigError BindDecl :=
  d.readRecord form ["name", "type", "value"] ["name", "type"] (readField form) ⟨"", .float, none⟩

end BindDecl

namespace RunConfig

/-- The fields in their order. -/
def fieldNames : List String :=
  ["version", "entry", "config_dir", "default_dir", "backend", "requests", "binds", "duration"]

/-- Reads one field of a run file. -/
def readField (form : DataForm) (c : RunConfig) : String × Datum → Except ConfigError RunConfig
  | ("version", d) => do return { c with version := ← d.readWord }
  | ("entry", d) => do return { c with entry := ← d.readText }
  | ("config_dir", d) => do return { c with configDir := ← d.readOptional Datum.readText }
  | ("default_dir", d) => do return { c with defaultDir := ← d.readOptional Datum.readText }
  | ("backend", d) => do return { c with backend := ← d.readChoice form BackendKind.ofName? }
  | ("requests", d) => do return { c with requests := ← d.readList Datum.readText }
  | ("binds", d) => do return { c with binds := ← d.readList (BindDecl.ofDatum form) }
  | ("duration", d) => do return { c with duration := some (← d.readDuration) }
  | _ => .ok c

/-- The run file that data stand for, which is not checked. -/
def ofDatum (form : DataForm) (d : Datum) : Except ConfigError RunConfig :=
  d.readRecord form fieldNames ["version"] (readField form) {}

/-- The run file, if it passes its check. -/
def checked (c : RunConfig) : Except ConfigError RunConfig :=
  match c.check with
  | .ok () => .ok c
  | .error fault => .error (.invalid fault)

/-- Reads a document and checks the run file it stands for. -/
def read (text : String) : Except ConfigError RunConfig := do
  let c ← ofDatum .document (← Datum.formed (Toml.read? text))
  c.checked

end RunConfig
end AudioShader
