/-
# Results of one tick

Within a tick the same chain on the same source is run once; what it gave is
kept until the tick is over.

Key definitions: `ChainMemo`, `ChainMemo.getOrRun`.
-/
import AudioShader.Signal.Chain

namespace AudioShader

variable {κ α : Type}

/-- Results by source and chain. -/
structure ChainMemo (κ α : Type) where
  results : Registry (κ × Chain) (List α) := .empty

namespace ChainMemo

variable [DecidableEq κ]

def size (m : ChainMemo κ α) : Nat := m.results.size

def get? (m : ChainMemo κ α) (source : κ) (chain : Chain) : Option (List α) :=
  m.results.get? (source, chain)

def put (m : ChainMemo κ α) (source : κ) (chain : Chain) (result : List α) : ChainMemo κ α :=
  ⟨m.results.put (source, chain) result⟩

/-- The result that is kept, or else the one of running `run`, which is then
kept; a failed run leaves nothing. -/
def getOrRun (m : ChainMemo κ α) (source : κ) (chain : Chain)
    (run : Unit → Except TransformError (List α)) :
    Except TransformError (List α) × ChainMemo κ α :=
  match m.get? source chain with
  | some result => (.ok result, m)
  | none =>
    match run () with
    | .ok result => (.ok result, m.put source chain result)
    | .error e => (.error e, m)

end ChainMemo
end AudioShader
