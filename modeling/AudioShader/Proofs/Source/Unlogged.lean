/-
# Processing does not read the log

Events are reported and never read again. So what processing a unit comes to is
told by the unit and its files alone, and the same whenever it is processed.

Key definitions: `Action.Unlogged`.
Key theorems: `Action.Unlogged.bind`, `unlogged_process`, `StageSetup.unlogged_process`.
-/
import AudioShader.Proofs.Action
import AudioShader.Stage.Header

namespace AudioShader
namespace Action

variable {σ ε α β : Type}

/-- How the work ends, and what it leaves, does not depend on what was reported
before it. -/
def Unlogged (a : Action σ ε α) : Prop := ∀ s log log', (a s log).1 = (a s log').1

namespace Unlogged

theorem pure (x : α) : Unlogged (pure x : Action σ ε α) := fun _ _ _ => rfl

theorem throw (e : ε) : Unlogged (throw e : Action σ ε α) := fun _ _ _ => rfl

theorem get : Unlogged (get : Action σ ε σ) := fun _ _ _ => rfl

theorem set (s : σ) : Unlogged (set s : Action σ ε PUnit) := fun _ _ _ => rfl

theorem modify (f : σ → σ) : Unlogged (modify f : Action σ ε PUnit) := fun _ _ _ => rfl

theorem record (e : Event) : Unlogged (record e : Action σ ε Unit) := fun _ _ _ => rfl

theorem bind {a : Action σ ε α} {f : α → Action σ ε β} (ha : Unlogged a)
    (hf : ∀ x, Unlogged (f x)) : Unlogged (a >>= f) := by
  intro s log log'
  have h := ha s log log'
  rw [bind_apply, bind_apply]
  generalize a s log = one at h
  generalize a s log' = other at h
  obtain ⟨end₁, log₁⟩ := one
  obtain ⟨end₂, log₂⟩ := other
  have h : end₁ = end₂ := h
  subst h
  obtain ⟨e | x, s₁⟩ := end₁
  · rfl
  · exact hf x s₁ log₁ log₂

end Unlogged
end Action

open AudioShader.Action (Unlogged)

section Process

variable {C : Type}

namespace Run

theorem unlogged_orRefuse {α : Type} (place : LineRef) (r : Except LineFault α) :
    Unlogged (orRefuse place r : Action (Run C) SourceError α) := by
  cases r with
  | error fault => exact .throw _
  | ok a => exact .pure a

theorem unlogged_emit (p : Piece) : Unlogged (emit p : Action (Run C) SourceError Unit) := .modify _

theorem unlogged_openFile (path : Path) :
    Unlogged (openFile path : Action (Run C) SourceError Nat) :=
  Unlogged.get.bind fun _ => (Unlogged.set _).bind fun _ => .pure _

end Run

theorem unlogged_dispatch (requests : RequestTable C) (place : LineRef) (name : String)
    (tokens : List Token) : Unlogged (dispatch requests place name tokens) := by
  unfold dispatch
  cases requests.get? name with
  | none => exact .throw _
  | some request =>
    dsimp only
    cases coerceArgs request.signature tokens with
    | error fault => exact .throw _
    | ok args =>
      refine (Unlogged.record _).bind fun _ => Unlogged.get.bind fun r => ?_
      refine (Unlogged.set _).bind fun _ => ?_
      cases (request.handler args r.context).1 with
      | ok v => exact .pure _
      | error reason => exact .throw _

variable [Substitutions C] {setup : Setup C}

section Nested

variable {nested : LineRef → String → Action (Run C) SourceError Unit}
  (hn : ∀ place target, Unlogged (nested place target))
include hn

theorem unlogged_processLine (file : Nat) (place : LineRef) (k : Carry) (line : List Char) :
    Unlogged (processLine setup nested file place k line) := by
  unfold processLine
  refine (Run.unlogged_orRefuse place _).bind fun d => ?_
  have hline (rest : Action (Run C) SourceError Carry) (hrest : Unlogged rest) (restart : Bool) :
      Unlogged (if restart then Run.emit (.marker file place.line) >>= fun _ => rest else rest) := by
    cases restart with
    | false => exact hrest
    | true => exact (Run.unlogged_emit _).bind fun _ => hrest
  refine hline _ ?_ _
  cases d with
  | none =>
    dsimp only
    split
    · exact (Run.unlogged_emit _).bind fun _ => .pure _
    · refine Unlogged.get.bind fun r => (Run.unlogged_orRefuse place _).bind fun p => ?_
      exact (Run.unlogged_emit _).bind fun _ => .pure _
  | some d =>
    cases d with
    | includeFile target => exact (hn place target).bind fun _ => .pure _
    | request name args => exact (unlogged_dispatch _ place name args).bind fun _ => .pure _
    | define name =>
      refine (Run.unlogged_emit _).bind fun _ => (Run.unlogged_emit _).bind fun _ => ?_
      refine Unlogged.get.bind fun r => (Run.unlogged_orRefuse place _).bind fun p => ?_
      exact (Run.unlogged_emit _).bind fun _ => .pure _
    | expand name control =>
      refine Unlogged.get.bind fun r => ?_
      split
      · exact .throw _
      · exact (Run.unlogged_emit _).bind fun _ => .pure _

theorem unlogged_processLines (origin : Path) (file : Nat) :
    ∀ (lines : List (List Char)) (number : Nat) (k : Carry),
    Unlogged (processLines setup nested origin file number k lines)
  | [], _, _ => .pure _
  | line :: rest, number, k => (unlogged_processLine hn file ⟨origin, number⟩ k line).bind fun k' =>
      unlogged_processLines origin file rest (number + 1) k'

theorem unlogged_processText (unit : SourceUnit) : Unlogged (processText setup nested unit) :=
  (Run.unlogged_openFile _).bind fun _ => (Run.unlogged_emit _).bind fun _ =>
    unlogged_processLines hn _ _ _ _ _

end Nested

omit [Substitutions C] in
theorem unlogged_openInclude (stack : List FileIdentity) (unit : SourceUnit) (place : LineRef)
    (path : Path) : Unlogged (openInclude setup stack unit place path) := by
  unfold openInclude
  cases setup.files.readText path with
  | error fault =>
    dsimp only
    split
    · exact (Unlogged.throw _).bind fun _ => .throw _
    · exact .throw _
  | ok text =>
    dsimp only
    split
    · exact (Unlogged.throw _).bind fun _ => (Unlogged.record _).bind fun _ => .pure _
    · exact (Unlogged.record _).bind fun _ => .pure _

theorem unlogged_processUnit : ∀ (room : Nat) (stack : List FileIdentity) (unit : SourceUnit),
    Unlogged (processUnit setup room stack unit)
  | 0, _, unit => unlogged_processText (fun place _ =>
      (Run.unlogged_orRefuse place _).bind fun _ => .throw _) unit
  | room + 1, stack, unit => unlogged_processText (fun place _ =>
      (Run.unlogged_orRefuse place _).bind fun path =>
        (unlogged_openInclude stack unit place path).bind fun opened =>
          unlogged_processUnit room (stack ++ [opened.2]) opened.1) unit

/-- What processing a unit comes to does not depend on the log. -/
theorem unlogged_process (setup : Setup C) (unit : SourceUnit) : Unlogged (process setup unit) :=
  (unlogged_processUnit _ _ _).bind fun _ => Unlogged.get.bind fun _ =>
    (Unlogged.record _).bind fun _ => .pure _

theorem unlogged_processWith (setup : Setup C) (unit : SourceUnit) :
    Unlogged (processWith setup unit) := by
  intro c log log'
  have h := unlogged_process setup unit { context := c } log log'
  unfold processWith
  generalize process setup unit { context := c } log = one at h ⊢
  generalize process setup unit { context := c } log' = other at h ⊢
  obtain ⟨end₁, log₁⟩ := one
  obtain ⟨end₂, log₂⟩ := other
  have h : end₁ = end₂ := h
  subst h
  rfl

end Process

theorem StageSetup.unlogged_process (s : StageSetup) (unit : SourceUnit) :
    Unlogged (s.process unit) := (unlogged_processWith _ unit).bind fun _ => .pure _

end AudioShader
