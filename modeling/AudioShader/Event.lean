/-
# Events and actions

What the library reports while it works is part of its answers: an `Event` has
a level, a message and named fields. Work that may fail, changes a state and
reports events is an `Action`; the state and the events survive a failure.

Key definitions: `Event`, `Log`, `Action`, `Action.record`, `Action.within`.
-/

namespace AudioShader

/-- How much an event matters. -/
inductive Level where
  | trace
  | debug
  | info
  | warn
  deriving DecidableEq

namespace Level

def name : Level → String
  | .trace => "TRACE"
  | .debug => "DEBUG"
  | .info => "INFO"
  | .warn => "WARN"

end Level

/-- Something worth reporting, with the values it is about. -/
structure Event where
  level : Level
  message : String
  fields : List (String × String) := []
  deriving DecidableEq

/-- The events reported so far, oldest first. -/
abbrev Log := Array Event

/-- Work that reports events and may fail with an `ε`. -/
abbrev Logged (ε α : Type) := ExceptT ε (StateM Log) α

/-- Work on a state `σ` that reports events and may fail with an `ε`. What the
work did to the state before it failed stays. -/
abbrev Action (σ ε α : Type) := ExceptT ε (StateT σ (StateM Log)) α

namespace Event

def trace (message : String) (fields : List (String × String)) : Event :=
  ⟨.trace, message, fields⟩

def debug (message : String) (fields : List (String × String)) : Event :=
  ⟨.debug, message, fields⟩

def info (message : String) (fields : List (String × String)) : Event :=
  ⟨.info, message, fields⟩

def warn (message : String) (fields : List (String × String)) : Event :=
  ⟨.warn, message, fields⟩

end Event

namespace Logged

variable {ε ε' α : Type}

/-- Reports an event. -/
def record (e : Event) : Logged ε Unit := fun log => (.ok (), log.push e)

/-- The same work with its failure told in other words. -/
def mapError (f : ε → ε') (a : Logged ε α) : Logged ε' α := fun log =>
  match a log with
  | (.ok v, log') => (.ok v, log')
  | (.error e, log') => (.error (f e), log')

end Logged

namespace Action

variable {σ τ ε ε' α : Type}

/-- Reports an event. -/
def record (e : Event) : Action σ ε Unit := fun s log => ((.ok (), s), log.push e)

/-- The same work with its failure told in other words. -/
def mapError (f : ε → ε') (a : Action σ ε α) : Action σ ε' α := fun s log =>
  match a s log with
  | ((.ok v, s'), log') => ((.ok v, s'), log')
  | ((.error e, s'), log') => ((.error (f e), s'), log')

/-- Work that needs no state. -/
def ofLogged (a : Logged ε α) : Action σ ε α := fun s log =>
  match a log with
  | (r, log') => ((r, s), log')

/-- Work on a part of the state: `view` reads the part and `put` writes it back,
also when the work fails. -/
def within (view : σ → τ) (put : τ → σ → σ) (a : Action τ ε α) : Action σ ε α := fun s log =>
  match a (view s) log with
  | ((r, t), log') => ((r, put t s), log')

/-- Work on a state of its own, which is given back with the result. -/
def from? (s : σ) (a : Action σ ε α) : Logged ε (α × σ) := fun log =>
  match a s log with
  | ((.ok v, s'), log') => (.ok (v, s'), log')
  | ((.error e, _), log') => (.error e, log')

/-- The outcome, the state and the events of work that starts from `s` with an
empty log. -/
def start (s : σ) (a : Action σ ε α) : Except ε α × σ × Log :=
  match a s #[] with
  | ((r, s'), log) => (r, s', log)

/-- The work, with its failure as a value. -/
def attempt (a : Action σ ε α) : Action σ ε' (Except ε α) := fun s log =>
  match a s log with
  | ((r, s'), log') => ((.ok r, s'), log')

end Action
end AudioShader
