/-
# Bindings do not interfere

A store holds the states of many bindings, and the calls on it come in any
order. A call reads and changes the states of its own binding alone, also when
it fails midway, and the states of its binding tell all that it gives. So no
binding can tell which calls other bindings made between its own calls, or
whether they made any.

Key definitions: `Confined`, `StoreCall`, `StoreCall.perform`, `replies`, `leftBy`.
Key theorems: `confined_runStep`, `confined_runFrom`, `StoreCall.reply_congr`,
`StoreCall.view_perform_of_ne`, `replies_filter`.
-/
import AudioShader.Proofs.Signal.View

namespace AudioShader

variable {α : Type}

/-! ### States of one binding -/

namespace StateStore

theorem view_release (s : StateStore α) (binding b : BindingId) :
    (s.release binding).view b = if b = binding then fun _ => none else s.view b := by
  funext step
  show Registry.get? (s.states.filter _) ⟨b, step⟩ = _
  rw [Registry.get?_filter]
  by_cases hb : b = binding
  · simp [hb]
  · simp only [ne_eq, hb, not_false_eq_true, decide_true, if_true, if_false]
    rfl

end StateStore

/-- What a binding sees of a part of a chain that has ended: the answer, the
buffer, and its own states. -/
def seenBy (binding : BindingId) (r : Except TransformError Unit × Work α) :
    Except TransformError Unit × List α × (Nat → Option (TransformState α)) :=
  (r.1, r.2.buffer, r.2.store.view binding)

/-- A part of a chain that reads and changes the states of one binding alone. -/
structure Confined (binding : BindingId) (a : Running α Unit) : Prop where
  reads : ∀ {s s' : StateStore α}, s.view binding = s'.view binding → ∀ buffer,
    seenBy binding (a.run ⟨buffer, s⟩) = seenBy binding (a.run ⟨buffer, s'⟩)
  changes : ∀ {b : BindingId}, b ≠ binding → ∀ w, (a.run w).2.store.view b = w.store.view b

namespace Confined

variable {binding : BindingId}

protected theorem pure : Confined binding (pure () : Running α Unit) where
  reads h buffer := congrArg (fun view => (Except.ok (), buffer, view)) h
  changes _ _ := rfl

protected theorem bind {a : Running α Unit} {f : Unit → Running α Unit} (ha : Confined binding a)
    (hf : ∀ u, Confined binding (f u)) : Confined binding (a >>= f) where
  reads {s s'} h buffer := by
    have hsame := ha.reads h buffer
    rw [run_bind, run_bind]
    revert hsame
    rcases a.run ⟨buffer, s⟩ with ⟨e | u, ⟨buffer₁, s₁⟩⟩ <;>
      rcases a.run ⟨buffer, s'⟩ with ⟨e' | u', ⟨buffer₁', s₁'⟩⟩ <;> intro hsame <;>
      simp only [seenBy, Prod.mk.injEq, reduceCtorEq, false_and] at hsame
    · obtain ⟨he, hbuffer, hview⟩ := hsame
      simp only [seenBy, he, hbuffer, hview]
    · obtain ⟨-, rfl, hview⟩ := hsame
      exact (hf u).reads hview buffer₁
  changes {b} hb w := by
    have hfirst : (a.run w).2.store.view b = w.store.view b := ha.changes hb w
    rw [run_bind]
    revert hfirst
    rcases a.run w with ⟨e | u, w₁⟩ <;> intro hfirst
    · exact hfirst
    · exact ((hf u).changes hb w₁).trans hfirst

end Confined

/-! ### Steps -/

variable [Signal α] {params : TransformParams α}

theorem confined_runStep (binding : BindingId) (step : Nat) (kind : Transform) :
    Confined binding (runStep params ⟨binding, step⟩ kind) where
  reads {s s'} h buffer := by
    obtain ⟨r, -, hrun⟩ := @run_runStep _ _ params ⟨binding, step⟩ kind buffer s'
    rw [hrun s (congrFun h step), hrun s' rfl]
    rcases r with e | ⟨left, out⟩
    · simp only [seenBy, StateStore.leave, h]
    · simp only [seenBy, StateStore.leave, view_keep_self, h]
  changes {b} hb w := by
    obtain ⟨r, -, hrun⟩ := @run_runStep _ _ params ⟨binding, step⟩ kind w.buffer w.store
    rw [show w = ⟨w.buffer, w.store⟩ from rfl, hrun w.store rfl]
    rcases r with e | ⟨left, out⟩
    · rfl
    · exact view_keep_ne w.store hb step left

theorem confined_runFrom (binding : BindingId) : ∀ (step : Nat) (kinds : List Transform),
    Confined binding (runFrom params binding step kinds)
  | _, [] => Confined.pure
  | step, kind :: rest =>
    (confined_runStep binding step kind).bind fun _ => confined_runFrom binding (step + 1) rest

/-! ### Calls -/

/-- A call on a store of states. -/
inductive StoreCall (α : Type) where
  | run (chain : Chain) (params : TransformParams α) (binding : BindingId) (buffer : List α)
  /-- The steps from `start` up to and without `stop`. -/
  | runSteps (chain : Chain) (start stop : Nat) (params : TransformParams α) (binding : BindingId)
    (buffer : List α)
  | release (binding : BindingId)

namespace StoreCall

/-- The binding that a call is for. -/
def binding : StoreCall α → BindingId
  | .run _ _ b _ => b
  | .runSteps _ _ _ _ b _ => b
  | .release b => b

/-- The answer of a call that runs steps with the buffer after it, and the store
after the call. -/
def perform : StoreCall α → StateStore α → Option (Except TransformError Unit × List α) × StateStore α
  | .run c params b buffer, s =>
    let r := (c.run params b).run ⟨buffer, s⟩
    (some (r.1, r.2.buffer), r.2.store)
  | .runSteps c start stop params b buffer, s =>
    let r := (c.runSteps start stop params b).run ⟨buffer, s⟩
    (some (r.1, r.2.buffer), r.2.store)
  | .release b, s => (none, s.release b)

end StoreCall

/-- What a call gives to its binding, and the states it leaves the binding. -/
structure Reply (α : Type) where
  binding : BindingId
  result : Option (Except TransformError Unit × List α)
  states : Nat → Option (TransformState α)

def StoreCall.reply (c : StoreCall α) (s : StateStore α) : Reply α :=
  ⟨c.binding, (c.perform s).1, (c.perform s).2.view c.binding⟩

/-- What calls give, each on the store that the calls before it left. -/
def replies : List (StoreCall α) → StateStore α → List (Reply α)
  | [], _ => []
  | c :: calls, s => c.reply s :: replies calls (c.perform s).2

/-- The store after all calls. -/
def leftBy (calls : List (StoreCall α)) (s : StateStore α) : StateStore α :=
  calls.foldl (fun s c => (c.perform s).2) s

namespace StoreCall

/-- What a call gives is told by the states of its binding. -/
theorem reply_congr (c : StoreCall α) {s s' : StateStore α} (h : s.view c.binding = s'.view c.binding) :
    c.reply s = c.reply s' := by
  -- a run shows its binding the same, so each part of the reply is the same
  have hrun {r r' : Except TransformError Unit × Work α} {b : BindingId}
      (hseen : seenBy b r = seenBy b r') : (⟨b, some (r.1, r.2.buffer), r.2.store.view b⟩ : Reply α) =
        ⟨b, some (r'.1, r'.2.buffer), r'.2.store.view b⟩ := by
    simp only [seenBy, Prod.mk.injEq] at hseen
    rw [hseen.1, hseen.2.1, hseen.2.2]
  cases c with
  | run chain params b buffer => exact hrun ((confined_runFrom b 0 _).reads h buffer)
  | runSteps chain start stop params b buffer =>
    exact hrun ((confined_runFrom b start _).reads h buffer)
  | release b =>
    show (⟨b, none, (s.release b).view b⟩ : Reply α) = ⟨b, none, (s'.release b).view b⟩
    rw [s.view_release, s'.view_release, if_pos rfl, if_pos rfl]

/-- A call leaves the states of all other bindings. -/
theorem view_perform_of_ne (c : StoreCall α) {b : BindingId} (hb : b ≠ c.binding) (s : StateStore α) :
    (c.perform s).2.view b = s.view b := by
  cases c with
  | run chain params b' buffer => exact (confined_runFrom b' 0 _).changes hb ⟨buffer, s⟩
  | runSteps chain start stop params b' buffer =>
    exact (confined_runFrom b' start _).changes hb ⟨buffer, s⟩
  | release b' => exact (s.view_release b' b).trans (if_neg hb)

/-- The states a call leaves its binding are told by those it found. -/
theorem view_perform_congr (c : StoreCall α) {s s' : StateStore α}
    (h : s.view c.binding = s'.view c.binding) :
    (c.perform s).2.view c.binding = (c.perform s').2.view c.binding :=
  congrArg Reply.states (c.reply_congr h)

end StoreCall

/-! ### Sequences of calls -/

/-- Two stores that show a binding the same states show it the same through all
calls, whatever calls for other bindings come between on the first one. -/
theorem replies_apart (b : BindingId) : ∀ (calls : List (StoreCall α)) {s s' : StateStore α},
    s.view b = s'.view b →
    (replies calls s).filter (fun r => r.binding = b) =
        replies (calls.filter fun c => c.binding = b) s' ∧
      (leftBy calls s).view b = (leftBy (calls.filter fun c => c.binding = b) s').view b
  | [], s, s', h => ⟨rfl, h⟩
  | c :: calls, s, s', h => by
    by_cases hc : c.binding = b
    · subst hc
      obtain ⟨hreplies, hleft⟩ := replies_apart c.binding calls (c.view_perform_congr h)
      have hpass : (c.reply s).binding = c.binding := rfl
      refine ⟨?_, ?_⟩
      · rw [replies, List.filter_cons_of_pos (by simpa using hpass),
          List.filter_cons_of_pos (by simp), replies, hreplies, c.reply_congr h]
      · rw [List.filter_cons_of_pos (by simp)]
        exact hleft
    · have hview : (c.perform s).2.view b = s'.view b :=
        (c.view_perform_of_ne (Ne.symm hc) s).trans h
      have hskip : (c.reply s).binding ≠ b := hc
      obtain ⟨hreplies, hleft⟩ := replies_apart b calls hview
      refine ⟨?_, ?_⟩
      · rw [replies, List.filter_cons_of_neg (by simpa using hskip),
          List.filter_cons_of_neg (by simpa using hc), hreplies]
      · rw [List.filter_cons_of_neg (by simpa using hc)]
        exact hleft

/-- **Bindings do not interfere.** In any order of calls on a store, a binding
gets what it gets when only its own calls are made: the same answers and
buffers, and the same states after each call and at the end. -/
theorem replies_filter (calls : List (StoreCall α)) (s : StateStore α) (b : BindingId) :
    (replies calls s).filter (fun r => r.binding = b) =
        replies (calls.filter fun c => c.binding = b) s ∧
      (leftBy calls s).view b = (leftBy (calls.filter fun c => c.binding = b) s).view b :=
  replies_apart b calls rfl

end AudioShader
