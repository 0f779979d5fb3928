/-
# Work that succeeds or fails

What a piece of work did is read off its parts: work in sequence succeeds only
if each part does, and each part goes on from the state that the one before it
left. Events do not matter here.

Key definitions: `Action.Gives`, `Action.Fails`, `Action.Keeps`, `Action.result?`.
Key theorems: `Action.bind_apply`, `Action.Gives.bind`, `Action.Keeps.bind`.
-/
import AudioShader.Event

namespace AudioShader

/-- What succeeds in two steps succeeds in each. -/
theorem ok_of_bind {ε α β : Type} {a : Except ε α} {f : α → Except ε β} {y : β}
    (h : (a >>= f) = .ok y) : ∃ x, a = .ok x ∧ f x = .ok y := by
  cases a with
  | error e => cases h
  | ok x => exact ⟨x, rfl, h⟩

/-- What succeeds with its result told in other words succeeds. -/
theorem ok_of_map {ε α β : Type} {a : Except ε α} {f : α → β} {y : β} (h : a.map f = .ok y) :
    ∃ x, a = .ok x ∧ f x = y := by
  cases a with
  | error e => cases h
  | ok x =>
    cases h
    exact ⟨x, rfl, rfl⟩

/-- What fails in two steps fails in the first one, or behind it in the second. -/
theorem bind_eq_error_iff {ε α β : Type} {a : Except ε α} {f : α → Except ε β} {error : ε} :
    (a >>= f) = .error error ↔ a = .error error ∨ ∃ x, a = .ok x ∧ f x = .error error := by
  cases a with
  | error e =>
    show Except.error e = .error error ↔ _
    simp
  | ok x =>
    show f x = .error error ↔ _
    simp

namespace Action

variable {σ τ ε ε' α β : Type}

/-- The work, begun in `s`, succeeds with `x` and leaves `s'`. -/
def Gives (a : Action σ ε α) (s : σ) (x : α) (s' : σ) : Prop :=
  ∃ log log', a s log = ((.ok x, s'), log')

/-- The work, begun in `s`, fails with `e` and leaves `s'`. -/
def Fails (a : Action σ ε α) (s : σ) (e : ε) (s' : σ) : Prop :=
  ∃ log log', a s log = ((.error e, s'), log')

/-- What the work, begun in `s`, gives and leaves, if it succeeds. -/
def result? (a : Action σ ε α) (s : σ) : Option (α × σ) :=
  match a s #[] with
  | ((.ok x, s'), _) => some (x, s')
  | _ => none

theorem gives_of_result? {a : Action σ ε α} {s s' : σ} {x : α} (h : result? a s = some (x, s')) :
    Gives a s x s' := by
  unfold result? at h
  rcases ha : a s #[] with ⟨⟨e | y, s₁⟩, log⟩
  · rw [ha] at h
    cases h
  · rw [ha] at h
    cases h
    exact ⟨#[], log, ha⟩

theorem bind_apply (a : Action σ ε α) (f : α → Action σ ε β) (s : σ) (log : Log) :
    (a >>= f) s log =
      match a s log with
      | ((.ok x, s'), log') => f x s' log'
      | ((.error e, s'), log') => ((.error e, s'), log') := by
  simp only [Bind.bind, ExceptT.bind, ExceptT.mk, StateT.bind]
  rcases a s log with ⟨⟨e | x, s'⟩, log'⟩ <;> rfl

namespace Gives

variable {s s' : σ} {x : α} {y : β}

theorem of_eq_ok {a : Action σ ε α} {log : Log} (h : (a s log).1.1 = .ok x) :
    Gives a s x (a s log).1.2 :=
  ⟨log, (a s log).2, by rw [← h]; rfl⟩

theorem of_isOk {a : Action σ ε α} (log : Log) (h : (a s log).1.1.isOk = true) :
    ∃ x, Gives a s x (a s log).1.2 := by
  rcases hr : (a s log).1.1 with e | x
  · rw [hr] at h
    cases h
  · exact ⟨x, of_eq_ok hr⟩

theorem bind {a : Action σ ε α} {f : α → Action σ ε β} (h : Gives (a >>= f) s y s') :
    ∃ x s₁, Gives a s x s₁ ∧ Gives (f x) s₁ y s' := by
  obtain ⟨log, log', h⟩ := h
  rw [bind_apply] at h
  rcases ha : a s log with ⟨⟨e | x, s₁⟩, log₁⟩
  · rw [ha] at h
    cases h
  · rw [ha] at h
    exact ⟨x, s₁, ⟨log, log₁, ha⟩, ⟨log₁, log', h⟩⟩

theorem of_pure {y : α} (h : Gives (pure y : Action σ ε α) s x s') : x = y ∧ s = s' := by
  obtain ⟨log, log', h⟩ := h
  cases h
  exact ⟨rfl, rfl⟩

theorem of_throw {e : ε} (h : Gives (throw e : Action σ ε α) s x s') : False := by
  obtain ⟨log, log', h⟩ := h
  cases h

theorem of_get {s₁ : σ} (h : Gives (get : Action σ ε σ) s s₁ s') : s = s₁ ∧ s = s' := by
  obtain ⟨log, log', h⟩ := h
  cases h
  exact ⟨rfl, rfl⟩

theorem of_set {t : σ} {u : Unit} (h : Gives (set t : Action σ ε PUnit) s u s') : s' = t := by
  obtain ⟨log, log', h⟩ := h
  cases h
  rfl

theorem of_modify {f : σ → σ} {u : Unit} (h : Gives (modify f : Action σ ε PUnit) s u s') :
    s' = f s := by
  obtain ⟨log, log', h⟩ := h
  cases h
  rfl

theorem of_record {e : Event} {u : Unit} (h : Gives (record e : Action σ ε Unit) s u s') :
    s = s' := by
  obtain ⟨log, log', h⟩ := h
  cases h
  rfl

theorem of_within {δ : Type} {view : σ → δ} {put : δ → σ → σ} {a : Action δ ε α}
    (h : Gives (within view put a) s x s') : ∃ d, Gives a (view s) x d ∧ s' = put d s := by
  obtain ⟨log, log', h⟩ := h
  unfold Action.within at h
  rcases ha : a (view s) log with ⟨⟨r, d⟩, log₁⟩
  rw [ha] at h
  cases h
  exact ⟨d, ⟨log, _, ha⟩, rfl⟩

end Gives

namespace Fails

variable {s s' : σ} {e : ε}

theorem of_eq_error {a : Action σ ε α} {log : Log} (h : (a s log).1.1 = .error e) :
    Fails a s e (a s log).1.2 :=
  ⟨log, (a s log).2, by rw [← h]; rfl⟩

theorem of_throw {e' : ε} (h : Fails (throw e' : Action σ ε α) s e s') : e = e' ∧ s = s' := by
  obtain ⟨log, log', h⟩ := h
  cases h
  exact ⟨rfl, rfl⟩

/-- Work in sequence fails in its first part, or in the second one behind it. -/
theorem bind {a : Action σ ε α} {f : α → Action σ ε β} (h : Fails (a >>= f) s e s') :
    Fails a s e s' ∨ ∃ x s₁, Gives a s x s₁ ∧ Fails (f x) s₁ e s' := by
  obtain ⟨log, log', h⟩ := h
  rw [bind_apply] at h
  rcases ha : a s log with ⟨⟨e₁ | x, s₁⟩, log₁⟩
  · rw [ha] at h
    cases h
    exact .inl ⟨log, _, ha⟩
  · rw [ha] at h
    exact .inr ⟨x, s₁, ⟨log, log₁, ha⟩, ⟨log₁, log', h⟩⟩

theorem of_pure {y : α} (h : Fails (pure y : Action σ ε α) s e s') : False := by
  obtain ⟨log, log', h⟩ := h
  cases h

theorem of_get (h : Fails (get : Action σ ε σ) s e s') : False := by
  obtain ⟨log, log', h⟩ := h
  cases h

theorem of_set {t : σ} (h : Fails (set t : Action σ ε PUnit) s e s') : False := by
  obtain ⟨log, log', h⟩ := h
  cases h

theorem of_modify {f : σ → σ} (h : Fails (modify f : Action σ ε PUnit) s e s') : False := by
  obtain ⟨log, log', h⟩ := h
  cases h

theorem of_record {event : Event} (h : Fails (record event : Action σ ε Unit) s e s') : False := by
  obtain ⟨log, log', h⟩ := h
  cases h

end Fails

/-! ### Invariants -/

/-- Where the work succeeds, it keeps a property of the state. -/
def Keeps (I : σ → Prop) (a : Action σ ε α) : Prop :=
  ∀ ⦃s x s'⦄, Gives a s x s' → I s → I s'

namespace Keeps

variable {I : σ → Prop} {a : Action σ ε α}

theorem pure (x : α) : Keeps I (pure x : Action σ ε α) := by
  intro s y s' h hs
  rw [← h.of_pure.2]
  exact hs

theorem throw (e : ε) : Keeps I (throw e : Action σ ε α) := fun _ _ _ h _ => h.of_throw.elim

theorem get : Keeps I (get : Action σ ε σ) := by
  intro s y s' h hs
  rw [← h.of_get.2]
  exact hs

theorem modify {f : σ → σ} (hf : ∀ s, I s → I (f s)) : Keeps I (modify f : Action σ ε PUnit) := by
  intro s y s' h hs
  rw [h.of_modify]
  exact hf s hs

theorem record (e : Event) : Keeps I (record e : Action σ ε Unit) := by
  intro s y s' h hs
  rw [← h.of_record]
  exact hs

theorem ofLogged (a : Logged ε α) : Keeps I (ofLogged a : Action σ ε α) := by
  rintro s y s' ⟨log, log', h⟩ hs
  unfold Action.ofLogged at h
  rcases hr : a log with ⟨r, log₁⟩
  rw [hr] at h
  cases h
  exact hs

theorem bind {f : α → Action σ ε β} (ha : Keeps I a) (hf : ∀ x, Keeps I (f x)) :
    Keeps I (a >>= f) := by
  intro s y s' h hs
  obtain ⟨x, s₁, h₁, h₂⟩ := Gives.bind h
  exact hf x h₂ (ha h₁ hs)

theorem mapError (f : ε → ε') (ha : Keeps I a) : Keeps I (mapError f a) := by
  rintro s y s' ⟨log, log', h⟩ hs
  unfold Action.mapError at h
  rcases hr : a s log with ⟨⟨e | x, s₁⟩, log₁⟩
  · rw [hr] at h
    cases h
  · rw [hr] at h
    cases h
    exact ha ⟨log, _, hr⟩ hs

theorem forM {f : β → Action σ ε Unit} (hf : ∀ x, Keeps I (f x)) : ∀ xs : List β, Keeps I (xs.forM f)
  | [] => pure ()
  | x :: xs => bind (hf x) fun _ => forM hf xs

end Keeps
end Action
end AudioShader
