/-
# Two pieces of work side by side

Two runs mirror each other if both succeed, and then their results and states
stand in a relation, or both fail with one error. What holds of the parts of two
pieces of work holds of the whole: their second parts begin where the first ones
end. Events do not matter here.

Key definitions: `Action.Agree`, `Action.Alongside`.
Key theorems: `Action.Alongside.bind`, `Action.Alongside.gives`, `Action.Alongside.fails`.
-/
import AudioShader.Proofs.Action

namespace AudioShader
namespace Action

variable {σ τ ε α α' β β' : Type}

/-- Outcomes that agree: both are results, and `Q` relates them and the states
that are left, or both are the same error. -/
def Agree (Q : α → σ → β → τ → Prop) : Except ε α × σ → Except ε β × τ → Prop
  | (.ok x, s), (.ok y, t) => Q x s y t
  | (.error e, _), (.error e', _) => e = e'
  | _, _ => False

/-- Begun in `s` and `t`, the two pieces of work come to outcomes that agree,
whatever was reported before. -/
def Alongside (Q : α → σ → β → τ → Prop) (a : Action σ ε α) (s : σ) (b : Action τ ε β) (t : τ) :
    Prop :=
  ∀ log log', Agree Q (a s log).1 (b t log').1

namespace Alongside

variable {Q R : α → σ → β → τ → Prop} {a : Action σ ε α} {b : Action τ ε β} {s s' : σ} {t : τ}

/-! ### What is said of each of the two -/

theorem gives (h : Alongside Q a s b t) {x : α} (ha : Gives a s x s') :
    ∃ y t', Gives b t y t' ∧ Q x s' y t' := by
  obtain ⟨log, log', ha⟩ := ha
  have hagree := h log #[]
  rw [ha] at hagree
  rcases hb : b t #[] with ⟨⟨e | y, t'⟩, log₁⟩
  · rw [hb] at hagree
    exact hagree.elim
  · rw [hb] at hagree
    exact ⟨y, t', ⟨_, _, hb⟩, hagree⟩

theorem fails (h : Alongside Q a s b t) {e : ε} (ha : Fails a s e s') : ∃ t', Fails b t e t' := by
  obtain ⟨log, log', ha⟩ := ha
  have hagree := h log #[]
  rw [ha] at hagree
  rcases hb : b t #[] with ⟨⟨e' | y, t'⟩, log₁⟩
  · rw [hb] at hagree
    obtain rfl : e = e' := hagree
    exact ⟨t', _, _, hb⟩
  · rw [hb] at hagree
    exact hagree.elim

/-- Both succeed or neither does. -/
theorem isOk_eq (h : Alongside Q a s b t) (log log' : Log) :
    (b t log').1.1.isOk = (a s log).1.1.isOk := by
  have hagree := h log log'
  revert hagree
  rcases a s log with ⟨⟨e | x, s₁⟩, -⟩ <;> rcases b t log' with ⟨⟨e' | y, t₁⟩, -⟩
  · exact fun _ => rfl
  · exact False.elim
  · exact False.elim
  · exact fun _ => rfl

/-! ### Steps -/

theorem mono (h : Alongside Q a s b t) (hQ : ∀ x s' y t', Q x s' y t' → R x s' y t') :
    Alongside R a s b t := by
  intro log log'
  have hagree := h log log'
  revert hagree
  rcases a s log with ⟨⟨e | x, s₁⟩, -⟩ <;> rcases b t log' with ⟨⟨e' | y, t₁⟩, -⟩
  · exact id
  · exact id
  · exact id
  · exact hQ x s₁ y t₁

theorem pure {x : α} {y : β} (h : Q x s y t) : Alongside Q (pure x : Action σ ε α) s (pure y) t :=
  fun _ _ => h

theorem throw (e : ε) : Alongside Q (throw e : Action σ ε α) s (throw e) t := fun _ _ => rfl

/-- Work in sequence: the second parts mirror each other from wherever the first
ones lead. -/
theorem bind {f : α → Action σ ε α'} {g : β → Action τ ε β'} {Q' : α' → σ → β' → τ → Prop}
    (h : Alongside Q a s b t) (hf : ∀ x s' y t', Q x s' y t' → Alongside Q' (f x) s' (g y) t') :
    Alongside Q' (a >>= f) s (b >>= g) t := by
  intro log log'
  have hagree := h log log'
  rw [bind_apply, bind_apply]
  revert hagree
  rcases a s log with ⟨⟨e | x, s₁⟩, log₁⟩ <;> rcases b t log' with ⟨⟨e' | y, t₁⟩, log₂⟩
  · exact id
  · exact False.elim
  · exact False.elim
  · exact fun hq => hf x s₁ y t₁ hq log₁ log₂

/-! ### First steps that always succeed -/

section First

variable {Q' : α' → σ → β' → τ → Prop}

theorem get_bind {f : σ → Action σ ε α'} {g : τ → Action τ ε β'}
    (h : Alongside Q' (f s) s (g t) t) : Alongside Q' (get >>= f) s (get >>= g) t := h

theorem set_bind {f : PUnit → Action σ ε α'} {g : PUnit → Action τ ε β'} {t' : τ}
    (h : Alongside Q' (f ⟨⟩) s' (g ⟨⟩) t') : Alongside Q' (set s' >>= f) s (set t' >>= g) t := h

theorem modify_bind {f : PUnit → Action σ ε α'} {g : PUnit → Action τ ε β'} {p : σ → σ} {q : τ → τ}
    (h : Alongside Q' (f ⟨⟩) (p s) (g ⟨⟩) (q t)) :
    Alongside Q' (modify p >>= f) s (modify q >>= g) t := h

theorem record_bind {f : Unit → Action σ ε α'} {g : Unit → Action τ ε β'} {e e' : Event}
    (h : Alongside Q' (f ()) s (g ()) t) :
    Alongside Q' (record e >>= f) s (record e' >>= g) t := fun log log' => h (log.push e) (log'.push e')

end First

end Alongside
end Action
end AudioShader
