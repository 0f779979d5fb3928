/-
# Work that ends like other work

Two pieces of work, begun in related states, end alike: with the same result or
the same error, the same events, and again in related states. Failures of the
first one may be excused: where it ends with such a failure nothing is said of
the second.

Key definitions: `Action.Matches`, `Action.afterwards`.
Key theorems: `Action.Matches.bind`, `Action.Matches.bracket`.
-/
import AudioShader.Proofs.Action

namespace AudioShader
namespace Action

variable {σ τ ε α β : Type}

/-- Changes the state when the work has ended, however it ends. -/
def afterwards (f : σ → σ) (a : Action σ ε α) : Action σ ε α := fun s log =>
  match a s log with
  | ((r, s'), log') => ((r, f s'), log')

/-- From related states `b` ends as `a` does, in related states, unless `a` ends
with a failure that is excused. -/
def Matches (excused : ε → Prop) (R : σ → τ → Prop) (a : Action σ ε α) (b : Action τ ε α) : Prop :=
  ∀ ⦃s t⦄, R s t → ∀ log,
    (∃ e, (a s log).1.1 = .error e ∧ excused e) ∨
      (b t log).1.1 = (a s log).1.1 ∧ (b t log).2 = (a s log).2 ∧ R (a s log).1.2 (b t log).1.2

namespace Matches

variable {excused : ε → Prop} {R S : σ → τ → Prop} {a : Action σ ε α} {b : Action τ ε α}

theorem gives (h : Matches excused R a b) {s s' : σ} {t : τ} {x : α} (hR : R s t)
    (ha : Gives a s x s') : ∃ t', Gives b t x t' ∧ R s' t' := by
  obtain ⟨log, log', ha⟩ := ha
  have hend := h hR log
  rw [ha] at hend
  obtain ⟨e, he, -⟩ | ⟨hb, -, hR'⟩ := hend
  · cases he
  · exact ⟨_, .of_eq_ok hb, hR'⟩

/-- Where nothing is excused both end alike. -/
theorem eq_of_never (h : Matches (fun _ => False) R a b) {s : σ} {t : τ} (hR : R s t) (log : Log) :
    (b t log).1.1 = (a s log).1.1 ∧ (b t log).2 = (a s log).2 ∧ R (a s log).1.2 (b t log).1.2 := by
  obtain ⟨e, -, hno⟩ | hend := h hR log
  · exact hno.elim
  · exact hend

/-! ### What only one of the two does -/

/-- A look at the state in the beginning. -/
theorem get_right {g : τ → Action τ ε α} (h : ∀ s t, R s t → Matches excused R a (g t)) :
    Matches excused R a (get >>= g) :=
  fun s t hR log => h s t hR hR log

/-- A change in the beginning, and one back in the end. -/
theorem bracket {enter leave : τ → τ} (h : Matches excused S a b)
    (henter : ∀ s t, R s t → S s (enter t)) (hleave : ∀ s t, S s t → R s (leave t)) :
    Matches excused R a (modify enter >>= fun _ => afterwards leave b) := by
  intro s t hR log
  have hend := h (henter s t hR) log
  obtain hex | ⟨hr, hlog, hS⟩ := hend
  · exact .inl hex
  · exact .inr ⟨hr, hlog, hleave _ _ hS⟩

/-- A change in the beginning. -/
theorem modify_right {f : τ → τ} (h : Matches excused R a b) (hf : ∀ s t, R s t → R s (f t)) :
    Matches excused R a (modify f >>= fun _ => b) :=
  fun s t hR log => h (hf s t hR) log

/-! ### The parts of work -/

/-- Work that is begun in the same state ends alike. -/
theorem refl {R : σ → σ → Prop} {a : Action σ ε α} (h : ∀ s t, R s t → t = s)
    (hrefl : ∀ s, R s s) : Matches excused R a a := by
  intro s t hR log
  rw [h s t hR]
  exact .inr ⟨rfl, rfl, hrefl _⟩

theorem pure (x : α) : Matches excused R (pure x : Action σ ε α) (pure x) :=
  fun _ _ hR _ => .inr ⟨rfl, rfl, hR⟩

theorem throw (e : ε) : Matches excused R (throw e : Action σ ε α) (throw e) :=
  fun _ _ hR _ => .inr ⟨rfl, rfl, hR⟩

/-- A failure that is excused. -/
theorem of_excused {e : ε} (he : excused e) : Matches excused R (MonadExcept.throw e) b :=
  fun _ _ _ _ => .inl ⟨e, rfl, he⟩

theorem set {s : σ} {t : τ} (h : R s t) : Matches excused R (set s : Action σ ε PUnit) (set t) :=
  fun _ _ _ _ => .inr ⟨rfl, rfl, h⟩

theorem modify {f : σ → σ} {g : τ → τ} (h : ∀ s t, R s t → R (f s) (g t)) :
    Matches excused R (modify f : Action σ ε PUnit) (modify g) :=
  fun s t hR _ => .inr ⟨rfl, rfl, h s t hR⟩

theorem record (e : Event) : Matches excused R (record e : Action σ ε Unit) (record e) :=
  fun _ _ hR _ => .inr ⟨rfl, rfl, hR⟩

theorem bind {f : α → Action σ ε β} {g : α → Action τ ε β} (h : Matches excused R a b)
    (hf : ∀ x, Matches excused R (f x) (g x)) : Matches excused R (a >>= f) (b >>= g) := by
  intro s t hR log
  have hend := h hR log
  rw [bind_apply, bind_apply]
  rcases ha : a s log with ⟨⟨e | x, s'⟩, log'⟩ <;> rcases hb : b t log with ⟨⟨e' | y, t'⟩, log''⟩ <;>
    rw [ha, hb] at hend
  · obtain ⟨e₁, he, hex⟩ | ⟨he, hlog, hR'⟩ := hend
    · cases he
      exact .inl ⟨e, rfl, hex⟩
    · cases he
      exact .inr ⟨rfl, hlog, hR'⟩
  · obtain ⟨e₁, he, hex⟩ | ⟨he, -⟩ := hend
    · cases he
      exact .inl ⟨e, rfl, hex⟩
    · cases he
  · obtain ⟨e₁, he, -⟩ | ⟨he, -⟩ := hend <;> cases he
  · obtain ⟨e', he, -⟩ | ⟨he, rfl, hR'⟩ := hend
    · cases he
    · cases he
      exact hf x hR' log''

/-- Work that first looks at the state. -/
theorem get_bind {f : σ → Action σ ε β} {g : τ → Action τ ε β}
    (h : ∀ s t, R s t → Matches excused R (f s) (g t)) :
    Matches excused R (get >>= f) (get >>= g) :=
  fun s t hR log => h s t hR hR log

end Matches
end Action
end AudioShader
