/-
# Work that shadows other work

One piece of work shadows another if it can do, from a related state, whatever
the other one does: it succeeds with the same result, reports the same events
and leaves a related state.

Key definitions: `Action.Shadows`.
Key theorems: `Action.Shadows.bind`, `Action.Shadows.within`, `Action.Shadows.forM`.
-/
import AudioShader.Proofs.Action

namespace AudioShader
namespace Action

variable {σ τ δ δ' ε ε' α β : Type}

/-- Whenever `a` succeeds, `b` does from every state that `P` relates to the one
`a` begins in, with the same result and events, and `Q` relates what they leave. -/
def Shadows (P : σ → τ → Prop) (a : Action σ ε α) (b : Action τ ε α) (Q : σ → τ → Prop) : Prop :=
  ∀ ⦃s t log x s' log'⦄, P s t → a s log = ((.ok x, s'), log') →
    ∃ t', b t log = ((.ok x, t'), log') ∧ Q s' t'

namespace Shadows

variable {P Q R : σ → τ → Prop} {a : Action σ ε α} {b : Action τ ε α}

theorem gives (h : Shadows P a b Q) {s s' : σ} {t : τ} {x : α} (hP : P s t)
    (ha : Gives a s x s') : ∃ t', Gives b t x t' ∧ Q s' t' := by
  obtain ⟨log, log', ha⟩ := ha
  obtain ⟨t', hb, hQ⟩ := h hP ha
  exact ⟨t', ⟨log, log', hb⟩, hQ⟩

theorem pure (x : α) : Shadows P (pure x : Action σ ε α) (pure x) P := by
  intro s t log y s' log' hP h
  cases h
  exact ⟨t, rfl, hP⟩

theorem record (e : Event) : Shadows P (record e : Action σ ε Unit) (record e) P := by
  intro s t log y s' log' hP h
  cases h
  exact ⟨t, rfl, hP⟩

theorem bind {f : α → Action σ ε β} {g : α → Action τ ε β} (h : Shadows P a b R)
    (hf : ∀ x, Shadows R (f x) (g x) Q) : Shadows P (a >>= f) (b >>= g) Q := by
  intro s t log y s' log' hP hab
  rw [bind_apply] at hab
  rcases ha : a s log with ⟨⟨e | x, s₁⟩, log₁⟩
  · rw [ha] at hab
    cases hab
  · rw [ha] at hab
    obtain ⟨t₁, hb, hR⟩ := h hP ha
    obtain ⟨t', hg, hQ⟩ := hf x hR hab
    exact ⟨t', by rw [bind_apply, hb]; exact hg, hQ⟩

theorem weaken {P' Q' : σ → τ → Prop} (h : Shadows P a b Q) (hP : ∀ s t, P' s t → P s t)
    (hQ : ∀ s t, Q s t → Q' s t) : Shadows P' a b Q' := by
  intro s t log x s' log' hP' ha
  obtain ⟨t', hb, hQt⟩ := h (hP s t hP') ha
  exact ⟨t', hb, hQ s' t' hQt⟩

theorem mapError (f : ε → ε') (h : Shadows P a b Q) :
    Shadows P (mapError f a) (mapError f b) Q := by
  intro s t log x s' log' hP hf
  unfold Action.mapError at hf ⊢
  rcases ha : a s log with ⟨⟨e | y, s₁⟩, log₁⟩
  · rw [ha] at hf
    cases hf
  · rw [ha] at hf
    cases hf
    obtain ⟨t', hb, hQ⟩ := h hP ha
    exact ⟨t', by rw [hb], hQ⟩

theorem modify {f : σ → σ} {g : τ → τ} (h : ∀ s t, P s t → Q (f s) (g t)) :
    Shadows P (modify f : Action σ ε PUnit) (modify g) Q := by
  intro s t log x s' log' hP hf
  cases hf
  exact ⟨g t, rfl, h s t hP⟩

theorem refl (a : Action σ ε α) : Shadows Eq a a Eq := by
  rintro s t log x s' log' rfl h
  exact ⟨s', h, rfl⟩

/-- Work on parts of the states. -/
theorem within {view : σ → δ} {put : δ → σ → σ} {view' : τ → δ'} {put' : δ' → τ → τ}
    {a : Action δ ε α} {b : Action δ' ε α} {P' Q' : δ → δ' → Prop} (h : Shadows P' a b Q')
    (hview : ∀ s t, P s t → P' (view s) (view' t))
    (hput : ∀ s t d d', P s t → Q' d d' → Q (put d s) (put' d' t)) :
    Shadows P (within view put a) (within view' put' b) Q := by
  intro s t log x s' log' hP hw
  unfold Action.within at hw ⊢
  rcases ha : a (view s) log with ⟨⟨r, d⟩, log₁⟩
  rw [ha] at hw
  cases hw
  obtain ⟨d', hb, hQ⟩ := h (hview s t hP) ha
  exact ⟨put' d' t, by rw [hb], hput s t d d' hP hQ⟩

/-- Work on a list, one element after the other; the relation tells which
elements are done and which are to come. -/
theorem forM {P : List β → List β → σ → τ → Prop} {f : β → Action σ ε Unit}
    {g : β → Action τ ε Unit}
    (h : ∀ x done more, Shadows (P done (x :: more)) (f x) (g x) (P (done ++ [x]) more)) :
    ∀ (xs done more : List β),
      Shadows (P done (xs ++ more)) (xs.forM f) (xs.forM g) (P (done ++ xs) more)
  | [], done, more => by
    rw [List.append_nil]
    exact pure ()
  | x :: xs, done, more => by
    have hrest := forM h xs (done ++ [x]) more
    rw [List.append_assoc, List.singleton_append] at hrest
    exact bind (h x done (xs ++ more)) fun _ => hrest

end Shadows
end Action
end AudioShader
