/-
# How work ends

What work leaves behind matters in both of its endings: what was allocated
before a failure has to be freed as well. So a statement about a piece of work
says what holds when it succeeds and what holds when it fails.

Key definitions: `Action.Ends`, `Action.Stays`, `Action.Hinges`, `Logged.Ends`.
Key theorems: `Action.Ends.bind`, `Action.Ends.within`, `Action.Ends.forM`,
`Action.Ends.forM_done`, `Action.Ends.forM_zipIdx`, `Action.Hinges.forM`.
-/
import AudioShader.Proofs.Action

namespace AudioShader
namespace Action

variable {σ τ ε ε' α β : Type}

/-- Begun where `P` holds, the work succeeds where `Q` holds of its result, or
fails where `E` holds of the failure. -/
def Ends (P : σ → Prop) (a : Action σ ε α) (Q : α → σ → Prop) (E : ε → σ → Prop) : Prop :=
  ∀ ⦃s⦄, P s → ∀ log, match a s log with
    | ((.ok x, s'), _) => Q x s'
    | ((.error e, s'), _) => E e s'

/-- However the work ends, it keeps a property of the state. -/
def Stays (I : σ → Prop) (a : Action σ ε α) : Prop := Ends I a (fun _ => I) fun _ => I

namespace Ends

variable {P P' : σ → Prop} {Q Q' : α → σ → Prop} {E E' : ε → σ → Prop} {a : Action σ ε α}

theorem gives (h : Ends P a Q E) {s s' : σ} {x : α} (hs : P s) (ha : Gives a s x s') : Q x s' := by
  obtain ⟨log, log', ha⟩ := ha
  have := h hs log
  rw [ha] at this
  exact this

theorem fails (h : Ends P a Q E) {s s' : σ} {e : ε} (hs : P s) (ha : Fails a s e s') : E e s' := by
  obtain ⟨log, log', ha⟩ := ha
  have := h hs log
  rw [ha] at this
  exact this

theorem weaken (h : Ends P a Q E) (hP : ∀ s, P' s → P s) (hQ : ∀ x s, Q x s → Q' x s)
    (hE : ∀ e s, E e s → E' e s) : Ends P' a Q' E' := by
  intro s hs log
  have hend := h (hP s hs) log
  rcases ha : a s log with ⟨⟨e | x, s'⟩, log'⟩
  · rw [ha] at hend
    exact hE e s' hend
  · rw [ha] at hend
    exact hQ x s' hend

/-- Two things that are known of one piece of work. -/
theorem both (h : Ends P a Q E) (h' : Ends P' a Q' E') :
    Ends (fun s => P s ∧ P' s) a (fun x s => Q x s ∧ Q' x s) fun e s => E e s ∧ E' e s := by
  intro s hs log
  have hend := h hs.1 log
  have hend' := h' hs.2 log
  rcases ha : a s log with ⟨⟨e | x, s'⟩, log'⟩
  · rw [ha] at hend hend'
    exact ⟨hend, hend'⟩
  · rw [ha] at hend hend'
    exact ⟨hend, hend'⟩

/-- A state at a time. -/
theorem of_forall (h : ∀ s, P s → Ends (fun t => t = s) a Q E) : Ends P a Q E :=
  fun s hs => h s hs rfl

/-- A fact that is known before the work. -/
theorem assume {p : Prop} (h : p → Ends P a Q E) : Ends (fun s => P s ∧ p) a Q E :=
  fun _ hs => h hs.2 hs.1

/-! ### The parts of work -/

theorem pure {x : α} (h : ∀ s, P s → Q x s) : Ends P (pure x : Action σ ε α) Q E :=
  fun s hs _ => h s hs

theorem throw {e : ε} (h : ∀ s, P s → E e s) : Ends P (throw e : Action σ ε α) Q E :=
  fun s hs _ => h s hs

theorem get {Q : σ → σ → Prop} (h : ∀ s, P s → Q s s) : Ends P (get : Action σ ε σ) Q E :=
  fun s hs _ => h s hs

theorem set {t : σ} {Q : PUnit → σ → Prop} (h : ∀ s, P s → Q ⟨⟩ t) :
    Ends P (set t : Action σ ε PUnit) Q E :=
  fun s hs _ => h s hs

theorem modify {f : σ → σ} {Q : PUnit → σ → Prop} (h : ∀ s, P s → Q ⟨⟩ (f s)) :
    Ends P (modify f : Action σ ε PUnit) Q E :=
  fun s hs _ => h s hs

theorem record {e : Event} {Q : Unit → σ → Prop} (h : ∀ s, P s → Q () s) :
    Ends P (record e : Action σ ε Unit) Q E :=
  fun s hs _ => h s hs

theorem ofLogged {b : Logged ε α} (hQ : ∀ x s, P s → Q x s) (hE : ∀ e s, P s → E e s) :
    Ends P (ofLogged b : Action σ ε α) Q E := by
  intro s hs log
  unfold Action.ofLogged
  rcases b log with ⟨e | x, log'⟩
  · exact hE e s hs
  · exact hQ x s hs

theorem bind {R : α → σ → Prop} {f : α → Action σ ε β} {Q : β → σ → Prop} (ha : Ends P a R E)
    (hf : ∀ x, Ends (R x) (f x) Q E) : Ends P (a >>= f) Q E := by
  intro s hs log
  have hend := ha hs log
  rw [bind_apply]
  rcases hr : a s log with ⟨⟨e | x, s'⟩, log'⟩
  · rw [hr] at hend
    exact hend
  · rw [hr] at hend
    exact hf x hend log'

/-- Work whose result is put in another form. -/
theorem returned {f : α → β} {Q : β → σ → Prop} (h : Ends P a (fun x => Q (f x)) E) :
    Ends P (a >>= fun x => Pure.pure (f x)) Q E := bind h fun _ => pure fun _ hs => hs

/-- Work that first looks at the state. -/
theorem get_bind {f : σ → Action σ ε β} {Q : β → σ → Prop}
    (h : ∀ s, P s → Ends (fun t => t = s) (f s) Q E) : Ends P (MonadState.get >>= f) Q E :=
  fun s hs log => h s hs rfl log

/-- Work that first reports something. -/
theorem record_bind {e : Event} {f : Unit → Action σ ε β} {Q : β → σ → Prop}
    (h : Ends P (f ()) Q E) : Ends P (Action.record e >>= f) Q E :=
  fun _ hs log => h hs (log.push e)

/-- What stands behind a failure is not done. -/
theorem throw_bind {e : ε} {f : α → Action σ ε β} {Q : β → σ → Prop} (h : ∀ s, P s → E e s) :
    Ends P (MonadExcept.throw e >>= f) Q E :=
  bind (R := fun _ _ => False) (throw h) fun _ _ hs => hs.elim

theorem mapError {f : ε → ε'} {E : ε' → σ → Prop} (h : Ends P a Q fun e => E (f e)) :
    Ends P (mapError f a) Q E := by
  intro s hs log
  have hend := h hs log
  unfold Action.mapError
  rcases hr : a s log with ⟨⟨e | x, s'⟩, log'⟩
  · rw [hr] at hend
    exact hend
  · rw [hr] at hend
    exact hend

theorem attempt {Q : Except ε α → σ → Prop} {E : ε' → σ → Prop}
    (h : Ends P a (fun x => Q (.ok x)) fun e => Q (.error e)) :
    Ends P (attempt a : Action σ ε' (Except ε α)) Q E := by
  intro s hs log
  have hend := h hs log
  unfold Action.attempt
  rcases hr : a s log with ⟨⟨e | x, s'⟩, log'⟩
  · rw [hr] at hend
    exact hend
  · rw [hr] at hend
    exact hend

/-- Work on a part of the state. -/
theorem within {view : σ → τ} {put : τ → σ → σ} {b : Action τ ε α}
    (h : ∀ s, P s → Ends (fun t => t = view s) b (fun x t => Q x (put t s))
      fun e t => E e (put t s)) : Ends P (within view put b) Q E := by
  intro s hs log
  have hend := h s hs rfl log
  unfold Action.within
  rcases hr : b (view s) log with ⟨⟨e | x, t⟩, log'⟩
  · rw [hr] at hend
    exact hend
  · rw [hr] at hend
    exact hend

/-- Work on a list, one element after the other; the property tells which
elements are to come. -/
theorem forM {I : List β → σ → Prop} {f : β → Action σ ε Unit}
    (h : ∀ x more, Ends (I (x :: more)) (f x) (fun _ => I more) E) :
    ∀ xs : List β, Ends (I xs) (xs.forM f) (fun _ => I []) E
  | [] => pure fun _ hs => hs
  | x :: xs => bind (h x xs) fun _ => forM h xs

/-- The same, where the property tells which elements are done. -/
theorem forM_done {J : List β → σ → Prop} {f : β → Action σ ε Unit}
    (h : ∀ done x, Ends (J done) (f x) (fun _ => J (done ++ [x])) E) :
    ∀ xs done : List β, Ends (J done) (xs.forM f) (fun _ => J (done ++ xs)) E
  | [], done => by
    rw [List.append_nil]
    exact pure fun _ hs => hs
  | x :: xs, done => by
    rw [List.append_cons]
    exact bind (h done x) fun _ => forM_done h xs (done ++ [x])

/-- The same for elements with their indices, where the property tells how many
elements are done. -/
theorem forM_zipIdx {J : Nat → σ → Prop} {f : β × Nat → Action σ ε Unit} :
    ∀ {xs : List β} {k : Nat}, (∀ i x, xs[i]? = some x →
      Ends (J (k + i)) (f (x, k + i)) (fun _ => J (k + i + 1)) E) →
    Ends (J k) ((xs.zipIdx k).forM f) (fun _ => J (k + xs.length)) E
  | [], _, _ => pure fun _ hs => hs
  | x :: xs, k, h => by
    have hrest : Ends (J (k + 1)) ((xs.zipIdx (k + 1)).forM f)
        (fun _ => J (k + 1 + xs.length)) E := by
      refine forM_zipIdx fun i y hy => ?_
      have hstep := h (i + 1) y hy
      rwa [← Nat.add_assoc, Nat.add_right_comm] at hstep
    rw [List.zipIdx_cons, List.length_cons, ← Nat.add_assoc, Nat.add_right_comm]
    exact bind (h 0 x rfl) fun _ => hrest

end Ends

namespace Stays

variable {I : σ → Prop} {a : Action σ ε α}

theorem pure (x : α) : Stays I (pure x : Action σ ε α) := Ends.pure fun _ hs => hs

theorem throw (e : ε) : Stays I (throw e : Action σ ε α) := Ends.throw fun _ hs => hs

theorem bind {f : α → Action σ ε β} (ha : Stays I a) (hf : ∀ x, Stays I (f x)) :
    Stays I (a >>= f) := Ends.bind ha hf

theorem get : Stays I (get : Action σ ε σ) := Ends.get fun _ hs => hs

theorem modify {f : σ → σ} (hf : ∀ s, I s → I (f s)) : Stays I (modify f : Action σ ε PUnit) :=
  Ends.modify hf

theorem record (e : Event) : Stays I (record e : Action σ ε Unit) := Ends.record fun _ hs => hs

theorem mapError (f : ε → ε') (ha : Stays I a) : Stays I (mapError f a) := Ends.mapError ha

theorem ofLogged (b : Logged ε α) : Stays I (ofLogged b : Action σ ε α) :=
  Ends.ofLogged (fun _ _ hs => hs) fun _ _ hs => hs

/-- Work on a part of the state keeps what it keeps of the part. -/
theorem within {view : σ → τ} {put : τ → σ → σ} {b : Action τ ε α} {J : τ → Prop}
    (hb : Stays J b) (hview : ∀ s, I s → J (view s)) (hput : ∀ t s, J t → I s → I (put t s)) :
    Stays I (within view put b) :=
  Ends.within fun s hs => hb.weaken (by rintro _ rfl; exact hview s hs)
    (fun _ t ht => hput t s ht hs) fun _ t ht => hput t s ht hs

theorem forM {f : β → Action σ ε Unit} (hf : ∀ x, Stays I (f x)) (xs : List β) :
    Stays I (xs.forM f) := Ends.forM (I := fun _ => I) (fun x _ => hf x) xs

/-- The state that the work leaves, however it ends. -/
theorem apply (h : Stays I a) {s : σ} (hs : I s) (log : Log) : I (a s log).1.2 := by
  have hend := h hs log
  rcases ha : a s log with ⟨⟨e | x, s'⟩, log'⟩
  · rw [ha] at hend
    exact hend
  · rw [ha] at hend
    exact hend

end Stays

/-! ### Work that succeeds on a condition -/

/-- Begun where `P` holds, the work succeeds just if a condition holds, where it
leaves `Q`; otherwise it leaves `R`. -/
def Hinges (P Q R : σ → Prop) (a : Action σ ε α) (condition : Prop) : Prop :=
  Ends P a (fun _ s => Q s ∧ condition) fun _ s => R s ∧ ¬condition

namespace Hinges

variable {P Q R : σ → Prop} {a : Action σ ε α} {c : Prop}

/-- Work that does not fail hinges on nothing. -/
theorem of_ends (h : Ends P a (fun _ => Q) fun _ _ => False) : Hinges P Q R a True :=
  h.weaken (fun _ h => h) (fun _ _ h => ⟨h, trivial⟩) fun _ _ h => h.elim

/-- Where the condition holds the work does not fail. -/
theorem ends (h : Hinges P Q R a c) (hc : c) : Ends P a (fun _ => Q) fun _ _ => False :=
  h.weaken (fun _ h => h) (fun _ _ h => h.1) fun _ _ h => h.2 hc

theorem congr {c' : Prop} (h : Hinges P Q R a c) (hc : c ↔ c') : Hinges P Q R a c' :=
  h.weaken (fun _ h => h) (fun _ _ h => ⟨h.1, hc.1 h.2⟩) fun _ _ h => ⟨h.1, fun h' => h.2 (hc.2 h')⟩

theorem bind {S : σ → Prop} {f : α → Action σ ε β} {c' : Prop} (ha : Hinges P S R a c)
    (hf : ∀ x, Hinges S Q R (f x) c') : Hinges P Q R (a >>= f) (c ∧ c') :=
  Ends.bind (ha.weaken (fun _ h => h) (fun _ _ h => h) fun _ _ h => ⟨h.1, fun h' => h.2 h'.1⟩)
    fun x => Ends.assume fun hc => (hf x).weaken (fun _ h => h) (fun _ _ h => ⟨h.1, hc, h.2⟩)
      fun _ _ h => ⟨h.1, fun h' => h.2 h'.2⟩

/-- Work behind work that does not fail. -/
theorem ends_bind {S : α → σ → Prop} {f : α → Action σ ε β}
    (ha : Ends P a S fun _ _ => False) (hf : ∀ x, Hinges (S x) Q R (f x) c) :
    Hinges P Q R (a >>= f) c :=
  Ends.bind (ha.weaken (fun _ h => h) (fun _ _ h => h) fun _ _ h => h.elim) hf

/-- Work on a list succeeds if it does on each element. -/
theorem forM {f : β → Action σ ε Unit} {p : β → Prop} : ∀ xs : List β,
    (∀ x ∈ xs, Hinges P P R (f x) (p x)) → Hinges P P R (xs.forM f) (∀ x ∈ xs, p x)
  | [], _ => Ends.pure fun _ hs => ⟨hs, nofun⟩
  | x :: xs, h => ((h x (List.mem_cons_self ..)).bind fun _ =>
      forM xs fun y hy => h y (List.mem_cons_of_mem x hy)).congr List.forall_mem_cons.symm

end Hinges
end Action

/-! ### Work without a state -/

namespace Logged

variable {ε ε' α β : Type}

theorem bind_apply (a : Logged ε α) (f : α → Logged ε β) (log : Log) :
    (a >>= f) log =
      match a log with
      | (.ok x, log₁) => f x log₁
      | (.error e, log₁) => (.error e, log₁) := by
  simp only [Bind.bind, ExceptT.bind, ExceptT.mk, StateT.bind]
  rcases a log with ⟨e | x, log₁⟩ <;> rfl

/-- The work succeeds where `Q` holds of its result, or fails where `E` holds of
the failure. -/
def Ends (a : Logged ε α) (Q : α → Prop) (E : ε → Prop) : Prop :=
  ∀ log, match a log with
    | (.ok x, _) => Q x
    | (.error e, _) => E e

namespace Ends

variable {a : Logged ε α} {Q Q' : α → Prop} {E E' : ε → Prop} {log log' : Log}

theorem ok (h : Ends a Q E) {x : α} (ha : a log = (.ok x, log')) : Q x := by
  have hend := h log
  rw [ha] at hend
  exact hend

theorem error (h : Ends a Q E) {e : ε} (ha : a log = (.error e, log')) : E e := by
  have hend := h log
  rw [ha] at hend
  exact hend

theorem weaken (h : Ends a Q E) (hQ : ∀ x, Q x → Q' x) (hE : ∀ e, E e → E' e) : Ends a Q' E' := by
  intro log
  have hend := h log
  rcases ha : a log with ⟨e | x, log'⟩
  · rw [ha] at hend
    exact hE e hend
  · rw [ha] at hend
    exact hQ x hend

theorem pure {x : α} (h : Q x) : Ends (pure x : Logged ε α) Q E := fun _ => h

theorem throw {e : ε} (h : E e) : Ends (throw e : Logged ε α) Q E := fun _ => h

theorem record {e : Event} {Q : Unit → Prop} (h : Q ()) : Ends (record e : Logged ε Unit) Q E := fun _ => h

theorem bind {R : β → Prop} {f : α → Logged ε β} (ha : Ends a Q E) (hf : ∀ x, Q x → Ends (f x) R E) :
    Ends (a >>= f) R E := by
  intro log
  have hend := ha log
  rw [bind_apply]
  rcases hr : a log with ⟨e | x, log'⟩
  · rw [hr] at hend
    exact hend
  · rw [hr] at hend
    exact hf x hend log'

theorem mapError {f : ε → ε'} {E : ε' → Prop} (h : Ends a Q fun e => E (f e)) :
    Ends (mapError f a) Q E := by
  intro log
  have hend := h log
  unfold Logged.mapError
  rcases hr : a log with ⟨e | x, log'⟩
  · rw [hr] at hend
    exact hend
  · rw [hr] at hend
    exact hend

/-- Work on a state of its own. -/
theorem of_from? {σ : Type} {s : σ} {b : Action σ ε α} {Q : α × σ → Prop}
    (h : Action.Ends (fun t => t = s) b (fun x t => Q (x, t)) fun e _ => E e) :
    Ends (Action.from? s b) Q E := by
  intro log
  have hend := h rfl log
  unfold Action.from?
  rcases hr : b s log with ⟨⟨e | x, t⟩, log'⟩
  · rw [hr] at hend
    exact hend
  · rw [hr] at hend
    exact hend

end Ends
end Logged

end AudioShader
