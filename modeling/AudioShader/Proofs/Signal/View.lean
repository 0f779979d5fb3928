/-
# What a chain does to the states of its binding

A chain reads and changes only the states of its own binding, and does not ask
which binding that is: what it gives, and the states it leaves, are told by the
states of its steps alone.

Key definitions: `Succeeds`, `StateStore.view`, `stepped?`, `ran?`.
Key theorems: `view_of_succeeds`, `succeeds_of_view`, `ran?_append`, `ran?_congr`.
-/
import Mathlib.Logic.Function.Basic
import AudioShader.Signal.Chain

namespace AudioShader

variable {α : Type}

/-- A part of a chain, begun with `w`, succeeds and leaves `w'`. -/
def Succeeds (a : Running α Unit) (w w' : Work α) : Prop := a.run w = (.ok (), w')

theorem run_bind (a : Running α Unit) (f : Unit → Running α Unit) (w : Work α) :
    (a >>= f).run w =
      match a.run w with
      | (.ok u, w') => (f u).run w'
      | (.error e, w') => (.error e, w') := by
  simp only [ExceptT.run, Bind.bind, ExceptT.bind, ExceptT.mk, StateT.bind]
  rcases a w with ⟨e | u, w'⟩ <;> rfl

theorem succeeds_bind {a : Running α Unit} {f : Unit → Running α Unit} {w w'' : Work α} :
    Succeeds (a >>= f) w w'' ↔ ∃ w', Succeeds a w w' ∧ Succeeds (f ()) w' w'' := by
  unfold Succeeds
  rw [run_bind]
  constructor
  · intro h
    rcases ha : a.run w with ⟨e | u, w'⟩
    · rw [ha] at h
      cases h
    · rw [ha] at h
      exact ⟨w', rfl, h⟩
  · rintro ⟨w', ha, hf⟩
    rw [ha]
    exact hf

theorem run_get_bind (f : Work α → Running α Unit) (w : Work α) :
    (do let w ← get; f w : Running α Unit).run w = (f w).run w := rfl

/-! ### The states of a binding -/

namespace StateStore

/-- The states of a binding, by the place of their step. -/
def view (s : StateStore α) (binding : BindingId) : Nat → Option (TransformState α) :=
  fun step => s.get? ⟨binding, step⟩

/-- The store after a step, which may leave a state. -/
def keep (s : StateStore α) (key : StateKey) : Option (TransformState α) → StateStore α
  | none => s
  | some state => s.put key state

theorem get?_put (s : StateStore α) (key k : StateKey) (state : TransformState α) :
    (s.put key state).get? k = if k = key then some state else s.get? k :=
  Registry.get?_put s.states key k state

theorem view_put_ne (s : StateStore α) {binding b : BindingId} (hb : b ≠ binding) (step : Nat)
    (state : TransformState α) : (s.put ⟨binding, step⟩ state).view b = s.view b := by
  funext k
  have hne : (⟨b, k⟩ : StateKey) ≠ ⟨binding, step⟩ := fun h => hb (congrArg StateKey.binding h)
  rw [view, view, get?_put, if_neg hne]

theorem view_put_self (s : StateStore α) (binding : BindingId) (step : Nat)
    (state : TransformState α) : (s.put ⟨binding, step⟩ state).view binding =
      Function.update (s.view binding) step (some state) := by
  funext k
  rw [view, get?_put, Function.update_apply]
  by_cases hk : k = step
  · rw [if_pos hk, if_pos (by rw [hk])]
  · have hne : (⟨binding, k⟩ : StateKey) ≠ ⟨binding, step⟩ := fun h => hk (congrArg StateKey.step h)
    rw [if_neg hk, if_neg hne]
    rfl

theorem view_empty (binding : BindingId) : (({} : StateStore α).view binding) = fun _ => none := rfl

end StateStore

/-- The states of a binding after a step, which may leave a state. -/
def kept (view : Nat → Option (TransformState α)) (step : Nat) :
    Option (TransformState α) → Nat → Option (TransformState α)
  | none => view
  | some state => Function.update view step (some state)

theorem view_keep_self (s : StateStore α) (binding : BindingId) (step : Nat)
    (left : Option (TransformState α)) :
    (s.keep ⟨binding, step⟩ left).view binding = kept (s.view binding) step left := by
  cases left with
  | none => rfl
  | some state => exact s.view_put_self binding step state

theorem view_keep_ne (s : StateStore α) {binding b : BindingId} (hb : b ≠ binding) (step : Nat)
    (left : Option (TransformState α)) : (s.keep ⟨binding, step⟩ left).view b = s.view b := by
  cases left with
  | none => rfl
  | some state => exact s.view_put_ne hb step state

theorem kept_of_ne {step k : Nat} (hk : k ≠ step) (view : Nat → Option (TransformState α))
    (left : Option (TransformState α)) : kept view step left k = view k := by
  cases left with
  | none => rfl
  | some state => exact Function.update_of_ne hk _ _

theorem kept_self (view : Nat → Option (TransformState α)) (step : Nat)
    (left : Option (TransformState α)) : kept view step left step = left.or (view step) := by
  cases left with
  | none => rfl
  | some state => exact Function.update_self ..

/-! ### Steps -/

/-- The gravity state found at a step; a new one is for buffers of `len`. -/
def gravityOf? [Zero α] (len : Nat) : Option (TransformState α) → Option (GravityState α)
  | none => some (.new len)
  | some (.gravity state) => some state
  | some (.average _) => none

/-- The average state found at a step; a new one has `frames` frames of `len`. -/
def averageOf? [Zero α] (frames len : Nat) : Option (TransformState α) → Option (AverageState α)
  | none => some (.new frames len)
  | some (.average state) => some state
  | some (.gravity _) => none

/-- The state that a step leaves, if it leaves one, and the buffer after it. -/
def stepped? [Signal α] (params : TransformParams α) (buffer : List α) :
    Transform → Option (TransformState α) → Option (Option (TransformState α) × List α)
  | .window, _ => some (none, tapered buffer)
  | .wrange, _ => some (none, ranged buffer)
  | .smooth, _ => some (none, smoothed buffer params.smoothDistance)
  | .fft, _ =>
    (spectrum buffer params.fftScale params.fftCutoff).toOption.map fun out => (none, out)
  | .gravity, found =>
    (gravityOf? buffer.length found).bind fun state =>
      (state.apply buffer params.gravityDecay).toOption.map fun state' =>
        (some (.gravity state'), state'.applied)
  | .average, found =>
    (averageOf? params.avgFrames buffer.length found).bind fun state =>
      (state.apply buffer params.avgWindow).toOption.map fun out =>
        (some (.average out.1), out.2)

theorem ok_of_toOption {ε β : Type} {r : Except ε β} {x : β} (h : r.toOption = some x) : r = .ok x := by
  cases r with
  | error e => cases h
  | ok y => exact congrArg Except.ok (Option.some.inj h)

theorem toOption_gravity [Zero α] (s : StateStore α) (key : StateKey) (len : Nat) :
    (s.gravity key len).toOption = gravityOf? len (s.get? key) := by
  unfold StateStore.gravity gravityOf?
  rcases s.get? key with _ | ⟨_ | _⟩ <;> rfl

theorem toOption_average [Zero α] (s : StateStore α) (key : StateKey) (frames len : Nat) :
    (s.average key frames len).toOption = averageOf? frames len (s.get? key) := by
  unfold StateStore.average averageOf?
  rcases s.get? key with _ | ⟨_ | _⟩ <;> rfl

namespace StateStore

theorem gravity_congr [Zero α] {s s' : StateStore α} {key : StateKey}
    (h : s.get? key = s'.get? key) (len : Nat) : s.gravity key len = s'.gravity key len := by
  unfold gravity
  rw [h]

theorem average_congr [Zero α] {s s' : StateStore α} {key : StateKey}
    (h : s.get? key = s'.get? key) (frames len : Nat) :
    s.average key frames len = s'.average key frames len := by
  unfold average
  rw [h]

/-- What a step leaves: a new state at its own place, or all as it was. -/
def leave (s : StateStore α) (key : StateKey) (buffer : List α) :
    Except TransformError (Option (TransformState α) × List α) → Except TransformError Unit × Work α
  | .ok (left, out) => (.ok (), ⟨out, s.keep key left⟩)
  | .error e => (.error e, ⟨buffer, s⟩)

end StateStore

variable [Signal α] {params : TransformParams α}

/-- What a step does, and how it fails, is told by the buffer and the state at
its own place. -/
theorem run_runStep (key : StateKey) (kind : Transform) (buffer : List α) (s₀ : StateStore α) :
    ∃ r, r.toOption = stepped? params buffer kind (s₀.get? key) ∧
      ∀ s, s.get? key = s₀.get? key →
        (runStep params key kind).run ⟨buffer, s⟩ = s.leave key buffer r := by
  cases kind with
  | window => exact ⟨.ok (none, tapered buffer), rfl, fun _ _ => rfl⟩
  | wrange => exact ⟨.ok (none, ranged buffer), rfl, fun _ _ => rfl⟩
  | smooth => exact ⟨.ok (none, smoothed buffer params.smoothDistance), rfl, fun _ _ => rfl⟩
  | fft =>
    simp only [runStep, run_get_bind, stepped?]
    cases spectrum buffer params.fftScale params.fftCutoff with
    | ok out => exact ⟨.ok (none, out), rfl, fun _ _ => rfl⟩
    | error e => exact ⟨.error e, rfl, fun _ _ => rfl⟩
  | gravity =>
    refine ⟨(s₀.gravity key buffer.length).bind fun state =>
      (state.apply buffer params.gravityDecay).map fun state' =>
        (some (.gravity state'), state'.applied), ?_, fun s hs => ?_⟩
    · rw [stepped?, ← toOption_gravity]
      cases s₀.gravity key buffer.length with
      | error e => rfl
      | ok state =>
        show (Except.map _ (state.apply buffer params.gravityDecay)).toOption = Option.map _ _
        cases state.apply buffer params.gravityDecay <;> rfl
    · rw [← StateStore.gravity_congr hs]
      simp only [runStep, run_get_bind]
      cases s.gravity key buffer.length with
      | error e => rfl
      | ok state =>
        simp only [Except.bind]
        cases state.apply buffer params.gravityDecay <;> rfl
  | average =>
    refine ⟨(s₀.average key params.avgFrames buffer.length).bind fun state =>
      (state.apply buffer params.avgWindow).map fun out =>
        (some (.average out.1), out.2), ?_, fun s hs => ?_⟩
    · rw [stepped?, ← toOption_average]
      cases s₀.average key params.avgFrames buffer.length with
      | error e => rfl
      | ok state =>
        show (Except.map _ (state.apply buffer params.avgWindow)).toOption = Option.map _ _
        cases state.apply buffer params.avgWindow <;> rfl
    · rw [← StateStore.average_congr hs]
      simp only [runStep, run_get_bind]
      cases s.average key params.avgFrames buffer.length with
      | error e => rfl
      | ok state =>
        simp only [Except.bind]
        cases state.apply buffer params.avgWindow <;> rfl

theorem succeeds_runStep {key : StateKey} {kind : Transform} {buffer : List α} {s : StateStore α}
    {w' : Work α} : Succeeds (runStep params key kind) ⟨buffer, s⟩ w' ↔
      ∃ left out, stepped? params buffer kind (s.get? key) = some (left, out) ∧
        w' = ⟨out, s.keep key left⟩ := by
  obtain ⟨r, hstepped, hrun⟩ := @run_runStep _ _ params key kind buffer s
  unfold Succeeds
  rw [hrun s rfl, ← hstepped]
  rcases r with e | ⟨left, out⟩
  · constructor
    · intro h
      cases h
    · rintro ⟨left, out, h, -⟩
      cases h
  · constructor
    · intro h
      cases h
      exact ⟨left, out, rfl, rfl⟩
    · rintro ⟨left', out', h, rfl⟩
      cases h
      rfl

/-! ### Steps in a row -/

/-- What steps in a row, the first of them at place `step`, leave as the states
of their binding and as the buffer, if they succeed. -/
def ran? (params : TransformParams α) : (step : Nat) → List Transform →
    (Nat → Option (TransformState α)) → List α → Option ((Nat → Option (TransformState α)) × List α)
  | _, [], view, buffer => some (view, buffer)
  | step, kind :: rest, view, buffer =>
    (stepped? params buffer kind (view step)).bind fun r =>
      ran? params (step + 1) rest (kept view step r.1) r.2

theorem Chain.run_eq (c : Chain) (params : TransformParams α) (binding : BindingId) :
    c.run params binding = runFrom params binding 0 c.steps := by
  rw [Chain.run, Chain.runSteps, Chain.size, List.take_length, List.drop_zero]

/-- Steps in a row are run by running the first of them and then the others. -/
theorem runFrom_append (binding : BindingId) : ∀ (ts us : List Transform) (step : Nat),
    runFrom params binding step (ts ++ us) = do
      runFrom params binding step ts
      runFrom params binding (step + ts.length) us
  | [], us, step => rfl
  | kind :: ts, us, step => by
    rw [List.cons_append, runFrom, runFrom, bind_assoc, List.length_cons, ← Nat.add_assoc,
      Nat.add_right_comm]
    simp only [runFrom_append binding ts us (step + 1)]

theorem ran?_cons {step : Nat} {kind : Transform} {rest : List Transform}
    {view v : Nat → Option (TransformState α)} {buffer out : List α} :
    ran? params step (kind :: rest) view buffer = some (v, out) ↔
      ∃ left mid, stepped? params buffer kind (view step) = some (left, mid) ∧
        ran? params (step + 1) rest (kept view step left) mid = some (v, out) := by
  rw [ran?, Option.bind_eq_some_iff]
  constructor
  · rintro ⟨⟨left, mid⟩, h, hrest⟩
    exact ⟨left, mid, h, hrest⟩
  · rintro ⟨left, mid, h, hrest⟩
    exact ⟨(left, mid), h, hrest⟩

theorem ran?_append : ∀ (ts us : List Transform) (step : Nat)
    (view : Nat → Option (TransformState α)) (buffer : List α),
    ran? params step (ts ++ us) view buffer =
      (ran? params step ts view buffer).bind fun r => ran? params (step + ts.length) us r.1 r.2
  | [], us, step, view, buffer => rfl
  | kind :: ts, us, step, view, buffer => by
    rw [List.cons_append, ran?, ran?]
    cases stepped? params buffer kind (view step) with
    | none => rfl
    | some r =>
      rw [Option.bind_some, Option.bind_some, ran?_append ts us, List.length_cons, Nat.add_assoc,
        Nat.add_comm 1]

/-- Steps leave the states of all other places as they are. -/
theorem ran?_frame : ∀ {ts : List Transform} {step : Nat} {view v : Nat → Option (TransformState α)}
    {buffer out : List α}, ran? params step ts view buffer = some (v, out) →
    ∀ {k : Nat}, k < step ∨ step + ts.length ≤ k → v k = view k
  | [], step, view, v, buffer, out, h, k, hk => by
    cases h
    rfl
  | kind :: ts, step, view, v, buffer, out, h, k, hk => by
    obtain ⟨left, mid, hstep, hrest⟩ := ran?_cons.1 h
    rw [List.length_cons] at hk
    rw [ran?_frame hrest (by omega), kept_of_ne (by omega)]

/-- Steps do not ask for the states of other places. -/
theorem ran?_congr : ∀ {ts : List Transform} {step : Nat}
    {view view' v : Nat → Option (TransformState α)} {buffer out : List α},
    ran? params step ts view buffer = some (v, out) →
    (∀ k, step ≤ k → k < step + ts.length → view' k = view k) →
    ∃ v', ran? params step ts view' buffer = some (v', out) ∧
      ∀ k, step ≤ k → k < step + ts.length → v' k = v k
  | [], step, view, view', v, buffer, out, h, hagree => by
    cases h
    exact ⟨view', rfl, hagree⟩
  | kind :: ts, step, view, view', v, buffer, out, h, hagree => by
    obtain ⟨left, mid, hstep, hrest⟩ := ran?_cons.1 h
    rw [List.length_cons] at hagree
    have hfirst : view' step = view step := hagree step (Nat.le_refl _) (by omega)
    have hlater : ∀ k, step ≤ k → k < step + (ts.length + 1) →
        kept view' step left k = kept view step left k := by
      intro k hle hlt
      by_cases hk : k = step
      · subst hk
        rw [kept_self, kept_self, hfirst]
      · rw [kept_of_ne hk, kept_of_ne hk, hagree k hle hlt]
    obtain ⟨v', hv', hsame⟩ := ran?_congr hrest fun k hle hlt => hlater k (by omega) (by omega)
    refine ⟨v', ran?_cons.2 ⟨left, mid, by rw [hfirst, hstep], hv'⟩, fun k hle hlt => ?_⟩
    rw [List.length_cons] at hlt
    by_cases hk : k = step
    · rw [ran?_frame hv' (by omega), ran?_frame hrest (by omega), hlater k hle hlt]
    · exact hsame k (by omega) (by omega)

/-! ### Runs on a store -/

/-- What a run on a store does is told by the view of its binding, and the views
of all other bindings stay. -/
theorem view_of_succeeds {binding : BindingId} : ∀ {ts : List Transform} {step : Nat}
    {buffer : List α} {s : StateStore α} {w' : Work α},
    Succeeds (runFrom params binding step ts) ⟨buffer, s⟩ w' →
    ran? params step ts (s.view binding) buffer = some (w'.store.view binding, w'.buffer) ∧
      ∀ b, b ≠ binding → w'.store.view b = s.view b
  | [], step, buffer, s, w', h => by
    cases h
    exact ⟨rfl, fun _ _ => rfl⟩
  | kind :: ts, step, buffer, s, w', h => by
    obtain ⟨w₁, hstep, hrest⟩ := succeeds_bind.1 h
    obtain ⟨left, mid, hstepped, rfl⟩ := succeeds_runStep.1 hstep
    obtain ⟨hran, hothers⟩ := view_of_succeeds hrest
    rw [view_keep_self] at hran
    refine ⟨ran?_cons.2 ⟨left, mid, hstepped, hran⟩, fun b hb => ?_⟩
    rw [hothers b hb, view_keep_ne s hb]

/-- A run succeeds on every store whose view lets it. -/
theorem succeeds_of_view {binding : BindingId} : ∀ {ts : List Transform} {step : Nat}
    {buffer out : List α} {s : StateStore α} {v : Nat → Option (TransformState α)},
    ran? params step ts (s.view binding) buffer = some (v, out) →
    ∃ s', Succeeds (runFrom params binding step ts) ⟨buffer, s⟩ ⟨out, s'⟩ ∧ s'.view binding = v
  | [], step, buffer, out, s, v, h => by
    cases h
    exact ⟨s, rfl, rfl⟩
  | kind :: ts, step, buffer, out, s, v, h => by
    obtain ⟨left, mid, hstepped, hran⟩ := ran?_cons.1 h
    rw [← view_keep_self] at hran
    obtain ⟨s', hrest, hview⟩ := succeeds_of_view hran
    exact ⟨s', succeeds_bind.2 ⟨_, succeeds_runStep.2 ⟨left, mid, hstepped, rfl⟩, hrest⟩, hview⟩

end AudioShader
