/-
# States are sized once

A step makes its state for the length of the buffer that it first sees, and an
average for the number of frames that is asked for then. Both stay as they are
until the binding is released, whatever chains, parameters and buffers come
later: what does not go with the state of its place is refused, and the state
stays as it was.

Key definitions: `AverageState.Regular`, `StateSize`, `TransformState.size`,
`StateStore.Retains`, `Chain.Meets`.
Key theorems: `sized_of_stepped?`, `retains_runFrom`, `retains_leftBy`,
`Chain.Meets.refuses_kind`, `Chain.Meets.refuses_len`.
-/
import AudioShader.Proofs.Signal.Apart
import AudioShader.Proofs.Signal.Average

namespace AudioShader

variable {α : Type}

/-! ### Sizes -/

namespace AverageState

/-- The next frame has its place in the ring, and all frames are of one length. -/
structure Regular (s : AverageState α) : Prop where
  next_lt : s.next < s.frames
  length_eq : ∀ frame ∈ s.history, frame.length = s.len

theorem regular_new [Signal α] (frames len : Nat) : (new frames len : AverageState α).Regular where
  next_lt := by
    rw [frames_new]
    exact Nat.lt_of_lt_of_le Nat.zero_lt_one (Nat.le_max_right ..)
  length_eq frame hframe := by
    rw [List.eq_of_mem_replicate hframe, List.length_replicate, len_new]

/-- An update keeps the ring as large as it is, with frames of the same length. -/
theorem Regular.apply [Signal α] {s s' : AverageState α} (h : s.Regular) {input output : List α}
    {windowed : Bool} (happly : s.apply input windowed = .ok (s', output)) :
    s'.Regular ∧ s'.frames = s.frames ∧ s'.len = s.len := by
  by_cases hlen : s.len = input.length
  swap
  · rw [AverageState.apply, if_pos hlen] at happly
    cases happly
  obtain ⟨s₁, output₁, happly₁, hlen₁, -⟩ := apply_of_len hlen windowed
  cases happly.symm.trans happly₁
  rw [AverageState.apply, if_neg (by simpa using hlen)] at happly
  split at happly
  · next hone =>
    cases happly
    have hnext : s.next < 1 := hone ▸ h.next_lt
    refine ⟨⟨hnext, fun frame hframe => ?_⟩, hone.symm, hlen₁⟩
    rw [List.mem_singleton.1 hframe]
    rfl
  · cases happly
    refine ⟨⟨next_push_lt h.next_lt input, fun frame hframe => ?_⟩, frames_push .., hlen₁⟩
    rw [hlen₁]
    rcases List.mem_or_eq_of_mem_set hframe with hframe | rfl
    · exact h.length_eq frame hframe
    · exact hlen.symm

end AverageState

/-- What a state was made for. -/
structure StateSize where
  kind : Transform
  /-- The length of the buffers. -/
  len : Nat
  /-- The number of frames of an average. -/
  frames : Option Nat

/-- What a step makes a state for. -/
def StateSize.ofStep (params : TransformParams α) (kind : Transform) (len : Nat) : StateSize :=
  ⟨kind, len, if kind = .average then some (max params.avgFrames 1) else none⟩

namespace TransformState

def size : TransformState α → StateSize
  | .gravity s => ⟨.gravity, s.len, none⟩
  | .average s => ⟨.average, s.len, some s.frames⟩

/-- The ring of an average is regular. -/
def Regular : TransformState α → Prop
  | .gravity _ => True
  | .average s => s.Regular

end TransformState

/-! ### Stores -/

namespace StateStore

/-- All rings of averages are regular. -/
def Regular (s : StateStore α) : Prop := ∀ key st, s.get? key = some st → st.Regular

/-- Every state of a store is there in another one, of the same size. -/
def Retains (s s' : StateStore α) : Prop :=
  ∀ key st, s.get? key = some st → ∃ st', s'.get? key = some st' ∧ st'.size = st.size

theorem Retains.refl (s : StateStore α) : s.Retains s := fun _ st h => ⟨st, h, rfl⟩

theorem Retains.trans {s s' s'' : StateStore α} (h : s.Retains s') (h' : s'.Retains s'') :
    s.Retains s'' := by
  intro key st hst
  obtain ⟨st', hst', hsize⟩ := h key st hst
  obtain ⟨st'', hst'', hsize'⟩ := h' key st' hst'
  exact ⟨st'', hst'', hsize'.trans hsize⟩

theorem Regular.put {s : StateStore α} (h : s.Regular) {key : StateKey} {left : TransformState α}
    (hleft : left.Regular) : (s.put key left).Regular := by
  intro k st hst
  rw [get?_put] at hst
  split at hst
  · cases hst
    exact hleft
  · exact h k st hst

theorem retains_put {s : StateStore α} {key : StateKey} {left : TransformState α}
    (hsize : ∀ st, s.get? key = some st → left.size = st.size) : s.Retains (s.put key left) := by
  intro k st hst
  rw [get?_put]
  split
  · next hk =>
    subst hk
    exact ⟨left, rfl, hsize st hst⟩
  · exact ⟨st, hst, rfl⟩

end StateStore

/-! ### Steps -/

variable [Signal α] {params : TransformParams α}

/-- A state that a step leaves is of the size of the one that was there; a new
one is of the size of the step. -/
theorem sized_of_stepped? {buffer out : List α} {kind : Transform}
    {found : Option (TransformState α)} (hfound : ∀ st, found = some st → st.Regular) {left : TransformState α}
    (h : stepped? params buffer kind found = some (some left, out)) :
    left.Regular ∧
      left.size = (found.map TransformState.size).getD (.ofStep params kind buffer.length) := by
  cases kind with
  | gravity =>
    obtain ⟨s, hs, h⟩ := Option.bind_eq_some_iff.1 h
    obtain ⟨s', hs', h⟩ := Option.map_eq_some_iff.1 h
    cases h
    have hlen := GravityState.len_apply (ok_of_toOption hs')
    refine ⟨trivial, ?_⟩
    rcases found with _ | ⟨s₀ | s₀⟩
    · cases hs
      simp [TransformState.size, StateSize.ofStep, hlen, GravityState.len_new]
    · cases hs
      simp [TransformState.size, hlen]
    · cases hs
  | average =>
    obtain ⟨s, hs, h⟩ := Option.bind_eq_some_iff.1 h
    obtain ⟨⟨s', output⟩, hs', h⟩ := Option.map_eq_some_iff.1 h
    cases h
    rcases found with _ | ⟨s₀ | s₀⟩
    · cases hs
      obtain ⟨hregular, hframes, hlen⟩ := (AverageState.regular_new ..).apply (ok_of_toOption hs')
      refine ⟨hregular, ?_⟩
      simp [TransformState.size, StateSize.ofStep, hlen, hframes, AverageState.len_new]
    · cases hs
    · cases hs
      obtain ⟨hregular, hframes, hlen⟩ :=
        AverageState.Regular.apply (hfound _ rfl) (ok_of_toOption hs')
      refine ⟨hregular, ?_⟩
      simp [TransformState.size, hlen, hframes]
  | fft =>
    obtain ⟨out', -, h⟩ := Option.map_eq_some_iff.1 h
    cases h
  | window | wrange | smooth => cases h

/-- However a step ends, it retains all states. -/
theorem retains_runStep (params : TransformParams α) (key : StateKey) (kind : Transform)
    {w : Work α} (h : w.store.Regular) :
    ((runStep params key kind).run w).2.store.Regular ∧
      w.store.Retains ((runStep params key kind).run w).2.store := by
  obtain ⟨r, hstepped, hrun⟩ := @run_runStep _ _ params key kind w.buffer w.store
  rw [show w = ⟨w.buffer, w.store⟩ from rfl, hrun w.store rfl]
  rcases r with e | ⟨_ | left, out⟩
  · exact ⟨h, .refl w.store⟩
  · exact ⟨h, .refl w.store⟩
  · obtain ⟨hregular, hsize⟩ := sized_of_stepped? (h key) hstepped.symm
    refine ⟨h.put hregular, StateStore.retains_put fun st hst => ?_⟩
    rw [hsize, hst]
    rfl

theorem retains_runFrom (params : TransformParams α) (binding : BindingId) :
    ∀ (step : Nat) (kinds : List Transform) {w : Work α}, w.store.Regular →
    ((runFrom params binding step kinds).run w).2.store.Regular ∧
      w.store.Retains ((runFrom params binding step kinds).run w).2.store
  | _, [], w, h => ⟨h, .refl w.store⟩
  | step, kind :: rest, w, h => by
    obtain ⟨hregular, hretains⟩ := retains_runStep params ⟨binding, step⟩ kind h
    rw [runFrom, run_bind]
    rcases hrun : (runStep params ⟨binding, step⟩ kind).run w with ⟨e | u, w₁⟩
    · rw [hrun] at hregular hretains
      exact ⟨hregular, hretains⟩
    · rw [hrun] at hregular hretains
      obtain ⟨hregular', hretains'⟩ := retains_runFrom params binding (step + 1) rest hregular
      exact ⟨hregular', hretains.trans hretains'⟩

/-! ### Calls -/

/-- A call retains all states but those of a binding that it releases. -/
theorem StoreCall.retains_perform (c : StoreCall α) {s : StateStore α} (h : s.Regular) :
    (c.perform s).2.Regular ∧ ∀ key st, c ≠ .release key.binding → s.get? key = some st →
      ∃ st', (c.perform s).2.get? key = some st' ∧ st'.size = st.size := by
  cases c with
  | run c params binding buffer =>
    obtain ⟨hregular, hretains⟩ := retains_runFrom params binding 0
      ((c.steps.take c.size).drop 0) (w := ⟨buffer, s⟩) h
    exact ⟨hregular, fun key st _ => hretains key st⟩
  | runSteps c start stop params binding buffer =>
    obtain ⟨hregular, hretains⟩ := retains_runFrom params binding start
      ((c.steps.take stop).drop start) (w := ⟨buffer, s⟩) h
    exact ⟨hregular, fun key st _ => hretains key st⟩
  | release binding =>
    have hget (key : StateKey) : (s.release binding).get? key =
        if key.binding = binding then none else s.get? key := by
      have := congrFun (s.view_release binding key.binding) key.step
      rw [apply_ite (fun view : Nat → Option (TransformState α) => view key.step)] at this
      exact this
    constructor
    · intro key st hst
      have hst : (s.release binding).get? key = some st := hst
      rw [hget] at hst
      split at hst
      · cases hst
      · exact h key st hst
    · intro key st hkey hst
      have hne : key.binding ≠ binding := fun heq => hkey (heq ▸ rfl)
      exact ⟨st, (hget key).trans ((if_neg hne).trans hst), rfl⟩

theorem leftBy_append (calls more : List (StoreCall α)) (s : StateStore α) :
    leftBy (calls ++ more) s = leftBy more (leftBy calls s) := List.foldl_append

theorem regular_leftBy : ∀ (calls : List (StoreCall α)) {s : StateStore α}, s.Regular →
    (leftBy calls s).Regular
  | [], _, h => h
  | c :: calls, _, h => regular_leftBy calls (c.retains_perform h).1

/-- While a binding is not released its states stay, as large as they are. -/
theorem retains_leftBy : ∀ (calls : List (StoreCall α)) {s : StateStore α}, s.Regular →
    ∀ {key : StateKey} {st : TransformState α}, (∀ c ∈ calls, c ≠ .release key.binding) →
    s.get? key = some st → ∃ st', (leftBy calls s).get? key = some st' ∧ st'.size = st.size
  | [], _, _, _, st, _, hst => ⟨st, hst, rfl⟩
  | c :: calls, s, h, key, st, hcalls, hst => by
    rw [List.forall_mem_cons] at hcalls
    obtain ⟨hregular, hretains⟩ := c.retains_perform h
    obtain ⟨st₁, hst₁, hsize₁⟩ := hretains key st hcalls.1 hst
    obtain ⟨st', hst', hsize'⟩ := retains_leftBy calls hregular hcalls.2 hst₁
    exact ⟨st', hst', hsize'.trans hsize₁⟩

/-! ### Refusals -/

namespace Chain

/-- Steps `start` to `stop` of a chain, begun with `w₀`, come to step `i`, which
then works on `w` and finds a state at its place. A run of the chain is one of
all its steps. -/
structure Meets (c : Chain) (params : TransformParams α) (binding : BindingId) (start stop : Nat)
    (w₀ : Work α) (i : Nat) (kind : Transform) (found : TransformState α) (w : Work α) : Prop where
  start_le : start ≤ i
  lt_stop : i < stop
  step : c.steps[i]? = some kind
  before : Succeeds (c.runSteps start i params binding) w₀ w
  finds : w.store.get? ⟨binding, i⟩ = some found

namespace Meets

variable {c : Chain} {binding : BindingId} {start stop i : Nat} {w₀ w : Work α} {kind : Transform}
  {found : TransformState α}

/-- The steps before leave the state alone. -/
theorem found_before (h : c.Meets params binding start stop w₀ i kind found w) :
    w₀.store.get? ⟨binding, i⟩ = some found := by
  obtain ⟨hran, -⟩ := view_of_succeeds
    (show Succeeds (runFrom params binding start _) ⟨w₀.buffer, w₀.store⟩ w from h.before)
  have hi : i < c.steps.length := (List.getElem?_eq_some_iff.1 h.step).1
  have hbehind : start + ((c.steps.take i).drop start).length ≤ i := by
    have := h.start_le
    rw [List.length_drop, List.length_take]
    omega
  exact (ran?_frame hran (.inr hbehind)).symm.trans h.finds

/-- If the step fails, so does the run, and all stays as the step left it. -/
theorem fails (h : c.Meets params binding start stop w₀ i kind found w) {e : TransformError}
    {w' : Work α} (hstep : (runStep params ⟨binding, i⟩ kind).run w = (.error e, w')) :
    (c.runSteps start stop params binding).run w₀ = (.error e, w') := by
  have hi : i < c.steps.length := (List.getElem?_eq_some_iff.1 h.step).1
  have hstart := h.start_le
  have hat : (c.steps.take stop)[i]? = some kind := by
    rw [List.getElem?_take_of_lt h.lt_stop, h.step]
  obtain ⟨hlt, hget⟩ := List.getElem?_eq_some_iff.1 hat
  have htake : (c.steps.take stop).take i = c.steps.take i := by
    rw [List.take_take, Nat.min_eq_left h.lt_stop.le]
  have hsplit : (c.steps.take stop).drop start =
      (c.steps.take i).drop start ++ kind :: (c.steps.take stop).drop (i + 1) := by
    rw [← hget, ← List.drop_eq_getElem_cons hlt, ← htake,
      ← List.drop_append_of_le_length (by rw [htake, List.length_take]; omega), List.take_append_drop]
  have hplace : start + ((c.steps.take i).drop start).length = i := by
    rw [List.length_drop, List.length_take]
    omega
  have hbefore : (runFrom params binding start ((c.steps.take i).drop start)).run w₀ = (.ok (), w) :=
    h.before
  rw [runSteps, hsplit, runFrom_append, run_bind, hbefore, hplace, runFrom]
  dsimp only
  rw [run_bind, hstep]

/-- Another transform's state is refused. -/
theorem refuses_kind (h : c.Meets params binding start stop w₀ i kind found w)
    (hstateful : kind.isStateful = true) (hkind : found.kind ≠ kind) :
    (c.runSteps start stop params binding).run w₀ =
      (.error (.stateMismatch binding.number i found.kind), w) := by
  refine h.fails ?_
  cases kind with
  | gravity =>
    cases found with
    | gravity s => exact absurd rfl hkind
    | average s =>
      simp only [runStep, run_get_bind, StateStore.gravity, h.finds]
      rfl
  | average =>
    cases found with
    | gravity s =>
      simp only [runStep, run_get_bind, StateStore.average, h.finds]
      rfl
    | average s => exact absurd rfl hkind
  | window | fft | wrange | smooth => cases hstateful

/-- A state for buffers of another length is refused. -/
theorem refuses_len (h : c.Meets params binding start stop w₀ i kind found w)
    (hkind : found.kind = kind) (hlen : found.len ≠ w.buffer.length) :
    (c.runSteps start stop params binding).run w₀ =
      (.error (.bufferLength kind found.len w.buffer.length), w) := by
  refine h.fails ?_
  subst hkind
  cases found with
  | gravity s =>
    have happly : s.apply w.buffer params.gravityDecay =
        .error (.bufferLength .gravity s.len w.buffer.length) := if_neg hlen
    simp only [runStep, TransformState.kind, run_get_bind, StateStore.gravity, h.finds, happly]
    rfl
  | average s =>
    have happly : s.apply w.buffer params.avgWindow =
        .error (.bufferLength .average s.len w.buffer.length) := if_pos hlen
    simp only [runStep, TransformState.kind, run_get_bind, StateStore.average, h.finds, happly]
    rfl

end Meets
end Chain

/-- **States are sized once.** After any calls on a new store every ring has its
next place inside and frames of one length, and whatever is called behind them, a
state keeps its transform, its length and its number of frames until its binding
is released. A step that meets the state of another transform, or one for buffers
of another length, fails for just that, and the state is what it was before the
call. -/
theorem sized_once (calls : List (StoreCall α)) :
    (leftBy calls {}).Regular ∧
      (∀ more key st, (leftBy calls {}).get? key = some st →
        (∀ c ∈ more, c ≠ .release key.binding) →
        ∃ st', (leftBy (calls ++ more) {}).get? key = some st' ∧ st'.size = st.size) ∧
      ∀ (c : Chain) (params : TransformParams α) (binding : BindingId) (start stop : Nat)
        (buffer : List α) (i : Nat) (kind : Transform) (found : TransformState α) (w : Work α),
        c.Meets params binding start stop ⟨buffer, leftBy calls {}⟩ i kind found w →
        w.store.get? ⟨binding, i⟩ = (leftBy calls {}).get? ⟨binding, i⟩ ∧
          (kind.isStateful = true → found.kind ≠ kind →
            (StoreCall.runSteps c start stop params binding buffer).perform (leftBy calls {}) =
              (some (.error (.stateMismatch binding.number i found.kind), w.buffer), w.store)) ∧
          (found.kind = kind → found.len ≠ w.buffer.length →
            (StoreCall.runSteps c start stop params binding buffer).perform (leftBy calls {}) =
              (some (.error (.bufferLength kind found.len w.buffer.length), w.buffer), w.store)) := by
  have hempty : StateStore.Regular ({} : StateStore α) := fun _ _ h => nomatch h
  have hregular := regular_leftBy calls hempty
  refine ⟨hregular, fun more key st hst hmore => ?_, ?_⟩
  · rw [leftBy_append]
    exact retains_leftBy more hregular hmore hst
  · intro c params binding start stop buffer i kind found w h
    refine ⟨h.finds.trans h.found_before.symm, fun hstateful hkind => ?_, fun hkind hlen => ?_⟩
    · rw [StoreCall.perform, h.refuses_kind hstateful hkind]
    · rw [StoreCall.perform, h.refuses_len hkind hlen]

/-- Parameters for averages of three frames. -/
noncomputable def threeFrames : TransformParams ℝ where
  bufferLen := 2
  updateRate := 1
  gravityStep := 1
  avgFrames := 3
  avgWindow := false
  fftScale := 1
  fftCutoff := 0
  smoothDistance := 0

/-- Gravity where an average has its state. -/
theorem sized_once_reusedPlace :
    (StoreCall.runSteps ⟨[.gravity]⟩ 0 1 threeFrames ⟨7⟩ [1, 2]).perform
        (leftBy [.run ⟨[.average]⟩ threeFrames ⟨7⟩ [4, 8]] {}) =
      (some (.error (.stateMismatch 7 0 .average), [1, 2]),
        leftBy [.run ⟨[.average]⟩ threeFrames ⟨7⟩ [4, 8]] {}) := by
  obtain ⟨-, -, hmeets⟩ := sized_once [.run ⟨[.average]⟩ threeFrames ⟨7⟩ [4, 8]]
  exact (hmeets ⟨[.gravity]⟩ threeFrames ⟨7⟩ 0 1 [1, 2] 0 .gravity
    (.average ⟨[[4, 8], [0, 0], [0, 0]], 1⟩) _
    ⟨le_refl 0, Nat.one_pos, rfl, rfl, rfl⟩).2.1 rfl (by decide)

end AudioShader
