/-
# Chains are split anywhere

A step is run at its place in the whole chain, so a run may stop at any place and go on
from there: the two parts do what the whole does, also where one of them fails and where
a place lies behind the end of the chain. The tail that is looked for at the end of a
chain is the longest one there is, and the steps in front of it are what is run here.

Key definitions: `Chain.EndsIn`, `ChainMode.deviceSteps`.
Key theorems: `Chain.runSteps_bind`, `Chain.split?_eq_some_iff`, `chain_splits_anywhere`.
-/
import AudioShader.Proofs.Signal.Offload

namespace AudioShader

/-- A part of a list, cut in two at a place in it. -/
theorem drop_take_append {β : Type} (xs : List β) {a b d : Nat} (h₁ : a ≤ b) (h₂ : b ≤ d) :
    (xs.take b).drop a ++ (xs.take d).drop b = (xs.take d).drop a := by
  have hfront : xs.take b = (xs.take d).take b := by rw [List.take_take, Nat.min_eq_left h₂]
  have hback : (xs.take d).drop b = ((xs.take d).drop a).drop (b - a) := by
    rw [List.drop_drop, Nat.add_sub_cancel' h₁]
  rw [hfront, hback, List.drop_take, List.take_append_drop]

namespace Chain

/-! ### Parts of a run -/

section Run

variable {α : Type} [Signal α] (c : Chain) (params : TransformParams α) (binding : BindingId)

/-- Steps up to a place and then the steps from there on are all of them. -/
theorem runSteps_bind {start mid stop : Nat} (h₁ : start ≤ mid) (h₂ : mid ≤ stop) :
    (do
      c.runSteps start mid params binding
      c.runSteps mid stop params binding) = c.runSteps start stop params binding := by
  unfold runSteps
  rw [← drop_take_append c.steps h₁ h₂, runFrom_append]
  by_cases hmid : mid ≤ c.steps.length
  · have hplace : start + ((c.steps.take mid).drop start).length = mid := by
      rw [List.length_drop, List.length_take]
      omega
    rw [hplace]
  · -- behind the end there are no steps, whatever their place
    have hnone : (c.steps.take stop).drop mid = [] := by
      rw [List.drop_eq_nil_iff, List.length_take]
      omega
    rw [hnone]
    rfl

/-- The first part is run, and if it succeeds the second one goes on from what it left. -/
theorem run_runSteps {start mid stop : Nat} (h₁ : start ≤ mid) (h₂ : mid ≤ stop) (w : Work α) :
    (c.runSteps start stop params binding).run w =
      match (c.runSteps start mid params binding).run w with
      | (.ok _, w') => (c.runSteps mid stop params binding).run w'
      | (.error e, w') => (.error e, w') := by
  rw [← c.runSteps_bind params binding h₁ h₂]
  exact run_bind ..

end Run

/-! ### The tail of a chain -/

variable {c : Chain} {lead : Nat} {tail : Tail}

/-- The chain is its first `lead` steps and a tail, and ends in no longer tail. -/
structure EndsIn (c : Chain) (lead : Nat) (tail : Tail) : Prop where
  steps : c.steps = c.steps.take lead ++ tail.steps
  longest : ∀ t : Tail, t.steps <:+ c.steps → t.steps.length ≤ tail.steps.length

theorem EndsIn.lead_eq (h : c.EndsIn lead tail) : lead = c.size - tail.steps.length := by
  have hlength := congrArg List.length h.steps
  have hpos : 0 < tail.steps.length := by cases tail <;> decide
  rw [List.length_append, List.length_take] at hlength
  rw [size]
  omega

theorem EndsIn.suffix (h : c.EndsIn lead tail) : tail.steps <:+ c.steps := ⟨_, h.steps.symm⟩

/-- No tail ends another one. -/
theorem eq_of_suffix {t t' : Tail} (h : t.steps <:+ c.steps) (h' : t'.steps <:+ c.steps) :
    t = t' := by
  have hlast (t : Tail) (h : t.steps <:+ c.steps) : t.steps.getLast? = c.steps.getLast? := by
    obtain ⟨front, hfront⟩ := h
    rw [← hfront, List.getLast?_append]
    cases t <;> rfl
  have heq := (hlast t h).trans (hlast t' h').symm
  cases t <;> cases t' <;> first | rfl | cases heq

/-- The tail that a chain is split at is the longest that it ends in. -/
theorem split?_eq_some_iff : c.split? = some (lead, tail) ↔ c.EndsIn lead tail := by
  constructor
  · intro h
    obtain ⟨front, hsteps, hlead⟩ := steps_of_split? h
    have hsuffix : tail.steps <:+ c.steps := ⟨front, hsteps.symm⟩
    refine ⟨?_, fun t ht => ?_⟩
    · rw [← hlead]
      conv_rhs => rw [hsteps, List.take_left]
      exact hsteps
    · rw [eq_of_suffix ht hsuffix]
  · intro h
    unfold split?
    have hfound : ([Tail.fftGravityAverage, .fftGravity, .fft].find? fun t =>
        t.steps.isSuffixOf c.steps) = some tail := by
      cases hfind : [Tail.fftGravityAverage, .fftGravity, .fft].find? fun t =>
          t.steps.isSuffixOf c.steps with
      | none =>
        have hmem : tail ∈ [Tail.fftGravityAverage, .fftGravity, .fft] := by cases tail <;> decide
        exact absurd (List.isSuffixOf_iff_suffix.2 h.suffix) (List.find?_eq_none.1 hfind tail hmem)
      | some t =>
        have hsuffix := List.find?_some hfind
        rw [List.isSuffixOf_iff_suffix] at hsuffix
        rw [eq_of_suffix hsuffix h.suffix]
    rw [hfound, h.lead_eq]
    rfl

/-- A chain is split exactly if it ends in a tail. -/
theorem isSome_split?_iff : c.split?.isSome = true ↔ ∃ t : Tail, t.steps <:+ c.steps := by
  constructor
  · intro h
    obtain ⟨⟨lead, tail⟩, hsplit⟩ := Option.isSome_iff_exists.1 h
    exact ⟨tail, (split?_eq_some_iff.1 hsplit).suffix⟩
  · rintro ⟨tail, front, hsteps⟩
    have hends : c.EndsIn front.length tail := by
      refine ⟨?_, fun t ht => ?_⟩
      · rw [← hsteps, List.take_left]
      · rw [eq_of_suffix ht ⟨front, hsteps⟩]
    rw [split?_eq_some_iff.2 hends]
    rfl

end Chain

/-! ### Where the steps run -/

namespace ChainMode

/-- The steps that the device runs. -/
def deviceSteps : ChainMode → List Transform
  | .cpu => []
  | .offloaded _ tail => tail.steps

variable {c : Chain} {wanted able : Bool}

theorem decide_eq_offloaded_iff {lead : Nat} {tail : Tail} :
    decide c wanted able = .offloaded lead tail ↔
      wanted = true ∧ able = true ∧ c.EndsIn lead tail := by
  rw [← Chain.split?_eq_some_iff]
  unfold decide
  cases hsplit : c.split? with
  | none => simp
  | some found => cases wanted <;> cases able <;> simp [Prod.ext_iff]

/-- The steps that run here and those that the device runs are the chain. -/
theorem take_cpuSteps_append (c : Chain) (wanted able : Bool) :
    c.steps.take ((decide c wanted able).cpuSteps c) ++ (decide c wanted able).deviceSteps =
      c.steps := by
  cases hmode : decide c wanted able with
  | cpu => rw [cpuSteps, deviceSteps, Chain.size, List.take_length, List.append_nil]
  | offloaded lead tail => exact (decide_eq_offloaded_iff.1 hmode).2.2.steps.symm

end ChainMode

/-- **Chains are split anywhere.** For places in order, all steps from the first to the
last do what the steps up to the one between do, followed, if they succeed, by those from
there on: the result, the buffer and the states are the same. A chain is split exactly if
it ends in a tail, and then into its first steps and the longest tail that it ends in;
the steps that run here and those that the device runs are always the chain. -/
theorem chain_splits_anywhere {α : Type} [Signal α] (c : Chain) :
    (∀ (params : TransformParams α) (binding : BindingId) (w : Work α) (start mid stop : Nat),
      start ≤ mid → mid ≤ stop → (c.runSteps start stop params binding).run w =
        match (c.runSteps start mid params binding).run w with
        | (.ok _, w') => (c.runSteps mid stop params binding).run w'
        | (.error e, w') => (.error e, w')) ∧
      (c.split?.isSome = true ↔ ∃ t : Tail, t.steps <:+ c.steps) ∧
      (∀ lead tail, c.split? = some (lead, tail) ↔ c.EndsIn lead tail) ∧
      ∀ wanted able, let mode := ChainMode.decide c wanted able
        (∀ lead tail, mode = .offloaded lead tail ↔
          wanted = true ∧ able = true ∧ c.split? = some (lead, tail)) ∧
        c.steps.take (mode.cpuSteps c) ++ mode.deviceSteps = c.steps := by
  refine ⟨fun params binding w start mid stop h₁ h₂ => c.run_runSteps params binding h₁ h₂ w,
    Chain.isSome_split?_iff, fun lead tail => Chain.split?_eq_some_iff, fun wanted able => ?_⟩
  refine ⟨fun lead tail => ?_, ChainMode.take_cpuSteps_append c wanted able⟩
  rw [Chain.split?_eq_some_iff]
  exact ChainMode.decide_eq_offloaded_iff

/-- A chain that keeps a state in front of a step that fails on three samples. -/
def failingChain : Chain := ⟨[.gravity, .fft, .gravity]⟩

/-- What its first step leaves. -/
def behindGravity : Work Float32 :=
  ((failingChain.runSteps 0 1 .default ⟨7⟩).run ⟨[1, 2, 3], {}⟩).2

/-- It fails at its second step, whether it is split behind the first one or not, and the
state of the first step stays. -/
theorem chain_splits_at_failure :
    0 ≤ 1 ∧ 1 ≤ 9 ∧ (failingChain.runSteps 0 9 .default ⟨7⟩).run ⟨[1, 2, 3], {}⟩ =
        (failingChain.runSteps 1 9 .default ⟨7⟩).run behindGravity ∧
      ((failingChain.runSteps 1 9 .default ⟨7⟩).run behindGravity).1 = .error (.notPowerOfTwo 3) ∧
      (behindGravity.store.get? ⟨⟨7⟩, 0⟩).isSome = true := by
  obtain ⟨hrun, -⟩ := chain_splits_anywhere (α := Float32) failingChain
  exact ⟨Nat.zero_le 1, by decide,
    hrun .default ⟨7⟩ ⟨[1, 2, 3], {}⟩ 0 1 9 (Nat.zero_le 1) (by decide), rfl, by decide⟩

end AudioShader
