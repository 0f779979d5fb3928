/-
# Gravity in closed form

In exact arithmetic one update takes the larger of the value and its input and
lets it sink by the decay. So after any inputs the value is the highest of what
is left of them: each has sunk by one decay for every update since, its own
included, and so has the zero of the beginning. An input that is held, under a
positive decay, is reached in the end, and the value then rests one decay below
it.

Key definitions: `crest`, `column`, `GravityState.feed`.
Key theorems: `foldl_fall`, `crest_append_replicate`, `GravityState.feed_eq`,
`feed_eq_crest`, `feed_held_reaches`.
-/
import Mathlib.Data.Finset.Fold
import Mathlib.Data.List.GetD
import Mathlib.Order.Filter.AtTopBot.Archimedean
import AudioShader.Proofs.Signal.Ready

namespace AudioShader

/-! ### One place -/

/-- The highest of what is left of some inputs: the zero of the beginning has
sunk at each update, and an input at its own update and all later ones. -/
def crest (decay : ℝ) (inputs : List ℝ) : ℝ :=
  (Finset.range inputs.length).fold max (-(inputs.length * decay))
    fun i => inputs.getD i 0 - (inputs.length - i) * decay

theorem fall_real (decay applied input : ℝ) : fall decay applied input = max applied input - decay := by
  unfold fall
  split
  · next h => rw [max_eq_right (of_decide_eq_true h)]
  · next h => rw [max_eq_left (not_le.1 fun hle => h (decide_eq_true hle)).le]

@[simp] theorem crest_nil (decay : ℝ) : crest decay [] = 0 := by simp [crest]

theorem crest_concat (decay : ℝ) (inputs : List ℝ) (x : ℝ) :
    crest decay (inputs ++ [x]) = fall decay (crest decay inputs) x := by
  -- what was left of the earlier inputs has sunk by one decay
  have hsunk : ∀ i ∈ Finset.range inputs.length,
      (inputs ++ [x]).getD i 0 - ((inputs.length + 1 : ℕ) - i) * decay =
        inputs.getD i 0 - (inputs.length - i) * decay - decay := by
    intro i hi
    rw [List.getD_append _ _ _ _ (Finset.mem_range.1 hi)]
    push_cast
    ring
  have hlast : (inputs ++ [x]).getD inputs.length 0 -
      ((inputs.length + 1 : ℕ) - inputs.length) * decay = x - decay := by
    rw [List.getD_append_right _ _ _ _ (le_refl _), Nat.sub_self, List.getD_cons_zero]
    push_cast
    ring
  have hzero : -(((inputs.length + 1 : ℕ) : ℝ) * decay) = -(inputs.length * decay) - decay := by
    push_cast
    ring
  have hfold : (Finset.range inputs.length).fold max (-(inputs.length * decay) - decay)
      (fun i => inputs.getD i 0 - (inputs.length - i) * decay - decay) = crest decay inputs - decay :=
    Finset.fold_hom (m := fun y : ℝ => y - decay) fun a b => (max_sub_sub_right a b decay).symm
  rw [crest, List.length_append, List.length_singleton, Finset.range_add_one,
    Finset.fold_insert Finset.notMem_range_self, hlast, Finset.fold_congr hsunk, hzero, hfold,
    max_sub_sub_right, fall_real, max_comm]

/-- **The value at a place is the highest of what is left of its inputs.** -/
theorem foldl_fall (decay : ℝ) (inputs : List ℝ) :
    inputs.foldl (fall decay) 0 = crest decay inputs := by
  induction inputs using List.reverseRecOn with
  | nil => rw [crest_nil]; rfl
  | append_singleton inputs x ih => rw [List.foldl_concat, ih, crest_concat]

/-- While an input is held the value sinks, but not below one decay under it. -/
theorem crest_append_replicate {decay : ℝ} (hdecay : 0 ≤ decay) (inputs : List ℝ) (held : ℝ)
    (n : ℕ) : crest decay (inputs ++ List.replicate (n + 1) held) =
      max (crest decay inputs - (n + 1) * decay) (held - decay) := by
  induction n with
  | zero =>
    rw [List.replicate_one, crest_concat, fall_real, ← max_sub_sub_right]
    simp
  | succ n ih =>
    have hsunk : held - decay ≤ held := sub_le_self held hdecay
    rw [List.replicate_succ', ← List.append_assoc, crest_concat, ih, fall_real, max_assoc,
      max_eq_right hsunk, ← max_sub_sub_right]
    congr 1
    push_cast
    ring

/-- A held input is reached, whatever came before it. -/
theorem eventually_crest_append_replicate {decay : ℝ} (hdecay : 0 < decay) (inputs : List ℝ)
    (held : ℝ) : ∀ᶠ n in Filter.atTop, crest decay (inputs ++ List.replicate n held) = held - decay := by
  obtain ⟨N, hN⟩ := exists_nat_ge ((crest decay inputs - held) / decay)
  filter_upwards [Filter.eventually_gt_atTop N] with n hn
  obtain ⟨m, rfl⟩ : ∃ m, n = m + 1 := ⟨n - 1, by omega⟩
  have hdeep : crest decay inputs - held ≤ m * decay := by
    rw [← div_le_iff₀ hdecay]
    exact hN.trans (by exact_mod_cast Nat.lt_succ_iff.1 hn)
  rw [crest_append_replicate hdecay.le, max_eq_right]
  linarith

/-! ### Whole buffers -/

variable {α : Type}

/-- What some buffers have at one place. -/
def column [Zero α] (place : Nat) (inputs : List (List α)) : List α :=
  inputs.map fun input => input.getD place 0

/-- A buffer, place by place. -/
theorem map_getD_range [Zero α] {buffer : List α} {len : ℕ} (h : buffer.length = len) :
    (List.range len).map (fun place => buffer.getD place 0) = buffer := by
  refine List.ext_getElem (by simp [h]) fun place h₁ h₂ => ?_
  simp [h₂]

namespace GravityState

variable [Sample α]

/-- Updates, one after the other. -/
def feed (decay : α) (s : GravityState α) (inputs : List (List α)) :
    Except TransformError (GravityState α) :=
  inputs.foldlM (fun s input => s.apply input decay) s

theorem apply_of_len {s : GravityState α} {input : List α} (h : input.length = s.len) (decay : α) :
    s.apply input decay = .ok ⟨(List.range s.len).map fun place =>
      fall decay (s.applied.getD place 0) (input.getD place 0)⟩ := by
  rw [apply, if_pos h.symm]
  congr 2
  refine List.ext_getElem ?_ fun place h₁ h₂ => ?_
  · simp [len] at h ⊢
    omega
  · simp [len] at h h₁ ⊢
    rw [List.getElem?_eq_getElem h₁.1, List.getElem?_eq_getElem h₁.2]
    rfl

/-- Every place goes its own way. -/
theorem feed_eq (decay : α) : ∀ {inputs : List (List α)} (s : GravityState α),
    (∀ input ∈ inputs, input.length = s.len) →
    s.feed decay inputs = .ok ⟨(List.range s.len).map fun place =>
      (column place inputs).foldl (fall decay) (s.applied.getD place 0)⟩
  | [], s, _ => by
    show Except.ok s = .ok ⟨(List.range s.len).map fun place => s.applied.getD place 0⟩
    rw [map_getD_range (show s.applied.length = s.len from rfl)]
  | input :: rest, s, h => by
    rw [List.forall_mem_cons] at h
    have hlen : (GravityState.mk ((List.range s.len).map fun place =>
        fall decay (s.applied.getD place 0) (input.getD place 0))).len = s.len := by simp [len]
    have hrest := feed_eq decay _ fun x (hx : x ∈ rest) => (h.2 x hx).trans hlen.symm
    rw [hlen] at hrest
    rw [feed, List.foldlM_cons, apply_of_len h.1]
    refine hrest.trans ?_
    congr 2
    refine List.map_congr_left fun place hplace => ?_
    have hfirst : ((List.range s.len).map fun place =>
        fall decay (s.applied.getD place 0) (input.getD place 0)).getD place 0 =
          fall decay (s.applied.getD place 0) (input.getD place 0) := by
      simp [List.mem_range.1 hplace]
    rw [hfirst]
    rfl

end GravityState

theorem feed_eq_crest {len : ℕ} {inputs : List (List ℝ)} (h : ∀ input ∈ inputs, input.length = len)
    (decay : ℝ) : GravityState.feed decay (.new len) inputs =
      .ok ⟨(List.range len).map fun place => crest decay (column place inputs)⟩ := by
  have hlen : (GravityState.new len : GravityState ℝ).len = len := GravityState.len_new len
  rw [GravityState.feed_eq decay _ fun input hinput => (h input hinput).trans hlen.symm, hlen]
  congr 2
  refine List.map_congr_left fun place hplace => ?_
  have hzero : (GravityState.new len : GravityState ℝ).applied.getD place 0 = 0 := by
    simp [GravityState.new, List.mem_range.1 hplace]
  rw [hzero, foldl_fall]

/-! ### Held inputs -/

section Held

variable {len : ℕ} {inputs : List (List ℝ)} (hinputs : ∀ input ∈ inputs, input.length = len)
  {held : List ℝ} (hheld : held.length = len)

theorem column_append_replicate (place n : ℕ) : column place (inputs ++ List.replicate n held) =
    column place inputs ++ List.replicate n (held.getD place 0) := by
  simp [column]

include hinputs hheld

theorem feed_held (decay : ℝ) (n : ℕ) :
    GravityState.feed decay (.new len) (inputs ++ List.replicate n held) =
      .ok ⟨(List.range len).map fun place =>
        crest decay (column place inputs ++ List.replicate n (held.getD place 0))⟩ := by
  have hall : ∀ input ∈ inputs ++ List.replicate n held, input.length = len := by
    intro input hinput
    rcases List.mem_append.1 hinput with hinput | hinput
    · exact hinputs input hinput
    · rw [List.eq_of_mem_replicate hinput, hheld]
  simp only [feed_eq_crest hall, column_append_replicate]

/-- A buffer that is held is reached: each place reaches its own input, and there
are finitely many. -/
theorem feed_held_reaches {decay : ℝ} (hdecay : 0 < decay) : ∃ N, ∀ n ≥ N,
    GravityState.feed decay (.new len) (inputs ++ List.replicate n held) =
      .ok ⟨held.map fun x => x - decay⟩ := by
  have hreached : ∀ᶠ n in Filter.atTop, ∀ place ∈ Finset.range len,
      crest decay (column place inputs ++ List.replicate n (held.getD place 0)) =
        held.getD place 0 - decay :=
    (Filter.eventually_all_finset _).2 fun place _ =>
      eventually_crest_append_replicate hdecay (column place inputs) (held.getD place 0)
  obtain ⟨N, hN⟩ := Filter.eventually_atTop.1 hreached
  refine ⟨N, fun n hn => ?_⟩
  have hplaces : held.map (fun x => x - decay) =
      (List.range len).map fun place => held.getD place 0 - decay := by
    conv_lhs => rw [← map_getD_range hheld, List.map_map]
    rfl
  rw [feed_held hinputs hheld, hplaces]
  congr 2
  exact List.map_congr_left fun place hplace =>
    hN n hn place (Finset.mem_range.2 (List.mem_range.1 hplace))

/-- While a buffer is held no place is lower than one decay below it. -/
theorem feed_held_above {decay : ℝ} (hdecay : 0 ≤ decay) {n : ℕ} (hn : 0 < n) : ∃ s,
    GravityState.feed decay (.new len) (inputs ++ List.replicate n held) = .ok s ∧
      List.Forall₂ (fun x value => x - decay ≤ value) held s.applied := by
  refine ⟨_, feed_held hinputs hheld decay n, ?_⟩
  obtain ⟨m, rfl⟩ : ∃ m, n = m + 1 := ⟨n - 1, by omega⟩
  have hbound (place : ℕ) : held.getD place 0 - decay ≤
      crest decay (column place inputs ++ List.replicate (m + 1) (held.getD place 0)) := by
    rw [crest_append_replicate hdecay]
    exact le_max_right ..
  have hplaces : List.Forall₂ (fun x value => x - decay ≤ value)
      ((List.range len).map fun place => held.getD place 0) ((List.range len).map fun place =>
        crest decay (column place inputs ++ List.replicate (m + 1) (held.getD place 0))) :=
    List.forall₂_map_left_iff.2 (List.forall₂_map_right_iff.2
      (List.forall₂_same.2 fun place _ => hbound place))
  rwa [map_getD_range hheld] at hplaces

end Held

/-! ### Steps -/

/-- A gravity step updates the state that it finds or makes, and puts out what the
state has then. -/
theorem gravity_of_succeeds [Signal α] {params : TransformParams α} {key : StateKey} {w w' : Work α}
    (h : Succeeds (runStep params key .gravity) w w') :
    ∃ s s', w.store.gravity key w.buffer.length = .ok s ∧
      s.apply w.buffer params.gravityDecay = .ok s' ∧ w'.buffer = s'.applied ∧
      w'.store.get? key = some (.gravity s') := by
  obtain ⟨left, out, hstepped, rfl⟩ :=
    succeeds_runStep.1 (show Succeeds _ ⟨w.buffer, w.store⟩ w' from h)
  rw [stepped?, ← toOption_gravity, Option.bind_eq_some_iff] at hstepped
  obtain ⟨s, hs, hstepped⟩ := hstepped
  obtain ⟨s', hs', hstepped⟩ := Option.map_eq_some_iff.1 hstepped
  cases hstepped
  exact ⟨s, s', ok_of_toOption hs, ok_of_toOption hs', rfl,
    (StateStore.get?_put ..).trans (if_pos rfl)⟩

/-- **Gravity in closed form.** After any updates a new gravity state has at each
place the highest of what is left of the inputs there, and a gravity step puts
out what its state has. Under a positive decay an input that is held is reached
after finitely many updates, behind which the values stay one decay below it;
while it is held they are never lower. -/
theorem gravity_follows_crest (decay : ℝ) {len : ℕ} {inputs : List (List ℝ)}
    (hinputs : ∀ input ∈ inputs, input.length = len) :
    GravityState.feed decay (.new len) inputs =
        .ok ⟨(List.range len).map fun place => crest decay (column place inputs)⟩ ∧
      (∀ (params : TransformParams ℝ) (key : StateKey) (w w' : Work ℝ),
        Succeeds (runStep params key .gravity) w w' →
          ∃ s s', w.store.gravity key w.buffer.length = .ok s ∧
            s.apply w.buffer params.gravityDecay = .ok s' ∧ w'.buffer = s'.applied ∧
            w'.store.get? key = some (.gravity s')) ∧
      (0 < decay → ∀ held : List ℝ, held.length = len →
        (∃ N, ∀ n ≥ N, GravityState.feed decay (.new len) (inputs ++ List.replicate n held) =
          .ok ⟨held.map fun x => x - decay⟩) ∧
        ∀ n > 0, ∃ s, GravityState.feed decay (.new len) (inputs ++ List.replicate n held) = .ok s ∧
          List.Forall₂ (fun x value => x - decay ≤ value) held s.applied) := by
  refine ⟨feed_eq_crest hinputs decay, fun _ _ _ _ => gravity_of_succeeds,
    fun hdecay held hheld => ⟨?_, fun n hn => ?_⟩⟩
  · exact feed_held_reaches hinputs hheld hdecay
  · exact feed_held_above hinputs hheld hdecay.le hn

/-- One place rises and then sinks to what it is held at, the other one stays
below zero. -/
theorem gravity_follows_drop :
    GravityState.feed (1 / 10) (.new 2) [[1, -1], [1 / 2, -1]] = .ok ⟨[4 / 5, -(1 / 5 : ℝ)]⟩ ∧
      ∃ N, ∀ n ≥ N, GravityState.feed (1 / 10) (.new 2)
        ([[1, -1], [1 / 2, -1]] ++ List.replicate n [1 / 2, -1]) = .ok ⟨[2 / 5, -(11 / 10 : ℝ)]⟩ := by
  have hinputs : ∀ input ∈ [[1, -1], [1 / 2, (-1 : ℝ)]], input.length = 2 := by simp
  obtain ⟨hfeed, -, hheld⟩ := gravity_follows_crest (1 / 10) hinputs
  obtain ⟨⟨N, hN⟩, -⟩ := hheld (by norm_num) [1 / 2, -1] rfl
  constructor
  · rw [hfeed]
    simp only [← foldl_fall, column, List.range_succ, List.range_zero]
    norm_num [fall_real]
  · refine ⟨N, fun n hn => ?_⟩
    rw [hN n hn]
    norm_num

end AudioShader
