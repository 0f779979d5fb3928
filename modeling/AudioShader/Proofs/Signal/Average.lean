/-
# A ring of frames is a sliding window

Read by age, a ring of frames holds the frames that came last, with silence
before the first of them; where the ring begins does not show. So an average is
the weighted mean of the last frames alone, whatever came before them and
however often the ring has gone round.

Key definitions: `lastFrames`, `ageWeight`, `slidingMean`, `AverageState.feed`.
Key theorems: `AverageState.aged_push`, `AverageState.getElem?_aged`,
`AverageState.meanAt_eq_slidingMean`, `AverageState.feed_sliding`.
-/
import AudioShader.Proofs.Signal.Ready

namespace AudioShader

variable {α : Type}

/-! ### The last frames -/

/-- The last of some frames, in the order in which they came, with silent ones
before them where there are fewer. -/
def lastFrames [Zero α] (count len : Nat) (frames : List (List α)) : List (List α) :=
  List.replicate (count - frames.length) (List.replicate len 0) ++ frames.drop (frames.length - count)

section LastFrames

variable [Zero α] {count : Nat} (len : Nat)

@[simp] theorem length_lastFrames (frames : List (List α)) :
    (lastFrames count len frames).length = count := by
  rw [lastFrames, List.length_append, List.length_replicate, List.length_drop]
  omega

/-- One more frame pushes the oldest one out. -/
theorem lastFrames_concat (hcount : 0 < count) (frames : List (List α)) (frame : List α) :
    lastFrames count len (frames ++ [frame]) = (lastFrames count len frames).tail ++ [frame] := by
  rcases Nat.lt_or_ge frames.length count with hlt | hle
  · obtain ⟨silent, hsilent⟩ : ∃ silent, count - frames.length = silent + 1 :=
      ⟨count - frames.length - 1, by omega⟩
    rw [lastFrames, lastFrames, List.length_append, List.length_singleton, hsilent, List.replicate_succ,
      show count - (frames.length + 1) = silent by omega,
      show frames.length - count = 0 by omega, show frames.length + 1 - count = 0 by omega]
    simp
  · rw [lastFrames, lastFrames, List.length_append, List.length_singleton,
      show count - frames.length = 0 by omega, show count - (frames.length + 1) = 0 by omega,
      show frames.length + 1 - count = frames.length - count + 1 by omega,
      List.drop_append_of_le_length (by omega)]
    simp

/-- As many frames as there are places leave nothing of what came before. -/
theorem lastFrames_append (before : List (List α)) {last : List (List α)} (h : last.length = count) :
    lastFrames count len (before ++ last) = last := by
  rw [lastFrames, List.length_append, h, show count - (before.length + count) = 0 by omega,
    Nat.add_sub_cancel, List.drop_left]
  rfl

end LastFrames

/-! ### Means -/

section Means

variable [Sample α] [Weights α]

/-- What a frame of an age counts. -/
def ageWeight (windowed : Bool) (count age : Nat) : α :=
  if windowed then Weights.hann age count else Sample.ofNat 1

/-- The weighted mean of frames at one place, the oldest frame first. -/
def slidingMean (windowed : Bool) (frames : List (List α)) (place : Nat) : α :=
  (frames.zipIdx.foldl (fun sum f => sum + f.1.getD place 0 * ageWeight windowed frames.length f.2) 0) /
    (List.range frames.length).foldl (fun sum age => sum + ageWeight windowed frames.length age) 0

end Means

namespace AverageState

theorem meanAt_eq_slidingMean [Sample α] [Weights α] (windowed : Bool) (frames : List (List α)) :
    meanAt (weights frames.length windowed) frames = slidingMean windowed frames := by
  funext place
  have hproducts :
      frames.zipWith (fun frame w => frame.getD place 0 * w) (weights frames.length windowed) =
        frames.zipIdx.map fun f => f.1.getD place 0 * ageWeight windowed frames.length f.2 := by
    rw [weights, List.zipWith_map_right, List.zipIdx_eq_zip_range', ← List.range_eq_range', List.zip,
      List.map_zipWith]
    rfl
  rw [meanAt, hproducts, total, total, List.foldl_map, weights, List.foldl_map]
  rfl

/-! ### Rings -/

@[simp] theorem frames_new [Zero α] (frames len : Nat) :
    (new frames len : AverageState α).frames = max frames 1 := List.length_replicate

@[simp] theorem frames_push (s : AverageState α) (frame : List α) : (s.push frame).frames = s.frames :=
  List.length_set

theorem next_push_lt {s : AverageState α} (h : s.next < s.frames) (frame : List α) :
    (s.push frame).next < (s.push frame).frames := by
  rw [frames_push]
  exact Nat.mod_lt _ (by omega)

/-- The frame of an age stands as many places behind the next one, round the ring. -/
theorem getElem?_aged {s : AverageState α} (h : s.next < s.frames) {age : Nat} (hage : age < s.frames) :
    s.aged[age]? = s.history[(s.next + age) % s.frames]? := by
  unfold frames at *
  rw [aged]
  rcases Nat.lt_or_ge (s.next + age) s.history.length with hlt | hle
  · rw [List.getElem?_append_left (by rw [List.length_drop]; omega), List.getElem?_drop,
      Nat.mod_eq_of_lt hlt]
  · rw [List.getElem?_append_right (by rw [List.length_drop]; omega), List.length_drop,
      List.getElem?_take_of_lt (by omega), Nat.mod_eq_sub_mod hle, Nat.mod_eq_of_lt (by omega)]
    congr 1
    omega

/-- **A new frame takes the place of the oldest one.** -/
theorem aged_push {s : AverageState α} (h : s.next < s.frames) (frame : List α) :
    (s.push frame).aged = s.aged.tail ++ [frame] := by
  unfold frames at h
  have holdest : s.aged.tail = s.history.drop (s.next + 1) ++ s.history.take s.next := by
    rw [aged, List.drop_eq_getElem_cons h]
    rfl
  have htake : (s.history.set s.next frame).take (s.next + 1) = s.history.take s.next ++ [frame] := by
    rw [List.take_succ_eq_append_getElem (by simpa using h), List.take_set_of_le (le_refl _),
      List.getElem_set_self]
  rw [holdest, aged, push, frames]
  rcases Nat.lt_or_eq_of_le (Nat.succ_le_of_lt h) with hlt | heq
  · rw [Nat.mod_eq_of_lt hlt, htake, List.drop_set_of_lt (Nat.lt_succ_self _), List.append_assoc]
  · -- behind the last place the ring begins again
    have hend : s.next + 1 = s.history.length := heq
    have hall : (s.history.set s.next frame).take (s.next + 1) = s.history.set s.next frame :=
      List.take_of_length_le (by rw [List.length_set]; omega)
    rw [hend, Nat.mod_self, List.drop_length, List.drop_zero, List.take_zero, List.append_nil, ← hall,
      htake]
    rfl

/-! ### Updates -/

section Updates

variable [Signal α]

/-- Updates, one after the other: the state behind them and what each put out. -/
def feed (windowed : Bool) : AverageState α → List (List α) →
    Except TransformError (AverageState α × List (List α))
  | s, [] => .ok (s, [])
  | s, input :: rest => do
    let (s', output) ← s.apply input windowed
    let (s'', outputs) ← feed windowed s' rest
    return (s'', output :: outputs)

theorem feed_cons {windowed : Bool} {s s' s'' : AverageState α} {input output : List α}
    {rest outputs : List (List α)} (h : s.apply input windowed = .ok (s', output))
    (hrest : s'.feed windowed rest = .ok (s'', outputs)) :
    s.feed windowed (input :: rest) = .ok (s'', output :: outputs) := by
  rw [feed, h]
  show (do let (s'', outputs) ← s'.feed windowed rest; return (s'', output :: outputs)) = _
  rw [hrest]
  rfl

/-- A ring of one frame changes no buffer. -/
theorem feed_single (windowed : Bool) : ∀ {inputs : List (List α)} {s : AverageState α},
    s.frames = 1 → (∀ input ∈ inputs, input.length = s.len) →
    ∃ s', s.feed windowed inputs = .ok (s', inputs)
  | [], s, _, _ => ⟨s, rfl⟩
  | input :: rest, s, hframes, h => by
    rw [List.forall_mem_cons] at h
    have happly : s.apply input windowed = .ok ({ s with history := [input] }, input) := by
      rw [apply, if_neg (by simpa using h.1.symm), if_pos hframes]
    have hlen : ({ s with history := [input] } : AverageState α).len = s.len := h.1
    obtain ⟨s', hrest⟩ := feed_single windowed (s := { s with history := [input] }) rfl
      fun x hx => (h.2 x hx).trans hlen.symm
    exact ⟨s', feed_cons happly hrest⟩

/-- The state has taken some frames in: its ring holds the last of them. -/
structure Sliding (count len : Nat) (seen : List (List α)) (s : AverageState α) : Prop where
  frames_eq : s.frames = count
  len_eq : s.len = len
  next_lt : s.next < s.frames
  aged_eq : s.aged = lastFrames count len seen

theorem sliding_new {count : Nat} (hcount : 0 < count) (len : Nat) :
    Sliding count len [] (new count len : AverageState α) where
  frames_eq := by rw [frames_new]; omega
  len_eq := len_new count len
  next_lt := by rw [frames_new]; exact Nat.lt_of_lt_of_le Nat.zero_lt_one (Nat.le_max_right ..)
  aged_eq := by
    have hmax : max count 1 = count := by omega
    simp [AverageState.aged, new, lastFrames, hmax]

/-- An update puts out the mean of the last frames, its own among them. -/
theorem Sliding.apply {count len : Nat} {seen : List (List α)} {s : AverageState α}
    (h : Sliding count len seen s) (hcount : 2 ≤ count) {input : List α} (hinput : input.length = len)
    (windowed : Bool) : ∃ s', Sliding count len (seen ++ [input]) s' ∧ s.apply input windowed =
      .ok (s', (List.range len).map (slidingMean windowed (lastFrames count len (seen ++ [input])))) := by
  have hlen : s.len = input.length := h.len_eq.trans hinput.symm
  have hmany : s.frames ≠ 1 := by
    rw [h.frames_eq]
    omega
  have haged : (s.push input).aged = lastFrames count len (seen ++ [input]) := by
    rw [aged_push h.next_lt, h.aged_eq, lastFrames_concat len (by omega)]
  have hcount' : (s.push input).frames = (lastFrames count len (seen ++ [input])).length := by
    rw [frames_push, h.frames_eq, length_lastFrames]
  have happly : s.apply input windowed = .ok (s.push input,
      (List.range len).map (slidingMean windowed (lastFrames count len (seen ++ [input])))) := by
    rw [AverageState.apply, if_neg (by simpa using hlen), if_neg hmany, hinput]
    dsimp only
    rw [haged, hcount', meanAt_eq_slidingMean]
  obtain ⟨s', output, happly', hlen', -⟩ := apply_of_len hlen windowed
  cases happly.symm.trans happly'
  exact ⟨s.push input, ⟨(frames_push ..).trans h.frames_eq, hlen'.trans h.len_eq,
    next_push_lt h.next_lt input, haged⟩, happly⟩

theorem feed_sliding (windowed : Bool) {count len : Nat} (hcount : 2 ≤ count) :
    ∀ {inputs seen : List (List α)} {s : AverageState α}, Sliding count len seen s →
    (∀ input ∈ inputs, input.length = len) →
    ∃ s', Sliding count len (seen ++ inputs) s' ∧ s.feed windowed inputs =
      .ok (s', (List.range inputs.length).map fun k => (List.range len).map
        (slidingMean windowed (lastFrames count len (seen ++ inputs.take (k + 1)))))
  | [], seen, s, h, _ => ⟨s, by rwa [List.append_nil], rfl⟩
  | input :: rest, seen, s, h, hinputs => by
    rw [List.forall_mem_cons] at hinputs
    obtain ⟨s₁, h₁, happly⟩ := h.apply hcount hinputs.1 windowed
    obtain ⟨s', h', hrest⟩ := feed_sliding windowed hcount h₁ hinputs.2
    rw [← List.append_cons] at h'
    refine ⟨s', h', (feed_cons happly hrest).trans ?_⟩
    rw [List.length_cons, List.range_succ_eq_map, List.map_cons, List.map_map]
    simp only [List.append_assoc, List.singleton_append]
    rfl

end Updates

end AverageState

/-- **Averages are means of the last frames.** After any updates a ring of two
frames or more, read by age, holds the last buffers in their order, with silence
before the first one; each update has put out, place by place, the weighted mean
of the buffers that were the last ones then. So with as many buffers as there are
frames at the end, only these are heard, wherever the ring stood when they came.
A ring of one frame puts out every buffer as it is. -/
theorem averages_slide [Signal α] (windowed : Bool) {len : Nat} {inputs : List (List α)}
    (hinputs : ∀ input ∈ inputs, input.length = len) :
    (∀ count ≥ 2, ∃ s outputs,
      (AverageState.new count len).feed windowed inputs = .ok (s, outputs) ∧
        (∀ age < count, s.history[(s.next + age) % count]? = (lastFrames count len inputs)[age]?) ∧
        outputs = (List.range inputs.length).map (fun k => (List.range len).map
          (slidingMean windowed (lastFrames count len (inputs.take (k + 1))))) ∧
        ∀ before last, inputs = before ++ last → last.length = count →
          outputs.getLast? = some ((List.range len).map (slidingMean windowed last))) ∧
      ∃ s, (AverageState.new 1 len).feed windowed inputs = .ok (s, inputs) := by
  constructor
  · intro count hcount
    obtain ⟨s, h, hfeed⟩ := AverageState.feed_sliding windowed hcount
      (AverageState.sliding_new (by omega) len) hinputs
    refine ⟨s, _, hfeed, fun age hage => ?_, rfl, ?_⟩
    · have hread := AverageState.getElem?_aged h.next_lt (h.frames_eq.symm ▸ hage)
      rw [h.aged_eq, h.frames_eq] at hread
      exact hread.symm
    · rintro before last rfl hlast
      obtain ⟨k, hk⟩ : ∃ k, (before ++ last).length = k + 1 :=
        ⟨(before ++ last).length - 1, by rw [List.length_append]; omega⟩
      have hall : (before ++ last).take (k + 1) = before ++ last := List.take_of_length_le hk.le
      rw [hk, List.range_succ, List.map_append, List.map_singleton, List.getLast?_concat,
        List.nil_append, hall, lastFrames_append len before hlast]
  · refine AverageState.feed_single windowed rfl fun input hinput => ?_
    rw [AverageState.len_new, hinputs input hinput]

/-- Three buffers in a ring of two frames, the first of them with silence before it. -/
theorem averages_slide_threeBuffers :
    ∃ s, (AverageState.new 2 1).feed false [[4], [8], [0]] = .ok (s, [[2], [6], [(4 : ℝ)]]) ∧
      ∀ age < 2, s.history[(s.next + age) % 2]? = [[8], [(0 : ℝ)]][age]? := by
  have hinputs : ∀ input ∈ [[4], [8], [(0 : ℝ)]], input.length = 1 := by simp
  obtain ⟨s, outputs, hfeed, hread, rfl, -⟩ := (averages_slide false hinputs).1 2 (le_refl 2)
  refine ⟨s, hfeed.trans ?_, hread⟩
  have hone : Sample.ofNat (α := ℝ) 1 = 1 := Nat.cast_one
  norm_num [lastFrames, slidingMean, ageWeight, hone, List.range_succ]

end AudioShader
