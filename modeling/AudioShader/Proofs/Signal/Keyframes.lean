/-
# What keyframes move between

A new frame is written over the one before the last, so the two slots take turns
and what a slot holds at a place is the last of its frames that reaches there:
every second one counts. Frames of one length leave just the last two; behind a
shorter frame the samples of an older one stay.

Key definitions: `Keyframes.Call`, `Keyframes.after`, `Keyframes.frames`,
`Keyframes.held`, `Keyframes.Covered`.
Key theorems: `Keyframes.slot_cons`, `Keyframes.after_eq`, `Keyframes.held_eq_iff`,
`Keyframes.moves_between_last_frames`.
-/
import Mathlib.Data.List.GetD
import AudioShader.Proofs.Signal.Ready
import AudioShader.Signal.Keyframes
import AudioShader.Signal.SharedAudio

namespace AudioShader
namespace Keyframes

variable {α : Type}

/-! ### Calls -/

/-- What is done with keyframes. -/
inductive Call (α : Type) where
  | rotate (fresh : List α)
  | advance

/-- The frame that is handed over. -/
def Call.fresh? : Call α → Option (List α)
  | .rotate fresh => some fresh
  | .advance => none

def call (k : Keyframes α) : Call α → Keyframes α
  | .rotate fresh => k.rotate fresh
  | .advance => k.advance

/-- Keyframes of a length behind some calls. -/
def after [Zero α] (len : Nat) (calls : List (Call α)) : Keyframes α := calls.foldl call (new len)

/-- The frames that were handed over, the last one first. -/
def frames (calls : List (Call α)) : List (List α) := (calls.filterMap Call.fresh?).reverse

/-- The number of ticks since the last frame. -/
def idle (calls : List (Call α)) : Nat :=
  (calls.reverse.takeWhile fun c => c.fresh?.isNone).length

section Calls

variable (calls : List (Call α))

theorem frames_rotate (fresh : List α) : frames (calls ++ [.rotate fresh]) = fresh :: frames calls := by
  simp [frames, Call.fresh?]

theorem frames_advance : frames (calls ++ [.advance]) = frames calls := by
  simp [frames, Call.fresh?]

theorem idle_rotate (fresh : List α) : idle (calls ++ [.rotate fresh]) = 0 := by
  simp [idle, Call.fresh?]

theorem idle_advance : idle (calls ++ [.advance]) = idle calls + 1 := by
  simp [idle, Call.fresh?]

end Calls

/-! ### Slots -/

/-- The first element and every second one behind it. -/
def everySecond {β : Type} : List β → List β
  | [] => []
  | [x] => [x]
  | x :: _ :: xs => x :: everySecond xs

theorem everySecond_cons {β : Type} (x : β) (xs : List β) :
    everySecond (x :: xs) = x :: everySecond xs.tail := by
  cases xs <;> rfl

theorem mem_of_mem_everySecond {β : Type} {x : β} : ∀ {xs : List β}, x ∈ everySecond xs → x ∈ xs
  | [_], h => h
  | y :: z :: xs, h => by
    rcases List.mem_cons.1 h with rfl | h
    · exact List.mem_cons_self ..
    · exact List.mem_cons_of_mem y (List.mem_cons_of_mem z (mem_of_mem_everySecond h))

section Slots

variable [Zero α]

/-- What a slot holds at a place: the sample of the last of its frames that
reaches there, or silence. -/
def held (frames : List (List α)) (place : Nat) : α :=
  ((everySecond frames).findSome? fun frame => frame[place]?).getD 0

@[simp] theorem held_nil (place : Nat) : held ([] : List (List α)) place = 0 := rfl

theorem held_cons (frame : List α) (frames : List (List α)) (place : Nat) :
    held (frame :: frames) place = frame.getD place (held frames.tail place) := by
  rw [held, everySecond_cons, List.findSome?_cons, List.getD_eq_getElem?_getD]
  cases frame[place]? <;> rfl

/-- The samples of a slot. -/
def slot (len : Nat) (frames : List (List α)) : List α := (List.range len).map (held frames)

theorem slot_nil (len : Nat) : slot len ([] : List (List α)) = List.replicate len 0 := by
  show (List.range len).map (fun _ => (0 : α)) = List.replicate len 0
  rw [List.map_const', List.length_range]

omit [Zero α] in
theorem getElem?_overwrite : ∀ (target source : List α) (place : Nat),
    (overwrite target source)[place]? = (target[place]?).map fun x => source.getD place x
  | [], _, _ => by simp [overwrite]
  | _ :: _, [], _ => by simp [overwrite]
  | _ :: ts, _ :: ss, 0 => by simp [overwrite]
  | _ :: ts, _ :: ss, place + 1 => by simpa [overwrite] using getElem?_overwrite ts ss place

/-- A frame that is handed over is written over the one before the last. -/
theorem slot_cons (len : Nat) (frame : List α) (frames : List (List α)) :
    slot len (frame :: frames) = overwrite (slot len frames.tail) frame := by
  refine List.ext_getElem? fun place => ?_
  rw [getElem?_overwrite, slot, slot, List.getElem?_map, List.getElem?_map, Option.map_map]
  rcases Nat.lt_or_ge place len with hlt | hge
  · rw [List.getElem?_range hlt, Option.map_some, Option.map_some, held_cons]
    rfl
  · rw [List.getElem?_eq_none (by simpa using hge)]
    rfl

/-- **The slots take turns.** -/
theorem after_eq (len : Nat) (calls : List (Call α)) : after len calls =
    ⟨slot len (frames calls).tail, slot len (frames calls), min (idle calls) maxTicks⟩ := by
  induction calls using List.reverseRecOn with
  | nil => rw [after, frames, List.filterMap_nil, List.reverse_nil, List.tail_nil, slot_nil]; rfl
  | append_singleton calls c ih =>
    rw [after, List.foldl_concat, ← after, ih]
    cases c with
    | rotate fresh =>
      rw [frames_rotate, idle_rotate, List.tail_cons, slot_cons]
      rfl
    | advance =>
      rw [frames_advance, idle_advance, call, advance]
      congr 1
      show min (min (idle calls) maxTicks + 1) maxTicks = min (idle calls + 1) maxTicks
      omega

/-! ### Samples of older frames -/

/-- No sample of an older frame is held behind the last one, up to a length. -/
def Covered (len : Nat) (frames : List (List α)) : Prop :=
  ∀ place < len, (frames.headD []).length ≤ place → held (frames.drop 2) place = 0

/-- What a slot holds at a place is the sample of the last frame, or the last
frame does not reach there and something is left. -/
theorem held_eq_iff (frames : List (List α)) (place : Nat) :
    held frames place = (frames.headD []).getD place 0 ↔
      ((frames.headD []).length ≤ place → held (frames.drop 2) place = 0) := by
  cases frames with
  | nil => simp
  | cons frame frames =>
    rw [held_cons, List.headD_cons, List.drop_succ_cons, List.drop_one]
    rcases Nat.lt_or_ge place frame.length with hlt | hge
    · simp [hlt]
    · simp [hge]

theorem covered_iff {len : Nat} {frames : List (List α)} :
    Covered len frames ↔ ∀ place < len, held frames place = (frames.headD []).getD place 0 := by
  simp only [Covered, held_eq_iff]

/-- Frames of one length cover each other. -/
theorem covered_of_length {frames : List (List α)} {width : Nat}
    (h : ∀ frame ∈ frames, frame.length = width) (len : Nat) : Covered len frames := by
  intro place _ hplace
  cases frames with
  | nil => rfl
  | cons frame frames =>
    have hwidth : width ≤ place := h frame (List.mem_cons_self ..) ▸ hplace
    have hnone : (everySecond ((frame :: frames).drop 2)).findSome? (fun frame => frame[place]?) = none := by
      refine List.findSome?_eq_none_iff.2 fun older holder => ?_
      have hmem := List.mem_of_mem_drop (mem_of_mem_everySecond holder)
      exact List.getElem?_eq_none ((h older hmem).trans_le hwidth)
    rw [held, hnone]
    rfl

end Slots

/-! ### Samples in between -/

theorem fitted_eq [Zero α] : ∀ (len : Nat) (frame : List α),
    fitted len frame = (List.range len).map fun place => frame.getD place 0
  | 0, _ => rfl
  | len + 1, [] => by
    rw [fitted, fitted_eq len, List.range_succ_eq_map]
    simp [Function.comp_def]
  | len + 1, _ :: ss => by
    rw [fitted, fitted_eq len, List.range_succ_eq_map]
    simp [Function.comp_def]

/-- A list of its length is written over all of a buffer. -/
theorem overwrite_of_length : ∀ {target source : List α}, target.length = source.length →
    overwrite target source = source
  | [], [], _ => rfl
  | _ :: _, s :: _, h => congrArg (s :: ·) (overwrite_of_length (Nat.succ.inj h))

/-- The samples on the way from `a` to `b`, of which the part `t` is done. -/
noncomputable def path (len : Nat) (a b : Nat → ℝ) (t : ℝ) : List ℝ :=
  (List.range len).map fun place => a place + (b place - a place) * t

theorem path_zero (len : Nat) (a b : Nat → ℝ) : path len a b 0 = (List.range len).map a := by
  simp [path]

theorem path_one (len : Nat) (a b : Nat → ℝ) : path len a b 1 = (List.range len).map b := by
  simp [path]

@[simp] theorem length_path (len : Nat) (a b : Nat → ℝ) (t : ℝ) : (path len a b t).length = len := by
  simp [path]

theorem map_range_inj {len : Nat} {a b : Nat → ℝ} :
    (List.range len).map a = (List.range len).map b ↔ ∀ place < len, a place = b place := by
  rw [List.map_inj_left]
  simp only [List.mem_range]

/-- Ways are the same if they begin and end at the same samples. -/
theorem path_inj {len : Nat} {a b a' b' : Nat → ℝ} :
    (∀ t, path len a b t = path len a' b' t) ↔
      (∀ place < len, a place = a' place) ∧ ∀ place < len, b place = b' place := by
  constructor
  · intro h
    refine ⟨map_range_inj.1 ?_, map_range_inj.1 ?_⟩
    · rw [← path_zero len a b, h, path_zero]
    · rw [← path_one len a b, h, path_one]
  · rintro ⟨hstart, hstop⟩ t
    refine map_range_inj.2 fun place hplace => ?_
    rw [hstart place hplace, hstop place hplace]

section After

variable {len : Nat} {calls : List (Call ℝ)}

/-- Keyframes move from what the one slot holds to what the other does. -/
theorem sampleInto_after (len : Nat) (calls : List (Call ℝ)) (out : List ℝ) (t : ℝ) :
    (after len calls).sampleInto out t =
      overwrite out (path len (held (frames calls).tail) (held (frames calls)) t) := by
  rw [sampleInto, after_eq, blended, slot, slot, List.zipWith_map, List.zipWith_self]
  rfl

/-- All of a buffer of their length is written. -/
theorem sampleInto_of_length {out : List ℝ} (hout : out.length = len) (t : ℝ) :
    (after len calls).sampleInto out t =
      path len (held (frames calls).tail) (held (frames calls)) t := by
  rw [sampleInto_after, overwrite_of_length (by rw [hout, length_path])]

/-- Which way keyframes go is seen in a buffer of their length. -/
theorem sampleInto_eq_iff {a b : Nat → ℝ} :
    (∀ out t, (after len calls).sampleInto out t = overwrite out (path len a b t)) ↔
      ∀ t, path len (held (frames calls).tail) (held (frames calls)) t = path len a b t := by
  constructor
  · intro h t
    have hsilent : (List.replicate len (0 : ℝ)).length = len := List.length_replicate
    have hall := h (List.replicate len 0) t
    rwa [sampleInto_of_length hsilent, overwrite_of_length (by rw [hsilent, length_path])] at hall
  · intro h out t
    rw [sampleInto_after, h]

/-- What keyframes come to in the end. -/
theorem sampleInto_one_eq_iff {frame : List ℝ} :
    (∀ out, out.length = len → (after len calls).sampleInto out 1 = fitted len frame) ↔
      ∀ place < len, held (frames calls) place = frame.getD place 0 := by
  rw [← map_range_inj, ← fitted_eq]
  constructor
  · intro h
    have hsilent : (List.replicate len (0 : ℝ)).length = len := List.length_replicate
    rw [← h _ hsilent, sampleInto_of_length hsilent, path_one]
  · intro h out hout
    rw [sampleInto_of_length hout, path_one, h]

end After

/-- **Keyframes move between the last two frames, up to what is left of older
ones.** At every place they go from what the one slot holds to what the other
holds, by the part that the ticks stand for; these are the ticks since the last
frame, up to the most that are counted. This is the way from the last but one frame to the last one, with
silence where these do not reach, just if no sample of an older frame is held
behind either of them; and it ends at the last frame just if none is held behind
that. Frames of one length leave nothing of older ones. -/
theorem moves_between_last_frames (len : Nat) (calls : List (Call ℝ)) :
    (after len calls).ticks = min (idle calls) maxTicks ∧
    (∀ out t, (after len calls).sampleInto out t =
      overwrite out (path len (held (frames calls).tail) (held (frames calls)) t)) ∧
    ((∀ out t, (after len calls).sampleInto out t =
        overwrite out (path len (fun place => ((frames calls).tail.headD []).getD place 0)
          (fun place => ((frames calls).headD []).getD place 0) t)) ↔
      Covered len (frames calls).tail ∧ Covered len (frames calls)) ∧
    ((∀ out, out.length = len → (after len calls).sampleInto out 1 =
        fitted len ((frames calls).headD [])) ↔ Covered len (frames calls)) ∧
    ∀ width, (∀ frame ∈ frames calls, frame.length = width) →
      Covered len (frames calls).tail ∧ Covered len (frames calls) := by
  refine ⟨by rw [after_eq], sampleInto_after len calls, ?_, ?_, fun width h => ⟨?_, ?_⟩⟩
  · rw [covered_iff, covered_iff, sampleInto_eq_iff, path_inj]
  · rw [covered_iff, sampleInto_one_eq_iff]
  · exact covered_of_length (fun frame hframe => h frame (List.mem_of_mem_tail hframe)) len
  · exact covered_of_length h len

/-- Two frames of one length, and a tick. -/
def pairCalls : List (Call ℝ) := [.rotate [0, 1], .rotate [1, 0], .advance]

theorem moves_between_pairCalls : (after 2 pairCalls).ticks = 1 ∧
    (∀ t, (after 2 pairCalls).sampleInto [0, 0] t = [0 + (1 - 0) * t, 1 + (0 - 1) * t]) ∧
    (after 2 pairCalls).sampleInto [0, 0] 1 = fitted 2 [1, 0] := by
  obtain ⟨hticks, -, hpath, hend, hwidth⟩ := moves_between_last_frames 2 pairCalls
  have hframes : ∀ frame ∈ frames pairCalls, frame.length = 2 := by
    simp [frames, pairCalls, Call.fresh?]
  obtain ⟨hbefore, hlast⟩ := hwidth 2 hframes
  refine ⟨hticks.trans (by decide), fun t => ?_, hend.2 hlast [0, 0] rfl⟩
  exact (hpath.2 ⟨hbefore, hlast⟩ [0, 0] t).trans rfl

/-- The third frame is shorter than the first. -/
def shortCalls : List (Call ℝ) := [.rotate [1, 1], .rotate [0, 0], .rotate [1], .advance]

/-- Keyframes may not end at the last frame, filled up with silence. -/
theorem not_always_at_last_frame : ¬∀ out : List ℝ, out.length = 2 →
    (after 2 shortCalls).sampleInto out 1 = fitted 2 ((frames shortCalls).headD []) := by
  intro h
  have hend : (after 2 shortCalls).sampleInto [0, 0] 1 = [1, 1] := by
    simp [after, shortCalls, call, rotate, advance, new, List.replicate_succ, overwrite, sampleInto,
      blended]
  have hfitted : fitted 2 ((frames shortCalls).headD []) = [1, 0] := by
    simp [frames, shortCalls, Call.fresh?, fitted]
  have hall := h [0, 0] rfl
  rw [hend, hfitted] at hall
  norm_num at hall

end Keyframes
end AudioShader
