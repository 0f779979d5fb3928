/-
# Steps that cannot fail

On buffers of a length that spectra can be taken of, a step fails only if the
state found at its place is another transform's or was made for another length.
A state that a step leaves is one that it can go on from, so steps that once
could be run can be run at every later update.

Key definitions: `SpectrumKeeps`, `Ready`, `AllReady`.
Key theorems: `stepped?_of_ready`, `ran?_of_ready`.
-/
import AudioShader.Proofs.Signal.Laws
import AudioShader.Proofs.Signal.View

namespace AudioShader

variable {α : Type} [Signal α]

/-! ### Lengths -/

theorem length_tapered (buffer : List α) : (tapered buffer).length = buffer.length := by
  rw [tapered, List.length_map, List.length_zipIdx]

theorem length_ranged (buffer : List α) : (ranged buffer).length = buffer.length := by
  rw [ranged, List.length_map]

theorem length_smoothed (buffer : List α) (distance : α) :
    (smoothed buffer distance).length = buffer.length := by
  rw [smoothed, List.length_map, List.length_range]

theorem length_compressAll (scale cutoff : α) (values : List α) :
    (compressAll scale cutoff values).length = values.length := by
  rw [compressAll, List.length_map, List.length_zipIdx]

/-- The spectrum, number by number. -/
theorem spectrum_eq {len : Nat} (hforward : ForwardMatches α len) (hlen : isBufferLength len = true)
    {buffer : List α} (hb : buffer.length = len) (scale cutoff : α) :
    spectrum buffer scale cutoff =
      .ok (compressAll scale cutoff ((List.range len).map (Spectrum.texel buffer))) := by
  rw [spectrum, fourier, hb, if_pos hlen, hforward buffer hb]
  rfl

/-- On buffers of `len` samples a spectrum is as long as the buffer. -/
def SpectrumKeeps (α : Type) [Signal α] (len : Nat) : Prop :=
  ∀ buffer : List α, buffer.length = len → ∀ scale cutoff,
    ∃ out, spectrum buffer scale cutoff = .ok out ∧ out.length = len

theorem SpectrumKeeps.of_forwardMatches {len : Nat} (hforward : ForwardMatches α len)
    (hlen : isBufferLength len = true) : SpectrumKeeps α len := by
  intro buffer hb scale cutoff
  refine ⟨_, spectrum_eq hforward hlen hb scale cutoff, ?_⟩
  rw [length_compressAll, List.length_map, List.length_range]

theorem AverageState.len_new (frames len : Nat) :
    (AverageState.new frames len : AverageState α).len = len := by
  have hframes : max frames 1 = (max frames 1 - 1) + 1 := by omega
  rw [AverageState.len, AverageState.new, hframes, List.replicate_succ]
  simp

/-- An average state that was made for the length of a buffer takes it in. -/
theorem AverageState.apply_of_len {s : AverageState α} {input : List α} (h : s.len = input.length)
    (windowed : Bool) : ∃ s' output, s.apply input windowed = .ok (s', output) ∧
      s'.len = s.len ∧ output.length = input.length := by
  unfold AverageState.apply
  rw [if_neg (by simpa using h)]
  split
  · exact ⟨_, _, rfl, h.symm, rfl⟩
  · refine ⟨_, _, rfl, ?_, by rw [List.length_map, List.length_range]⟩
    rcases hs : s.history with _ | ⟨first, rest⟩
    · simp [AverageState.len, AverageState.push, hs]
    · have hfirst : first.length = input.length := by
        rw [← h, AverageState.len, hs]
        rfl
      cases hn : s.next with
      | zero => simp [AverageState.len, AverageState.push, hs, hn, hfirst]
      | succ n => simp [AverageState.len, AverageState.push, hs, hn]

/-! ### States to go on from -/

/-- Whether a step can go on from the state found at its place, on buffers of
the length that the parameters tell. -/
def Ready (params : TransformParams α) (found : Option (TransformState α)) : Transform → Prop
  | .gravity => ∃ s, gravityOf? params.bufferLen found = some s ∧ s.len = params.bufferLen
  | .average =>
    ∃ s, averageOf? params.avgFrames params.bufferLen found = some s ∧ s.len = params.bufferLen
  | _ => True

/-- A step without a state before it is ready. -/
theorem ready_none (params : TransformParams α) (kind : Transform) : Ready params none kind := by
  cases kind with
  | gravity => exact ⟨_, rfl, GravityState.len_new _⟩
  | average => exact ⟨_, rfl, AverageState.len_new _ _⟩
  | _ => trivial

variable {params : TransformParams α}

section Lengths

variable (hkeeps : SpectrumKeeps α params.bufferLen)
include hkeeps

/-- A step that is ready succeeds, keeps the length of the buffer, and is ready
again. -/
theorem stepped?_of_ready {buffer : List α} (hb : buffer.length = params.bufferLen)
    {found : Option (TransformState α)} {kind : Transform} (h : Ready params found kind) :
    ∃ left out, stepped? params buffer kind found = some (left, out) ∧
      out.length = params.bufferLen ∧ Ready params (left.or found) kind := by
  cases kind with
  | window => exact ⟨none, _, rfl, by rw [length_tapered, hb], trivial⟩
  | wrange => exact ⟨none, _, rfl, by rw [length_ranged, hb], trivial⟩
  | smooth => exact ⟨none, _, rfl, by rw [length_smoothed, hb], trivial⟩
  | fft =>
    obtain ⟨out, hspectrum, hout⟩ := hkeeps buffer hb params.fftScale params.fftCutoff
    exact ⟨none, out, by rw [stepped?, hspectrum]; rfl, hout, trivial⟩
  | gravity =>
    obtain ⟨s, hs, hl⟩ := h
    have happly : s.apply buffer params.gravityDecay =
        .ok ⟨s.applied.zipWith (fall params.gravityDecay) buffer⟩ := by
      rw [GravityState.apply, if_pos (by rw [hl, hb])]
    have hout := GravityState.len_apply happly
    refine ⟨_, _, by rw [stepped?, hb, hs, Option.bind_some, happly]; rfl, ?_, ?_⟩
    · exact hout.trans hl
    · exact ⟨_, rfl, hout.trans hl⟩
  | average =>
    obtain ⟨s, hs, hl⟩ := h
    obtain ⟨s', output, happly, hl', hout⟩ :=
      AverageState.apply_of_len (hl.trans hb.symm) params.avgWindow
    refine ⟨_, _, by rw [stepped?, hb, hs, Option.bind_some, happly]; rfl, hout.trans hb, ?_⟩
    exact ⟨s', rfl, hl'.trans hl⟩

/-- Whether each of some steps, the first of them at place `step`, is ready. -/
def AllReady (params : TransformParams α) (step : Nat) (ts : List Transform)
    (view : Nat → Option (TransformState α)) : Prop :=
  ∀ i kind, ts[i]? = some kind → Ready params (view (step + i)) kind

/-- Steps that are all ready succeed, keep the length of the buffer, and are all
ready again. -/
theorem ran?_of_ready : ∀ {ts : List Transform} {step : Nat}
    {view : Nat → Option (TransformState α)} {buffer : List α},
    buffer.length = params.bufferLen → AllReady params step ts view →
    ∃ v out, ran? params step ts view buffer = some (v, out) ∧ out.length = params.bufferLen ∧
      AllReady params step ts v
  | [], step, view, buffer, hb, h => ⟨view, buffer, rfl, hb, h⟩
  | kind :: ts, step, view, buffer, hb, h => by
    obtain ⟨left, mid, hstep, hmid, hready⟩ := stepped?_of_ready hkeeps hb (h 0 kind rfl)
    have hrest : AllReady params (step + 1) ts (kept view step left) := by
      intro i k hi
      have := h (i + 1) k (by rwa [List.getElem?_cons_succ])
      rw [kept_of_ne (by omega), Nat.add_assoc, Nat.add_comm 1 i]
      exact this
    obtain ⟨v, out, hran, hout, hv⟩ := ran?_of_ready hmid hrest
    refine ⟨v, out, ran?_cons.2 ⟨left, mid, hstep, hran⟩, hout, fun i k hi => ?_⟩
    cases i with
    | zero =>
      cases hi
      have hself : v step = left.or (view step) := by
        rw [ran?_frame hran (by omega), kept_self]
      rw [Nat.add_zero, hself]
      exact hready
    | succ i =>
      have := hv i k (by rwa [List.getElem?_cons_succ] at hi)
      rwa [Nat.add_assoc, Nat.add_comm 1 i] at this

end Lengths

end AudioShader
