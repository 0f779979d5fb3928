/-
# Calls that are refused

A call of a headless backend that is refused leaves the backend as it was, with
one exception: where passes take their input and the texture for the result is
the wrong one, the passes have been run already, so an update is taken in whose
result nobody gets.

Key definitions: `HeadlessBackend.Arises`, `HeadlessBackend.AllOrNothing`,
`HeadlessBackend.Overruns`, `HeadlessBackend.withPasses`.
Key theorems: `HeadlessBackend.ends_refused`, `HeadlessBackend.Arises.evened`,
`HeadlessBackend.refused_calls_advance_passes_only`.
-/
import AudioShader.Proofs.Graphics.Coherent

namespace AudioShader

open AudioShader.Action (Ends Stays Gives Fails)

/-! ### Passes -/

section Passes

variable {α : Type} [Signal α] {p p' : OffloadPasses α} {input result : List α}

/-- Passes that keep nothing from update to update are the same after one. -/
theorem OffloadPasses.eq_of_run (hrun : p.run input = .ok (p', result))
    (hgravity : p.tail.hasGravity = false) : p' = p := by
  rcases p.run_cases input with ⟨-, -, -, -, -, hin, hlen, -⟩ | ⟨⟨e, herror⟩, -⟩
  · have ht : p.tail = .fft := by simpa [Tail.hasGravity] using hgravity
    rw [run_of_fft hin hlen ht] at hrun
    cases hrun
    rfl
  · rw [hrun] at herror
    cases herror

/-- The place behind one in a ring of several is another one. -/
theorem succ_mod_ne {k n : Nat} (hn : 2 ≤ n) : (k + 1) % n ≠ k := by
  intro h
  rcases Nat.lt_or_ge (k + 1) n with hlt | hge
  · rw [Nat.mod_eq_of_lt hlt] at h
    omega
  · have hlast : k + 1 = n := by
      have hlt := Nat.mod_lt (k + 1) (by omega : 0 < n)
      omega
    rw [hlast, Nat.mod_self] at h
    omega

/-- Passes with a history of several frames go on to the next place of it. -/
theorem OffloadPasses.ne_of_run (hrun : p.run input = .ok (p', result))
    (haverage : p.tail.hasAverage = true) (hframes : 2 ≤ p.history.frames) : p' ≠ p := by
  rcases p.run_cases input with ⟨-, -, -, -, -, hin, hlen, hframe⟩ | ⟨⟨e, herror⟩, -⟩
  · have ht : p.tail = .fftGravityAverage := by simpa [Tail.hasAverage] using haverage
    have hfall := p.length_gravityPass (p.length_spectrumPass input)
    have hagree : p.history.len = (p.gravityPass (p.spectrumPass input)).length :=
      (hframe haverage).trans hfall.symm
    obtain ⟨out, happly⟩ : ∃ out, p.history.apply (p.gravityPass (p.spectrumPass input)) p.avgWindow =
        .ok (p.history.push (p.gravityPass (p.spectrumPass input)), out) := by
      rw [AverageState.apply, if_neg (by simpa using hagree), if_neg (by omega)]
      exact ⟨_, rfl⟩
    rw [run_of_fftGravityAverage hin hlen ht happly] at hrun
    cases hrun
    exact fun heq => succ_mod_ne hframes (congrArg (fun q : OffloadPasses α => q.history.next) heq)
  · rw [hrun] at herror
    cases herror

end Passes

namespace HeadlessBackend

/-! ### Calls that fail -/

/-- Where the work fails, it has changed nothing. -/
def AllOrNothing {α : Type} (b : HeadlessBackend) (a : Op α) : Prop :=
  Ends (fun c => c = b) a (fun _ _ => True) fun _ c => c = b

section AllOrNothing

variable {b : HeadlessBackend} {α β : Type}

theorem AllOrNothing.of_ends {a : Op α} {Q : α → HeadlessBackend → Prop}
    {E : BackendError → HeadlessBackend → Prop} (h : Ends (fun c => c = b) a Q E)
    (hE : ∀ e c, E e c → c = b) : AllOrNothing b a :=
  h.weaken (fun _ h => h) (fun _ _ _ => trivial) hE

/-- What is looked up in front of a change may fail. -/
theorem AllOrNothing.bind {a : Op α} {f : α → Op β} (ha : Stays (fun c => c = b) a)
    (hf : ∀ x, AllOrNothing b (f x)) : AllOrNothing b (a >>= f) := Ends.bind ha hf

theorem AllOrNothing.modify (f : HeadlessBackend → HeadlessBackend) :
    AllOrNothing b (modify f : Op PUnit) := Ends.modify fun _ _ => trivial

theorem AllOrNothing.returned {a : Op α} (h : AllOrNothing b a) (f : α → β) :
    AllOrNothing b (a >>= fun x => pure (f x)) := Ends.returned h

theorem allOrNothing_uploadAudio (b : HeadlessBackend) (id : TextureId) (data : List Float32) :
    AllOrNothing b (uploadAudio id data) := by
  refine .bind Stays.get fun _ => .bind (stays_require ..) fun t => ?_
  split
  · exact Ends.throw_bind fun _ hc => hc
  · exact .modify _

theorem allOrNothing_clearTo (b : HeadlessBackend) (color : Color) :
    AllOrNothing b (clearTo color) := by
  refine .bind Stays.get fun c => ?_
  cases c.bound with
  | none => exact .modify _
  | some target =>
    refine .bind (stays_textureOf target) fun id => .bind Stays.get fun c => ?_
    cases c.textures.get? id with
    | none => exact Ends.pure fun _ _ => trivial
    | some t => exact .modify _

end AllOrNothing

/-- The backend behind the passes that a call runs; no other call runs any. -/
def advanced (b : HeadlessBackend) : DeviceCall → HeadlessBackend
  | .runOffload id input _ =>
    match b.offloads.get? id with
    | none => b
    | some p =>
      match p.run input with
      | .error _ => b
      | .ok (p', _) => { b with offloads := b.offloads.put id p' }
  | _ => b

/-- The call runs passes on an input that they take and that changes them, and has
named a texture that does not take the result. -/
def Overruns (b : HeadlessBackend) (call : DeviceCall) : Prop :=
  ∃ id input output p p' result, call = .runOffload id input output ∧
    b.offloads.get? id = some p ∧ p.run input = .ok (p', result) ∧ p' ≠ p ∧
    ¬b.outline.Takes output result.length

section RunOffload

variable {b : HeadlessBackend} {id : OffloadId} {p p' : OffloadPasses Float32}
  {input result : List Float32}

theorem advanced_of_run (hp : b.offloads.get? id = some p) (hrun : p.run input = .ok (p', result))
    (output : TextureId) : b.advanced (.runOffload id input output) =
      { b with offloads := b.offloads.put id p' } := by
  simp only [advanced, hp, hrun]

theorem advanced_eq_iff (hp : b.offloads.get? id = some p) (hrun : p.run input = .ok (p', result))
    (output : TextureId) : b.advanced (.runOffload id input output) = b ↔ p' = p := by
  rw [advanced_of_run hp hrun]
  constructor
  · intro heq
    have hput : b.offloads.put id p' = b.offloads := congrArg HeadlessBackend.offloads heq
    have hget := congrArg (·.get? id) hput
    rw [Registry.get?_put_self, hp] at hget
    exact Option.some.inj hget
  · rintro rfl
    rw [Registry.put_self hp]

theorem runs_of_run (hp : b.offloads.get? id = some p) (hrun : p.run input = .ok (p', result)) :
    b.outline.Runs id input.length ∧ result.length = input.length := by
  rcases p.run_cases input with ⟨q, out, hq, -, hout, hin, hlen, hframe⟩ | ⟨⟨e, herror⟩, -⟩
  · rw [hrun] at hq
    cases hq
    refine ⟨⟨p.shape, ?_, hin.symm, hin ▸ hlen, fun h => (hframe h).trans hin.symm⟩, hout.trans hin.symm⟩
    rw [outline, Registry.get?_map, hp, Option.map_some]
  · rw [hrun] at herror
    cases herror

/-- A run of passes that is refused leaves them as they are after it, if they
take the input: the texture is looked at behind the run. -/
theorem ends_runTail (b : HeadlessBackend) (id : OffloadId) (input : List Float32)
    (output : TextureId) :
    Ends (fun c => c = b) (runTail id input output) (fun _ _ => True)
      fun _ c => c = b.advanced (.runOffload id input output) := by
  refine Ends.get_bind ?_
  rintro b rfl
  refine ends_require_bind ?_ fun p hp => ?_
  · rintro hp e _ rfl
    simp only [advanced, hp]
  rcases hrun : p.run input with e | ⟨p', result⟩
  · refine Ends.throw ?_
    rintro _ rfl
    simp only [advanced, hp, hrun]
  rw [advanced_of_run hp hrun]
  refine Ends.record_bind (Ends.bind (R := fun _ c => c = { b with offloads := b.offloads.put id p' })
    (Ends.modify (by rintro _ rfl; rfl)) fun _ => ?_)
  exact allOrNothing_uploadAudio _ output result

end RunOffload

/-- **A call that is refused changes nothing but passes that it has run.** -/
theorem ends_refused (b : HeadlessBackend) (call : DeviceCall) :
    Ends (fun c => c = b) call.perform (fun _ _ => True) fun _ c => c = b.advanced call := by
  have hsame : ∀ e : BackendError, ∀ c, c = b → c = b := fun _ _ h => h
  cases call with
  | compile label fragment =>
    exact (AllOrNothing.of_ends (ends_compileProgram b label fragment) hsame).returned _
  | createTarget width height =>
    exact (AllOrNothing.of_ends (ends_makeTarget b width height) hsame).returned _
  | targetTexture target =>
    exact (AllOrNothing.of_ends (ends_textureOf b target) fun _ _ h => h.1).returned _
  | createAudioTexture len =>
    exact (AllOrNothing.of_ends (ends_addAudioTexture b len) hsame).returned _
  | createColorTexture width height =>
    exact (AllOrNothing.of_ends (ends_addTexture b _) hsame).returned _
  | upload id data => exact (allOrNothing_uploadAudio b id data).returned _
  | bindTarget target =>
    exact (AllOrNothing.of_ends (ends_selectTarget b target) fun _ _ h => h.1).returned _
  | clear color => exact (allOrNothing_clearTo b color).returned _
  | useProgram program =>
    exact (AllOrNothing.of_ends (ends_selectProgram b program) fun _ _ h => h.1).returned _
  | setUniform location value =>
    exact (AllOrNothing.of_ends (ends_storeUniform b location value) hsame).returned _
  | draw => exact (AllOrNothing.of_ends (ends_recordDraw b) hsame).returned _
  | createOffload tail params =>
    exact (AllOrNothing.of_ends (ends_addOffload b tail params) hsame).returned _
  | runOffload id input output => exact Ends.returned (ends_runTail b id input output)
  | delete h => exact (AllOrNothing.modify _).returned _
  | location | screenSize | supportsOffload => exact Ends.returned (Ends.get fun _ _ => trivial)

theorem decides_runOffload (b : HeadlessBackend) (id : OffloadId) (input : List Float32)
    (output : TextureId) : Decides b (DeviceCall.runOffload id input output).perform
      (b.outline.Runs id input.length ∧ b.outline.Takes output input.length) :=
  Ends.returned (Ends.weaken (decides_runTail b id input output) (fun _ h => h) (fun _ _ h => h)
    fun _ _ h => h)

/-- Just such calls are refused and change something. -/
theorem exists_refused_ne_iff (b : HeadlessBackend) (call : DeviceCall) :
    (∃ e c, Fails call.perform b e c ∧ c ≠ b) ↔ b.Overruns call := by
  constructor
  · rintro ⟨e, c, hfails, hne⟩
    have hleft := (ends_refused b call).fails rfl hfails
    cases call with
    | runOffload id input output =>
      rcases hp : b.offloads.get? id with _ | p
      · simp only [advanced, hp] at hleft
        exact absurd hleft hne
      rcases hrun : p.run input with e | ⟨p', result⟩
      · simp only [advanced, hp, hrun] at hleft
        exact absurd hleft hne
      refine ⟨id, input, output, p, p', result, rfl, hp, hrun, ?_, fun htakes => ?_⟩
      · exact fun heq => hne (hleft.trans ((advanced_eq_iff hp hrun output).2 heq))
      · obtain ⟨hruns, hlen⟩ := runs_of_run hp hrun
        rw [hlen] at htakes
        exact (Ends.fails (decides_runOffload b id input output) rfl hfails).2 ⟨hruns, htakes⟩
    | _ => exact absurd hleft hne
  · rintro ⟨id, input, output, p, p', result, rfl, hp, hrun, hne, hnot⟩
    rcases h : (DeviceCall.runOffload id input output).perform b #[] with ⟨⟨e | answer, c⟩, log⟩
    · have hleft := (ends_refused b (.runOffload id input output)).fails rfl ⟨#[], log, h⟩
      refine ⟨e, c, ⟨#[], log, h⟩, fun heq => hne ?_⟩
      exact (advanced_eq_iff hp hrun output).1 (hleft.symm.trans heq)
    · obtain ⟨-, -, htakes⟩ := Ends.gives (decides_runOffload b id input output) rfl ⟨#[], log, h⟩
      rw [← (runs_of_run hp hrun).2] at htakes
      exact absurd htakes hnot

/-! ### States that calls lead to -/

/-- The histories of all passes have frames of their length. -/
def Framed (b : HeadlessBackend) : Prop :=
  ∀ id shape, b.outline.offloads.get? id = some shape → shape.frame = shape.len

theorem Framed.of_offloads {b c : HeadlessBackend} (hb : b.Framed)
    (h : c.outline.offloads = b.outline.offloads) : c.Framed :=
  fun id shape hshape => hb id shape (h ▸ hshape)

/-- **Calls leave passes with histories of their length**, however they end. -/
theorem stays_framed (call : DeviceCall) : Stays Framed call.perform := by
  refine Ends.of_forall fun b hb => ?_
  have hsame : ∀ c, c = b → c.Framed := by
    rintro _ rfl
    exact hb
  have hredrawn : ∀ c, Redrawn b c → c.Framed := fun c hc =>
    hb.of_offloads (congrArg Outline.offloads hc.outline)
  cases call with
  | compile label fragment =>
    refine Ends.returned ((ends_compileProgram b label fragment).weaken (fun _ h => h) ?_ fun _ => hsame)
    rintro _ c ⟨-, _, -, hc⟩
    exact hb.of_offloads (by rw [hc]; rfl)
  | createTarget width height =>
    refine Ends.returned ((ends_addTarget b width height).weaken (fun _ h => h) ?_ fun _ => hsame)
    rintro _ c ⟨-, hc⟩
    exact hb.of_offloads (by rw [hc]; rfl)
  | createAudioTexture len =>
    refine Ends.returned ((ends_addAudioTexture b len).weaken (fun _ h => h) ?_ fun _ => hsame)
    rintro _ c ⟨-, hc⟩
    exact hb.of_offloads (by rw [hc]; rfl)
  | createColorTexture width height =>
    refine Ends.returned ((ends_addTexture b _).weaken (fun _ h => h) ?_ fun _ => hsame)
    rintro _ _ ⟨rfl, -⟩
    exact hb.of_offloads rfl
  | createOffload tail params =>
    refine Ends.returned ((ends_addOffload b tail params).weaken (fun _ h => h) ?_ fun _ => hsame)
    rintro _ c ⟨-, hc⟩ id shape hshape
    rw [hc] at hshape
    rcases Registry.get?_put_cases hshape with ⟨-, rfl⟩ | ⟨-, hshape⟩
    · exact (AverageState.len_new ..).trans List.length_replicate.symm
    · exact hb id shape hshape
  | delete h =>
    refine Ends.returned (Ends.modify ?_)
    rintro _ rfl id shape hshape
    rw [outline_delete] at hshape
    cases h with
    | offload x => exact hb id shape (Registry.get?_of_get?_erase hshape).2
    | _ => exact hb id shape hshape
  | bindTarget target =>
    refine Ends.returned ((ends_selectTarget b target).weaken (fun _ h => h) ?_ fun _ c h => hsame c h.1)
    rintro _ _ ⟨-, rfl⟩
    exact hb.of_offloads rfl
  | useProgram program =>
    refine Ends.returned ((ends_selectProgram b program).weaken (fun _ h => h) ?_ fun _ c h => hsame c h.1)
    rintro _ _ ⟨-, rfl⟩
    exact hb.of_offloads rfl
  | targetTexture target =>
    exact Ends.returned ((ends_textureOf b target).weaken (fun _ h => h) (fun _ c h => hsame c h.1)
      fun _ c h => hsame c h.1)
  | upload id data =>
    exact Ends.returned ((decides_uploadAudio b id data).weaken (fun _ h => h)
      (fun _ c h => hredrawn c h.1) fun _ c h => hredrawn c h.1)
  | clear color =>
    exact Ends.returned ((decides_clearTo b color).weaken (fun _ h => h)
      (fun _ c h => hredrawn c h.1) fun _ c h => hredrawn c h.1)
  | setUniform location value =>
    exact Ends.returned ((decides_storeUniform b location value).weaken (fun _ h => h)
      (fun _ c h => hredrawn c h.1) fun _ c h => hredrawn c h.1)
  | draw =>
    exact Ends.returned ((decides_recordDraw b).weaken (fun _ h => h)
      (fun _ c h => hredrawn c h.1) fun _ c h => hredrawn c h.1)
  | runOffload id input output =>
    exact (decides_runOffload b id input output).weaken (fun _ h => h)
      (fun _ c h => hredrawn c h.1) fun _ c h => hredrawn c h.1
  | location | screenSize | supportsOffload => exact Ends.returned (Ends.get hsame)

/-- The states that calls lead to from `b₀`, each call served or refused. -/
inductive Arises (b₀ : HeadlessBackend) : HeadlessBackend → Prop
  | start : Arises b₀ b₀
  | served {b c : HeadlessBackend} (h : Arises b₀ b) (call : DeviceCall) (answer : Answer)
      (hgives : Gives call.perform b answer c) : Arises b₀ c
  | refused {b c : HeadlessBackend} (h : Arises b₀ b) (call : DeviceCall) (e : BackendError)
      (hfails : Fails call.perform b e c) : Arises b₀ c

theorem Arises.framed {b₀ b : HeadlessBackend} (h : Arises b₀ b) (hb₀ : b₀.Framed) : b.Framed := by
  induction h with
  | start => exact hb₀
  | served _ call answer hgives ih => exact Ends.gives (stays_framed call) ih hgives
  | refused _ call e hfails ih => exact Ends.fails (stays_framed call) ih hfails

/-- Passes whose history has frames of their length refuse a buffer for its length
only, so before they have taken in anything. -/
theorem Framed.run_error_iff {b : HeadlessBackend} (h : b.Framed) {id : OffloadId}
    {p : OffloadPasses Float32} (hp : b.offloads.get? id = some p) (input : List Float32) :
    (∃ e, p.run input = .error e) ↔ ¬(input.length = p.len ∧ isBufferLength p.len = true) := by
  have hshape : b.outline.offloads.get? id = some p.shape := by
    rw [outline, Registry.get?_map, hp, Option.map_some]
  have hframe : p.history.len = p.len := h id p.shape hshape
  rcases p.run_cases input with ⟨q, out, hrun, -, -, hin, hlen, -⟩ | ⟨herror, hnot⟩
  · rw [hrun]
    constructor
    · rintro ⟨e, herror⟩
      cases herror
    · exact fun hnot => absurd ⟨hin, hlen⟩ hnot
  · exact ⟨fun _ hok => hnot ⟨hok.1, hok.2, fun _ => hframe⟩, fun _ => herror⟩

/-- **A refused call changes nothing but passes that were run too early.** In
every state that calls lead to, a call that is refused leaves the backend as it
was, up to the passes that it has run; it does change them just if they take the
input, come to other ones by it, and the texture does not take their result.
Passes with a history of several frames always come to other ones, and passes
that keep nothing never do; and they refuse an input for its length only. -/
theorem refused_calls_advance_passes_only {screen : Nat × Nat} {offloadEnabled : Bool}
    {b : HeadlessBackend} (h : Arises { screen, offloadEnabled } b) (call : DeviceCall) :
    (∀ e c, Fails call.perform b e c → c = b.advanced call) ∧
    ((∃ e c, Fails call.perform b e c ∧ c ≠ b) ↔ b.Overruns call) ∧
    ∀ id p input, b.offloads.get? id = some p →
      ((∃ e, p.run input = .error e) ↔ ¬(input.length = p.len ∧ isBufferLength p.len = true)) ∧
      ∀ p' result, p.run input = .ok (p', result) →
        (p.tail.hasAverage = true → 2 ≤ p.history.frames → p' ≠ p) ∧
        (p.tail.hasGravity = false → p' = p) := by
  have hframed : b.Framed := h.framed nofun
  refine ⟨fun e c hfails => (ends_refused b call).fails rfl hfails, exists_refused_ne_iff b call, ?_⟩
  exact fun id p input hp => ⟨hframed.run_error_iff hp input, fun p' result hrun =>
    ⟨OffloadPasses.ne_of_run hrun, OffloadPasses.eq_of_run hrun⟩⟩

/-- Parameters with buffers of two numbers and averages over two frames. -/
def pairParams : TransformParams Float32 :=
  { TransformParams.default with bufferLen := 2, avgFrames := 2, avgWindow := false }

/-- The backend with passes behind the first handle. -/
def pairBackend : HeadlessBackend :=
  { screen := (4, 4), next := 2, offloads := Registry.empty.put ⟨1⟩ (.new .fftGravityAverage pairParams) }

theorem arises_pairBackend : Arises { screen := (4, 4) } pairBackend :=
  .served .start (.createOffload .fftGravityAverage pairParams) (.made (.offload ⟨1⟩)) ⟨#[], _, rfl⟩

/-- Nothing has the second handle. -/
theorem overruns_pairBackend : pairBackend.Overruns (.runOffload ⟨1⟩ [0.0, 0.0] ⟨2⟩) := by
  have hp : pairBackend.offloads.get? ⟨1⟩ = some (.new .fftGravityAverage pairParams) :=
    Registry.get?_put_self ..
  rcases (OffloadPasses.new .fftGravityAverage pairParams).run_cases [0.0, 0.0] with
    ⟨p', result, hrun, -⟩ | ⟨-, hnot⟩
  · exact ⟨_, _, _, _, p', result, rfl, hp, hrun, OffloadPasses.ne_of_run hrun rfl (by decide),
      not_takes_of_get? rfl⟩
  · exact absurd ⟨rfl, rfl, fun _ => rfl⟩ hnot

theorem refused_calls_pairBackend :
    ∃ b, Arises { screen := (4, 4) } b ∧ ∃ e c,
      Fails (DeviceCall.runOffload ⟨1⟩ [0.0, 0.0] ⟨2⟩).perform b e c ∧ c ≠ b ∧
        c = b.advanced (.runOffload ⟨1⟩ [0.0, 0.0] ⟨2⟩) := by
  obtain ⟨hleft, hchanges, -⟩ :=
    refused_calls_advance_passes_only arises_pairBackend (.runOffload ⟨1⟩ [0.0, 0.0] ⟨2⟩)
  obtain ⟨e, c, hfails, hne⟩ := hchanges.2 overruns_pairBackend
  exact ⟨pairBackend, arises_pairBackend, e, c, hfails, hne, hleft e c hfails⟩

/-- A refused call may change the backend. -/
theorem not_refused_calls_change_nothing :
    ¬∀ b, Arises { screen := (4, 4) } b → ∀ call e c, Fails (DeviceCall.perform call) b e c → c = b := by
  intro hall
  obtain ⟨e, c, hfails, hne⟩ := (exists_refused_ne_iff pairBackend _).2 overruns_pairBackend
  exact hne (hall pairBackend arises_pairBackend _ e c hfails)

end HeadlessBackend
end AudioShader
