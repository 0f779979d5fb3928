/-
# Runs that share results

A pipeline keeps the states of bindings that ask for the same chain on the same
source only once, and within a tick runs such a chain only once. This does not
show: whatever happens, the device is left as an executor leaves it in which
every binding has its own states and runs its own chain.

Key definitions: `Rendering.tickInput`, `EvaluatesOnce`, `Alike`.
Key theorems: `Alike.shadows_renderTick`, `Alike.ran`, `ran_unshared`.
-/
import AudioShader.Graphics.Headless
import AudioShader.Proofs.Pipeline.Ticks

namespace AudioShader

open AudioShader.Action (Gives Shadows)

variable {σ : Type} [GraphicsBackend σ]

/-- What the stages of the next tick of a rendering see. -/
def Rendering.tickInput (r : Rendering σ) (seconds : Float32) : TickInput :=
  r.pipeline.tickInput r.audio.snapshot.1 (GraphicsBackend.screenSize r.device) seconds

namespace Pipeline

/-- A tick moves the keyframes only, and does not ask for the states. -/
theorem moved_eq (p : Pipeline) (snapshot : AudioSnapshot Float32) :
    ∃ left right, ∀ store, { p with store }.moved snapshot = { p with store, left, right } := by
  have hmoved : ∀ store, { p with store }.moved snapshot =
      if !p.interpolating then { p with store }
      else if snapshot.fresh then
        { p with
          store
          left := p.left.rotate snapshot.frame.left
          right := p.right.rotate snapshot.frame.right }
      else { p with store, left := p.left.advance, right := p.right.advance } := fun _ => rfl
  cases hi : p.interpolating with
  | false => exact ⟨p.left, p.right, fun store => by rw [hmoved, hi]; rfl⟩
  | true =>
    cases hf : snapshot.fresh with
    | false => exact ⟨p.left.advance, p.right.advance, fun store => by rw [hmoved, hi, hf]; rfl⟩
    | true => exact ⟨_, _, fun store => by rw [hmoved, hi, hf]; rfl⟩

end Pipeline

/-! ### One tick -/

/-- A tick draws the stages and keeps the states that this leaves. -/
theorem renderTick_gives {r r' : Rendering σ} {seconds : Float32} {report : TickReport}
    (h : Gives (renderTick seconds) r report r') : ∃ d,
      Gives (drawStages (r.tickInput seconds) none r.pipeline.stages)
        { device := r.device, store := r.pipeline.store } () d ∧
      r'.device = d.device ∧ r'.pipeline.store = d.store := by
  obtain ⟨_, _, hget, h⟩ := Gives.bind h
  obtain ⟨rfl, rfl⟩ := hget.of_get
  obtain ⟨_, r₁, hset, h⟩ := Gives.bind h
  obtain rfl := hset.of_set
  obtain ⟨_, r₂, hdraw, h⟩ := Gives.bind h
  obtain ⟨_, _, hget, hdraw⟩ := Gives.bind hdraw
  obtain ⟨rfl, rfl⟩ := hget.of_get
  obtain ⟨d, hstages, rfl⟩ := hdraw.of_within
  obtain ⟨_, r₃, hrecord, h⟩ := Gives.bind h
  obtain rfl := hrecord.of_record
  obtain ⟨_, r₄, hmodify, h⟩ := Gives.bind h
  obtain rfl := hmodify.of_modify
  obtain ⟨-, rfl⟩ := h.of_pure
  refine ⟨d, hstages, rfl, ?_⟩
  obtain ⟨left, right, hmoved⟩ := r.pipeline.moved_eq r.audio.snapshot.1
  exact congrArg Pipeline.store (hmoved d.store)

/-- A tick from `r` to `r'` evaluates `evals` while its stages are drawn to `d`:
each chain on each source that is asked for, once, if it uploads audio. -/
structure EvaluatesOnce (r : Rendering σ) (seconds : Float32) (r' : Rendering σ) (d : Drawing σ)
    (evals : List (SourceKind × Chain)) : Prop where
  drawn : Gives (drawStages (r.tickInput seconds) none r.pipeline.stages)
    { device := r.device, store := r.pipeline.store } () d
  device : r'.device = d.device
  store : r'.pipeline.store = d.store
  trace : Evaluates (r.tickInput seconds) r.pipeline.store r.pipeline.bindings evals d.store d.memo
  size : d.memo.size = evals.length
  nodup : evals.Nodup
  mem_iff : ∀ key, key ∈ evals ↔
    (r.pipeline.interpolating || r.audio.fresh || r.pipeline.ticks == 0) = true ∧
      ∃ b ∈ r.pipeline.bindings, b.heard?.isSome = true ∧ b.key = key

/-- A rendering and one that shares nothing are alike: they differ only in their
states, and those of each binding are the ones its leader has. -/
structure Alike (r : Rendering σ) (q : Unshared.Rendering σ) : Prop where
  device : r.device = q.device
  audio : r.audio = q.audio
  pipeline : { r.pipeline with store := {} } = q.pipeline
  cpu : ∀ b ∈ r.pipeline.bindings, b.mode = .cpu
  ids : (r.pipeline.bindings.map (·.id)).Nodup
  states : ∀ b ∈ r.pipeline.bindings, b.heard?.isSome = true →
    ∀ ℓ, leader? r.pipeline.bindings b = some ℓ →
      (q.states b.id).view b.id = r.pipeline.store.view ℓ.id

/-- Renderings after all stages are drawn, from alike ones. -/
def Drawn (t : TickInput) (r : Rendering σ) (q : Unshared.Rendering σ) (r' : Rendering σ)
    (q' : Unshared.Rendering σ) : Prop :=
  ∃ d e, Paired (Aligned t r.pipeline.bindings r.pipeline.store r.pipeline.bindings []) d e ∧
    r' = { r with device := d.device, pipeline := { r.pipeline with store := d.store } } ∧
    q' = { q with device := e.device, states := e.states }

namespace Alike

variable {r : Rendering σ} {q : Unshared.Rendering σ}

omit [GraphicsBackend σ] in
theorem paired (h : Alike r q) (t : TickInput) :
    Paired (Aligned t r.pipeline.bindings r.pipeline.store [] r.pipeline.bindings)
      ({ device := r.device, store := r.pipeline.store } : Drawing σ)
      ({ device := q.device, states := q.states } : Unshared.Drawing σ) :=
  ⟨h.device, .start h.states⟩

theorem shadows_stages (h : Alike r q) (t : TickInput) :
    Shadows (Paired (Aligned t r.pipeline.bindings r.pipeline.store [] r.pipeline.bindings))
      (drawStages t none r.pipeline.stages : Action (Drawing σ) RenderError Unit)
      (Unshared.drawStages t none q.pipeline.stages)
      (Paired (Aligned t r.pipeline.bindings r.pipeline.store r.pipeline.bindings [])) := by
  rw [← h.pipeline]
  exact shadows_drawStages h.ids h.cpu r.pipeline.stages none []

theorem shadows_drawAll (h : Alike r q) (t : TickInput) :
    Shadows (fun r₁ q₁ => r₁ = r ∧ q₁ = q) (drawAll t : Action (Rendering σ) RenderError Unit)
      (Unshared.drawAll t) (Drawn t r q) := by
  rintro r q log u r' log' ⟨rfl, rfl⟩ hd
  have hall : Shadows (fun r₁ q₁ => r₁ = r ∧ q₁ = q)
      (Action.within (fun r => ({ device := r.device, store := r.pipeline.store } : Drawing σ))
        (fun d r => { r with device := d.device, pipeline := { r.pipeline with store := d.store } })
        (drawStages t none r.pipeline.stages))
      (Action.within (fun q => ({ device := q.device, states := q.states } : Unshared.Drawing σ))
        (fun e q => { q with device := e.device, states := e.states })
        (Unshared.drawStages t none q.pipeline.stages)) (Drawn t r q) := by
    refine (h.shadows_stages t).within ?_ ?_
    · rintro _ _ ⟨rfl, rfl⟩
      exact h.paired t
    · rintro _ _ d e ⟨rfl, rfl⟩ hpaired
      exact ⟨d, e, hpaired, rfl, rfl⟩
  exact hall ⟨rfl, rfl⟩ hd

omit [GraphicsBackend σ] in
/-- After a tick the renderings are alike again. -/
theorem shadows_moved (h : Alike r q) (t : TickInput) (snapshot : AudioSnapshot Float32) :
    Shadows (Drawn t r q)
      (modify fun r => { r with
        pipeline := { r.pipeline.moved snapshot with ticks := r.pipeline.ticks + 1 } } :
          Action (Rendering σ) RenderError PUnit)
      (modify fun q => { q with
        pipeline := { q.pipeline.moved snapshot with ticks := q.pipeline.ticks + 1 } }) Alike := by
  refine Shadows.modify fun r' q' hd => ?_
  obtain ⟨d, e, ⟨hdevice, hal⟩, rfl, rfl⟩ := hd
  obtain ⟨left, right, hmoved⟩ := r.pipeline.moved_eq snapshot
  have hq : q.pipeline.moved snapshot =
      { r.pipeline with store := {}, left, right } := by
    rw [← h.pipeline]
    exact hmoved {}
  refine ⟨hdevice, h.audio, ?_, ?_, ?_, ?_⟩
  · dsimp only
    rw [hmoved, hq, ← h.pipeline]
  all_goals
    dsimp only
    rw [hmoved]
  · exact h.cpu
  · exact h.ids
  · exact hal.filled

/-- A tick leaves renderings alike. -/
theorem shadows_renderTick (h : Alike r q) (seconds : Float32) :
    Shadows (fun r₁ q₁ => r₁ = r ∧ q₁ = q)
      (renderTick seconds : Action (Rendering σ) RenderError TickReport)
      (Unshared.renderTick seconds) Alike := by
  obtain ⟨device, audio, pipeline, states⟩ := q
  obtain ⟨rfl, rfl, rfl, hcpu, hids, hstates⟩ := h
  -- both have taken the same snapshot
  have hheard : Alike { r with audio := r.audio.snapshot.2 }
      ⟨r.device, r.audio.snapshot.2, { r.pipeline with store := {} }, states⟩ :=
    ⟨rfl, rfl, rfl, hcpu, hids, hstates⟩
  have hrest (event : Event) (report : TickReport) :=
    (hheard.shadows_drawAll (r.tickInput seconds)).bind fun _ => (Shadows.record event).bind fun _ =>
      (hheard.shadows_moved (r.tickInput seconds) r.audio.snapshot.1).bind fun _ =>
        Shadows.pure report
  rintro _ _ log report r' log' ⟨rfl, rfl⟩ hr
  exact hrest _ _ ⟨rfl, rfl⟩ hr

theorem evaluatesOnce (h : Alike r q) {r' : Rendering σ} {seconds : Float32} {report : TickReport}
    (hgives : Gives (renderTick seconds) r report r') :
    ∃ d evals, EvaluatesOnce r seconds r' d evals := by
  obtain ⟨d, hdrawn, hdevice, hstore⟩ := renderTick_gives hgives
  obtain ⟨e, -, -, hal⟩ := (h.shadows_stages _).gives (h.paired _) hdrawn
  obtain ⟨evals, htrace⟩ := hal.trace
  exact ⟨d, evals, hdrawn, hdevice, hstore, htrace, htrace.size_eq, htrace.nodup, htrace.mem_iff⟩

/-! ### Runs -/

omit [GraphicsBackend σ] in
theorem publish (h : Alike r q) (frame : AudioFrame Float32) :
    Alike (r.publish frame) (q.publish frame) :=
  ⟨h.device, by rw [Rendering.publish, Unshared.Rendering.publish, h.audio], h.pipeline, h.cpu,
    h.ids, h.states⟩

omit [GraphicsBackend σ] in
/-- Without states, sharing makes no difference. -/
theorem start (hcpu : ∀ b ∈ r.pipeline.bindings, b.mode = .cpu)
    (hids : (r.pipeline.bindings.map (·.id)).Nodup) (hstore : r.pipeline.store = {}) :
    Alike r (Unshared.ofRendering r) where
  device := rfl
  audio := rfl
  pipeline := by rw [← hstore]; rfl
  cpu := hcpu
  ids := hids
  states b _ _ ℓ _ := by rw [hstore]; rfl

theorem ran (h : Alike r q) {hs : List Happening} {r' : Rendering σ}
    (hran : Ran renderTick Rendering.publish r hs r') :
    ∃ q', Ran Unshared.renderTick Unshared.Rendering.publish q hs q' ∧ Alike r' q' := by
  induction hran with
  | nil => exact ⟨q, .nil q, h⟩
  | @tick _ _ _ seconds _ _ hgives ih =>
    obtain ⟨q₁, hran₁, halike₁⟩ := ih
    obtain ⟨q', hgives', halike'⟩ := (halike₁.shadows_renderTick seconds).gives ⟨rfl, rfl⟩ hgives
    exact ⟨q', .tick hran₁ hgives', halike'⟩
  | publish frame _ ih =>
    obtain ⟨q', hran', halike'⟩ := ih
    exact ⟨q'.publish frame, .publish frame hran', halike'.publish frame⟩

end Alike

/-- However ticks and published audio follow each other, the device is left as
if every binding had its own states and ran its whole chain at each upload, and
a further tick evaluates each chain on each source that is asked for, once. The
numbers of bindings are distinct, as a build makes them
(`nodup_ids_of_buildStages`), and no states are kept at first. -/
theorem ran_unshared {r r' : Rendering σ} {hs : List Happening}
    (hcpu : ∀ b ∈ r.pipeline.bindings, b.mode = .cpu)
    (hids : (r.pipeline.bindings.map (·.id)).Nodup) (hstore : r.pipeline.store = {})
    (hran : Ran renderTick Rendering.publish r hs r') :
    (∃ q', Ran Unshared.renderTick Unshared.Rendering.publish (Unshared.ofRendering r) hs q' ∧
      q'.device = r'.device) ∧
    ∀ seconds report r'', Gives (renderTick seconds) r' report r'' →
      ∃ d evals, EvaluatesOnce r' seconds r'' d evals := by
  obtain ⟨q', hran', halike⟩ := (Alike.start hcpu hids hstore).ran hran
  exact ⟨⟨q', hran', halike.device.symm⟩, fun seconds report r'' => halike.evaluatesOnce⟩

/-! ### Two uniforms with the same chain -/

/-- A device with a program of two uniforms and their textures, and a stage that
fills both from the left channel through a chain with gravity. -/
def twoFalls : Rendering HeadlessBackend where
  device :=
    { screen := (1, 1)
      programs := Registry.empty.put ⟨1⟩
        ⟨"stage 1", "", [⟨"low", .sampler1D, true, none⟩, ⟨"high", .sampler1D, true, none⟩]⟩
      textures := (Registry.empty.put ⟨2⟩ (.zeros 2 1 1)).put ⟨3⟩ (.zeros 2 1 1) }
  audio := .new 2
  pipeline :=
    { stages := [
        { ordinal := 1
          path := ⟨"1.frag"⟩
          program := ⟨1⟩
          bindings := [
            { id := ⟨0⟩, name := "low", source := ⟨"audio_l", .sampler1D, .audio .left⟩,
              location := some ⟨0⟩, chain := ⟨[.gravity]⟩, mode := .cpu, texture := some ⟨2⟩ },
            { id := ⟨1⟩, name := "high", source := ⟨"audio_l", .sampler1D, .audio .left⟩,
              location := some ⟨1⟩, chain := ⟨[.gravity]⟩, mode := .cpu, texture := some ⟨3⟩ }]
          map := {} }]
      settings := { bufferSize := 2, interpolate := false }
      left := .new 2
      right := .new 2
      externals := {}
      placeholder := ⟨4⟩ }

/-- Two ticks with new audio before each: at the second one both uniforms go on
from the states of the first. -/
theorem ran_twoFalls : ∃ report r₁ report' r₂ q₂ d evals,
    Ran renderTick Rendering.publish twoFalls
      [.publish ⟨[1, 2], [0, 0]⟩, .tick 0 report, .publish ⟨[0, 3], [0, 0]⟩] r₁ ∧
    Gives (renderTick 1) r₁ report' r₂ ∧
    Ran Unshared.renderTick Unshared.Rendering.publish (Unshared.ofRendering twoFalls)
      [.publish ⟨[1, 2], [0, 0]⟩, .tick 0 report, .publish ⟨[0, 3], [0, 0]⟩, .tick 1 report'] q₂ ∧
    q₂.device = r₂.device ∧ EvaluatesOnce r₁ 1 r₂ d evals := by
  obtain ⟨report, hfirst⟩ := Gives.of_isOk (a := renderTick 0)
    (s := twoFalls.publish ⟨[1, 2], [0, 0]⟩) #[] (by decide +kernel)
  have hran := Ran.publish ⟨[0, 3], [0, 0]⟩ (.tick (.publish ⟨[1, 2], [0, 0]⟩ (.nil twoFalls)) hfirst)
  obtain ⟨report', hsecond⟩ := Gives.of_isOk (a := renderTick 1)
    (s := ((renderTick 0 (twoFalls.publish ⟨[1, 2], [0, 0]⟩) #[]).1.2).publish ⟨[0, 3], [0, 0]⟩)
    #[] (by decide +kernel)
  obtain ⟨-, hevals⟩ := ran_unshared (by decide) (by decide) rfl hran
  obtain ⟨d, evals, honce⟩ := hevals 1 report' _ hsecond
  obtain ⟨⟨q₂, hran', hdevice⟩, -⟩ := ran_unshared (by decide) (by decide) rfl (.tick hran hsecond)
  exact ⟨report, _, report', _, q₂, d, evals, hran, hsecond, hran', hdevice, honce⟩

end AudioShader
