/-
# A module that is built renders if its uniforms suit their sources

A build looks at neither the type that a uniform is declared with nor the type
of the source it is filled from, and that is all it does not look at: the ticks
of a pipeline that was built succeed, all of them, just if the types fit.

Key definitions: `Pipeline.Sound`, `Pipeline.Suited`, `Driven`.
Key theorems: `sound_of_build`, `hinges_renderTick`, `isOk_renderTick_iff_suited`.
-/
import AudioShader.Proofs.Graphics.Bytes
import AudioShader.Proofs.Pipeline.Draws
import AudioShader.Proofs.Pipeline.Runs
import AudioShader.Proofs.Settings.Valid
import AudioShader.Proofs.Uniform.Accepted

namespace AudioShader

open AudioShader.Action (Ends Stays Gives Fails Hinges)

/-! ### What a build leaves -/

/-- All that ticks ask of a pipeline at any time, apart from the types of its
uniforms. -/
structure Pipeline.Sound (o : Outline) (binds : List BindDecl) (p : Pipeline) : Prop where
  len : isBufferLength p.settings.bufferSize = true
  stages : ∀ st ∈ p.stages, st.Sound o p.settings.bufferSize binds
  ids : (p.bindings.map (·.id)).Nodup
  placeholder : p.placeholder ∈ o.textures.keys
  externals : p.externals.Typed binds
  ready : ∀ x ∈ p.bindings, AllReady p.settings.params 0 x.hostSteps (p.store.view x.id)

/-- All uniforms of a pipeline are declared with types that suit their sources. -/
def Pipeline.Suited (o : Outline) (p : Pipeline) : Prop := ∀ st ∈ p.stages, st.Suited o

/-- A pipeline is made of stages, on a device that gets the placeholder. -/
theorem ends_ofStages {device : HeadlessBackend} (hdevice : device.outline.Numbered)
    (stages : List ShaderStage) (settings : PipelineSettings) (externals : ExternalValues) :
    Ends (fun d => d = device) (Pipeline.ofStages stages settings externals)
      (fun p d => device.outline.Grows d.outline ∧ p.placeholder ∈ d.outline.textures.keys ∧
        p.stages = stages ∧ p.settings = settings ∧ p.externals = externals ∧ p.store = {})
      fun _ _ => True := by
  let Made : TextureId → HeadlessBackend → Prop := fun placeholder d =>
    device.outline.Grows d.outline ∧ placeholder ∈ d.outline.textures.keys
  refine Ends.bind (R := fun created d => ∀ placeholder, created.toOption = some placeholder →
    Made placeholder d) (Ends.attempt ?_) fun created => ?_
  · refine (HeadlessBackend.ends_addTexture device _ (E := fun _ _ => False)).weaken (fun _ h => h)
      ?_ fun _ _ h => h.elim
    rintro _ _ ⟨rfl, rfl⟩ placeholder ⟨⟩
    dsimp only [Made]
    rw [HeadlessBackend.outline_addTexture]
    exact ⟨hdevice.grows_addTexture _, Registry.mem_keys_of_get? (Registry.get?_put_self ..)⟩
  rcases created with e | placeholder
  · exact Ends.bind (R := fun _ _ => True) (Ends.modify fun _ _ => trivial) fun _ =>
      Ends.throw fun _ _ => trivial
  · dsimp only
    split
    · exact Ends.record_bind (Ends.pure fun d hd =>
        ⟨(hd placeholder rfl).1, (hd placeholder rfl).2, rfl, rfl, rfl, rfl⟩)
    · exact Ends.pure fun d hd =>
        ⟨(hd placeholder rfl).1, (hd placeholder rfl).2, rfl, rfl, rfl, rfl⟩

/-- A pipeline that is built is sound. -/
theorem sound_of_build {setup : StageSetup} (hlen : isBufferLength setup.settings.bufferSize = true)
    (hbinds : RunConfig.checkBinds [] setup.binds = .ok ()) {externals : ExternalValues}
    (hexternals : ExternalValues.ofBinds setup.binds = .ok externals) {device device' : HeadlessBackend}
    (hdevice : device.outline.Numbered) {moduleDir : Path} {p : Pipeline}
    (h : Gives (Pipeline.build setup moduleDir externals) device p device') :
    p.Sound device'.outline setup.binds := by
  obtain ⟨stages, d, hstages, hp⟩ := Gives.bind h
  obtain ⟨hnumbered, hsound⟩ :=
    (sound_buildStages hlen (isNameChar_of_checkBinds hbinds) hdevice moduleDir).gives rfl hstages
  obtain ⟨hgrows, hplaceholder, rfl, hsettings, rfl, hstore⟩ :=
    (ends_ofStages hnumbered stages setup.settings externals).gives rfl hp
  refine ⟨?_, fun st hst => ?_, nodup_ids_of_buildStages hstages, hplaceholder,
    ExternalValues.typed_ofBinds hexternals, fun x _ i kind _ => ?_⟩
  · rw [hsettings]
    exact hlen
  · rw [hsettings]
    exact hgrows.sound_stage (hsound st hst)
  · rw [hstore, StateStore.view_empty]
    exact ready_none _ kind

/-! ### Ticks -/

/-- A rendering of certain stages on a device with an outline is sound. -/
structure Fit (o : Outline) (binds : List BindDecl) (stages : List ShaderStage)
    (r : Rendering HeadlessBackend) : Prop where
  outline : r.device.outline = o
  stages : r.pipeline.stages = stages
  sound : r.pipeline.Sound o binds

section Ticks

variable {o : Outline} {binds : List BindDecl} {stages : List ShaderStage}

theorem Pipeline.length_channelInput (p : Pipeline) (keys : Keyframes Float32)
    (samples : List Float32) : (p.channelInput keys samples).length = p.settings.bufferSize := by
  unfold channelInput
  split
  · rw [Keyframes.sampleInto, Keyframes.length_overwrite, List.length_replicate]
  · exact length_fitted _ _

theorem Pipeline.Sound.tickInput {p : Pipeline} (h : p.Sound o binds)
    (snapshot : AudioSnapshot Float32) (screen : Nat × Nat) (seconds : Float32) :
    (p.tickInput snapshot screen seconds).Sound o binds where
  len := h.len
  channel c := by cases c <;> exact p.length_channelInput _ _
  placeholder := h.placeholder
  externals hd hv := h.externals.fits_getElem? hd hv

/-- The states that the stages leave are those of a sound pipeline again. -/
theorem Pipeline.Sound.withStore {p : Pipeline} (h : p.Sound o binds) {t : TickInput}
    (ht : t.settings = p.settings) {d : Drawing HeadlessBackend} (hd : Poised o t p.bindings d) :
    { p with store := d.store }.Sound o binds :=
  { h with ready := ht ▸ hd.ready }

/-- A tick that is over has moved the keyframes only. -/
theorem Pipeline.Sound.moved {p : Pipeline} (h : p.Sound o binds) (snapshot : AudioSnapshot Float32)
    (ticks : Nat) : (p.moved snapshot).stages = p.stages ∧
      { p.moved snapshot with ticks }.Sound o binds := by
  obtain ⟨left, right, hmoved⟩ := p.moved_eq snapshot
  have hmoved : p.moved snapshot = { p with left, right } := hmoved p.store
  rw [hmoved]
  exact ⟨rfl, { h with }⟩

theorem hinges_drawAll {r : Rendering HeadlessBackend} (hr : Fit o binds stages r) {t : TickInput}
    (ht : t.Sound o binds) (hsettings : t.settings = r.pipeline.settings) :
    Hinges (fun r' => r' = r) (Fit o binds stages) (Fit o binds stages) (drawAll t)
      (∀ st ∈ stages, st.Suited o) := by
  refine Ends.get_bind ?_
  rintro r rfl
  refine Ends.within ?_
  rintro r rfl
  have hstart : Poised o t r.pipeline.bindings { device := r.device, store := r.pipeline.store } :=
    ⟨hr.outline, hsettings.symm ▸ hr.sound.ready, fun h => nomatch h⟩
  have hdrawn : ∀ d, Poised o t r.pipeline.bindings d → Fit o binds stages
      { r with device := d.device, pipeline := { r.pipeline with store := d.store } } :=
    fun d hd => ⟨hd.outline, hr.stages, hr.sound.withStore hsettings hd⟩
  have hfirst : ∀ id, (none : Option TextureId) = some id → id ∈ o.textures.keys := nofun
  refine (hinges_drawStages hr.sound.ids ht hfirst (hsettings.symm ▸ hr.sound.stages)
    fun st hst x hx => List.mem_flatMap.2 ⟨st, hst, hx⟩).weaken
    (by rintro _ rfl; exact hstart) ?_ ?_
  · rintro _ d ⟨hd, hsuited⟩
    exact ⟨hdrawn d hd, hr.stages ▸ hsuited⟩
  · rintro _ d ⟨hd, hsuited⟩
    exact ⟨hdrawn d hd, hr.stages ▸ hsuited⟩

/-- A tick of a sound rendering succeeds just if the uniforms suit their sources,
and leaves it sound either way. -/
theorem hinges_renderTick (seconds : Float32) :
    Hinges (Fit o binds stages) (Fit o binds stages) (Fit o binds stages) (renderTick seconds)
      (∀ st ∈ stages, st.Suited o) := by
  refine Ends.get_bind fun r hr => ?_
  have hheard : Fit o binds stages { r with audio := r.audio.snapshot.2 } :=
    ⟨hr.outline, hr.stages, hr.sound⟩
  refine Hinges.ends_bind (S := fun _ r' => r' = { r with audio := r.audio.snapshot.2 })
    (Ends.set fun _ _ => rfl) fun _ => ?_
  refine Hinges.congr (Hinges.bind (hinges_drawAll hheard (hr.sound.tickInput _ _ seconds) rfl)
    fun _ => Hinges.of_ends ?_) (and_iff_left trivial)
  refine Ends.record_bind (Ends.bind (R := fun _ => Fit o binds stages) (Ends.modify fun r' hr' => ?_)
    fun _ => Ends.pure fun _ h => h)
  obtain ⟨hstages, hsound⟩ := hr'.sound.moved r.audio.snapshot.1 (r'.pipeline.ticks + 1)
  exact ⟨hr'.outline, hstages.trans hr'.stages, hsound⟩

end Ticks

/-! ### Runs -/

/-- What may happen to a pipeline at work: ticks, however they end, audio that is
published, and values from outside that are accepted. -/
inductive Driven {σ : Type} [GraphicsBackend σ] : Rendering σ → Rendering σ → Prop
  | nil (r : Rendering σ) : Driven r r
  | tick {r r' : Rendering σ} (seconds : Float32) (log : Log) :
    Driven r r' → Driven r (renderTick seconds r' log).1.2
  | publish {r r' : Rendering σ} (frame : AudioFrame Float32) : Driven r r' → Driven r (r'.publish frame)
  | update {r r' : Rendering σ} {name text : String} {externals : ExternalValues} :
    Driven r r' → r'.pipeline.externals.set name text = .ok externals →
    Driven r { r' with pipeline := { r'.pipeline with externals } }

theorem Driven.fit {o : Outline} {binds : List BindDecl} {stages : List ShaderStage}
    {r r' : Rendering HeadlessBackend} (h : Driven r r') (hr : Fit o binds stages r) :
    Fit o binds stages r' := by
  induction h with
  | nil => exact hr
  | tick seconds log _ ih =>
    have hstays : Stays (Fit o binds stages) (renderTick seconds) :=
      (hinges_renderTick seconds).weaken (fun _ h => h) (fun _ _ h => h.1) fun _ _ h => h.1
    exact hstays.apply ih log
  | publish frame _ ih => exact ⟨ih.outline, ih.stages, ih.sound⟩
  | update _ hset ih =>
    exact ⟨ih.outline, ih.stages, { ih.sound with externals := ih.sound.externals.set hset }⟩

/-- Settings that are loaded have buffers that spectra can be taken of. -/
theorem isBufferLength_of_loadSettings {files : FileTree} {run : RunConfig} {folders : AppFolders}
    {log log' : Log} {loaded : LoadedSettings}
    (h : loadSettings files run folders log = (.ok loaded, log')) :
    isBufferLength loaded.settings.bufferSize = true :=
  isBufferLength_iff.2 (ends_loadSettings.ok h).valid.bufferSize

/-- The files of a run whose module declares the length of the audio buffers with
a type. -/
def lengthFiles (type : String) : FileTree where
  files := [
    (["cfg", "rc.glsl"], "#request setbufsize 8\n".toUTF8),
    (["cfg", "bars", "1.frag"],
      ("#request uniform audio_sz n\nuniform " ++ type ++ " n;\nn @x\n").toUTF8)]

def lengthFolders : AppFolders := ⟨⟨"cfg"⟩, ⟨"cfg"⟩⟩

/-- What the stages of the run are built with. -/
def lengthSetup (type : String) (settings : PipelineSettings) : StageSetup where
  files := lengthFiles type
  settings
  binds := [⟨"x", .float, none⟩]

def lengthExternals : ExternalValues := ⟨[⟨"x", .float, .float 0.0⟩]⟩

/-- What the first tick of the run gives, if the module is built. -/
def firstTick (type : String) : Option (Except RenderError TickReport) :=
  match loadSettings (lengthFiles type) {} lengthFolders #[] with
  | (.ok loaded, _) =>
    match Pipeline.build (lengthSetup type loaded.settings) loaded.moduleDir lengthExternals
        ({ screen := (2, 2) } : HeadlessBackend) #[] with
    | ((.ok pipeline, device), _) =>
      some (renderTick 0 { device, audio := .new 8, pipeline } #[]).1.1
    | _ => none
  | _ => none

theorem parts_of_firstTick {type : String} {tick : Except RenderError TickReport}
    (h : firstTick type = some tick) : ∃ loaded log p device',
    loadSettings (lengthFiles type) {} lengthFolders #[] = (.ok loaded, log) ∧
    Gives (Pipeline.build (lengthSetup type loaded.settings) loaded.moduleDir lengthExternals)
      ({ screen := (2, 2) } : HeadlessBackend) p device' ∧
    (renderTick 0 ({ device := device', audio := .new 8, pipeline := p } :
      Rendering HeadlessBackend) #[]).1.1 = tick := by
  unfold firstTick at h
  split at h
  · next loaded log hloaded =>
    split at h
    · next p device' log' hbuild =>
      exact ⟨loaded, log, p, device', hloaded, ⟨#[], log', hbuild⟩, Option.some.inj h⟩
    · cases h
  · cases h

end AudioShader
