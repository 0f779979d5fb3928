/-
# Nothing is leaked and nothing deleted twice

The life of a pipeline, in the accounts of a backend's journal and of the
headless backend: wherever a build fails, what was made up to there is deleted
once; and a pipeline that is built is deleted as a whole by its teardown.

Key theorems: `endsClean_journal_headless`.
-/
import AudioShader.Proofs.Graphics.Bytes
import AudioShader.Proofs.Graphics.Live
import AudioShader.Proofs.Pipeline.Lifetime

namespace AudioShader

/-- On a backend whose calls give handles that are not in use, or fail, a build
that fails has deleted each handle that it was given exactly once and nothing
else; and if it succeeds, each is deleted exactly once when the pipeline is torn
down. On a headless backend there is then as much in use as before. -/
theorem endsClean_journal_headless {σ : Type} [GraphicsBackend σ] {inUse : Handle → σ → Prop}
    (hfresh : GivesFresh σ inUse) (setup : StageSetup) (moduleDir : Path)
    (externals : ExternalValues) :
    (∀ device : σ, EndsClean setup moduleDir externals ({ inner := device } : Journaled σ)
      (Journaled.Settled inUse device)) ∧
    ∀ b : HeadlessBackend, b.outline.Numbered → EndsClean setup moduleDir externals b
      fun c => c.liveResources = b.liveResources := by
  refine ⟨fun device => ?_, fun b hb => ?_⟩
  · exact ((Journaled.custody device hfresh).endsClean (Journaled.making_nil device) setup moduleDir
      externals).mono fun _ => Journaled.settled_of_holding
  · refine ((HeadlessBackend.custody b.outline).endsClean (Outline.Held.refl hb) setup moduleDir
      externals).mono fun c hc => ?_
    rw [HeadlessBackend.liveResources_eq, HeadlessBackend.liveResources_eq]
    exact hc.live_eq

/-- A module of two stages, the first of which fills a texture with audio. -/
def twoStages : StageSetup where
  files := { files := [
    (["mod", "1.frag"],
      "#request uniform audio_l a\nuniform sampler1D a;\nvoid main() { a; }\n".toUTF8),
    (["mod", "2.frag"],
      "#request uniform prev p\nuniform sampler2D p;\nvoid main() { p; }\n".toUTF8)] }
  settings := { bufferSize := 4 }

/-- What the journal of the build of two stages lists: two programs, the texture
for audio, the target and the placeholder. -/
theorem endsClean_twoStages :
    ((Pipeline.build twoStages ⟨"mod"⟩ {}
      ({ inner := { screen := (4, 4) } } : Journaled HeadlessBackend) #[]).1.1.isOk = true ∧
      (Pipeline.build twoStages ⟨"mod"⟩ {}
        ({ inner := { screen := (4, 4) } } : Journaled HeadlessBackend) #[]).1.2.made =
        [.texture ⟨6⟩, .target ⟨5⟩, .program ⟨3⟩, .texture ⟨2⟩, .program ⟨1⟩]) ∧
    EndsClean twoStages ⟨"mod"⟩ {} ({ inner := { screen := (4, 4) } } : Journaled HeadlessBackend)
      (Journaled.Settled HeadlessBackend.Given { screen := (4, 4) }) ∧
    EndsClean twoStages ⟨"mod"⟩ {} ({ screen := (4, 4) } : HeadlessBackend)
      fun c => c.liveResources = 0 := by
  obtain ⟨hjournal, hheadless⟩ :=
    endsClean_journal_headless HeadlessBackend.givesFresh twoStages ⟨"mod"⟩ {}
  refine ⟨?_, hjournal _, hheadless _ (HeadlessBackend.numbered_new (4, 4))⟩
  rw [HeadlessBackend.eq_byBytes]
  decide +kernel

end AudioShader
