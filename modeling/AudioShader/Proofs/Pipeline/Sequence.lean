/-
# Stages are drawn in turn

A tick that succeeds adds one draw for each active stage, in order, and each
stage sees what the one before it has drawn. No stage ever gets the texture that
it draws into: not from the stages before it, whose targets are other ones, and
not for audio. So none of its draws reads from it.

Key definitions: `ShaderStage.Apart`, `Pipeline.before`, `DrawnInTurn`.
Key theorems: `UniformBinding.texture_of_given?`, `Pipeline.Separate.properly`,
`Driven.apart`, `stages_drawn_in_turn`.
-/
import AudioShader.Proofs.Graphics.Bytes
import AudioShader.Proofs.Pipeline.Built
import AudioShader.Proofs.Pipeline.Suited

namespace AudioShader

open AudioShader.Action (Ends Stays Gives)

/-! ### Textures that stages get -/

/-- A value is not the texture that the stage draws into. -/
def ShaderStage.Apart (st : ShaderStage) (a : Assignment) : Prop :=
  ∀ output, st.output = some output → a.value ≠ .texture output

/-- A value that fits a type is a texture just if the type is a sampler. -/
theorem isSampler_of_fits {v : UniformValue} {type : ValueType} (h : v.fits type = true) :
    type.isSampler = v.texture?.isSome := by
  cases v <;> cases type <;> first | rfl | cases h

theorem ExternalValues.Typed.texture?_eq_none {binds : List BindDecl} {e : ExternalValues}
    (h : e.Typed binds) {v : UniformValue} (hv : v ∈ e.values) : v.texture? = none := by
  obtain ⟨slot, hslot, rfl⟩ := List.mem_map.1 hv
  have hfits := isSampler_of_fits (h.fits slot hslot)
  rw [ValueType.isSampler_ofBind] at hfits
  simpa using hfits.symm

/-- A uniform gets its own texture for audio, or what the stage before has drawn. -/
theorem UniformBinding.texture_of_given? {x : UniformBinding} {t : TickInput}
    {previous : Option TextureId} {id : TextureId}
    (h : x.given? t previous = some (.texture id)) :
    x.texture = some id ∨ previous.getD t.placeholder = id := by
  unfold given? at h
  cases hkind : x.source.kind with
  | audio channel =>
    rw [hkind] at h
    obtain ⟨texture, htexture, heq⟩ := Option.map_eq_some_iff.1 h
    cases heq
    exact .inl htexture
  | previous =>
    rw [hkind] at h
    cases h
    exact .inr rfl
  | _ =>
    rw [hkind] at h
    cases h

/-- Values from outside are no textures. -/
def TickInput.Plain (t : TickInput) : Prop := ∀ v ∈ t.externals, v.texture? = none

section Textures

variable {t : TickInput}

/-- The texture of a target is given to no stage before the next one. -/
theorem properly_apart (ht : t.Plain) : ∀ {stages : List ShaderStage} {previous : Option TextureId},
    (stages.filterMap (·.output)).Nodup →
    (∀ output ∈ stages.filterMap (·.output),
      previous ≠ some output ∧ t.placeholder ≠ output ∧
      ∀ st ∈ stages, output ∉ st.audioTextures) →
    Properly ShaderStage.Apart t previous stages
  | [], _, _, _ => trivial
  | st :: stages, previous, hnodup, hfree => by
    refine ⟨fun a ha output houtput hvalue => ?_, ?_⟩
    · have hmem : output ∈ (st :: stages).filterMap (·.output) :=
        List.mem_filterMap.2 ⟨st, List.mem_cons_self .., houtput⟩
      obtain ⟨hprevious, hplaceholder, haudio⟩ := hfree output hmem
      rcases ShaderStage.mem_assignments_iff.1 ha with ⟨x, hx, hgiven, -⟩ | ⟨e, -, hgiven, -⟩
      · rw [hvalue] at hgiven
        rcases UniformBinding.texture_of_given? hgiven with htexture | hbefore
        · exact haudio st (List.mem_cons_self ..) (List.mem_filterMap.2 ⟨x, hx, htexture⟩)
        · cases previous with
          | none => exact hplaceholder hbefore
          | some before => exact hprevious (congrArg some hbefore)
      · have hnone := ht _ (List.mem_of_getElem? hgiven)
        rw [hvalue] at hnone
        cases hnone
    · have hsub : ∀ output ∈ stages.filterMap (·.output),
          output ∈ (st :: stages).filterMap (·.output) := by
        intro output hmem
        obtain ⟨st', hst', houtput⟩ := List.mem_filterMap.1 hmem
        exact List.mem_filterMap.2 ⟨st', List.mem_cons_of_mem st hst', houtput⟩
      have hrest : (stages.filterMap (·.output)).Nodup := by
        rw [List.filterMap_cons] at hnodup
        split at hnodup
        · exact hnodup
        · exact (List.nodup_cons.1 hnodup).2
      refine properly_apart ht hrest fun output hmem => ?_
      obtain ⟨-, hplaceholder, haudio⟩ := hfree output (hsub output hmem)
      refine ⟨fun houtput => ?_, hplaceholder, fun st' hst' => haudio st' (List.mem_cons_of_mem st hst')⟩
      -- the output of this stage is not one of those behind it
      rw [List.filterMap_cons, houtput] at hnodup
      exact (List.nodup_cons.1 hnodup).1 hmem

/-- With different handles no stage gets the texture that it draws into. -/
theorem Pipeline.Separate.properly {p : Pipeline} (h : p.Separate) (ht : t.Plain)
    (hplaceholder : t.placeholder = p.placeholder) : Properly ShaderStage.Apart t none p.stages := by
  obtain ⟨hhandles, houtputs, hdisjoint⟩ := List.nodup_append.1 h.textures
  refine properly_apart ht houtputs fun output hmem => ⟨nofun, ?_, fun st hst haudio => ?_⟩
  · rw [hplaceholder]
    exact hdisjoint _ (List.mem_append_right _ (List.mem_singleton_self _)) _ hmem
  · exact hdisjoint output (List.mem_append_left _ (List.mem_flatMap.2 ⟨st, hst, haudio⟩)) _ hmem rfl

end Textures

/-! ### Runs -/

section Runs

variable {d : HeadlessBackend} {p : Pipeline} {binds : List BindDecl}

theorem Working.properly (hp : p.Separate) {r : Rendering HeadlessBackend}
    (h : Working ShaderStage.Apart d p (ExternalValues.Typed binds) r) (seconds : Float32) :
    Properly ShaderStage.Apart (r.tickInput seconds) none p.stages :=
  hp.properly (fun _ hv => h.externals.texture?_eq_none hv) h.placeholder

/-- In every run no stage got the texture that it draws into. -/
theorem Driven.apart (hp : p.Separate) {r r' : Rendering HeadlessBackend} (h : Driven r r')
    (hr : Working ShaderStage.Apart d p (ExternalValues.Typed binds) r) :
    Working ShaderStage.Apart d p (ExternalValues.Typed binds) r' := by
  induction h with
  | nil => exact hr
  | tick seconds log _ ih =>
    exact (stays_renderTick_working hp.programs fun _ h => h.properly hp seconds).apply ih log
  | publish frame _ ih => exact { ih with }
  | update _ hset ih => exact { ih with externals := ih.externals.set hset }

end Runs

/-! ### Draws -/

/-- Values that a program takes at one place are both textures, or both not. -/
theorem Program.Takes.isSome_texture?_eq {p : Program} {a b : Assignment} (ha : p.Takes a)
    (hb : p.Takes b) (h : a.location = b.location) :
    a.value.texture?.isSome = b.value.texture?.isSome := by
  obtain ⟨slot, hslot, -, hfits⟩ := ha
  obtain ⟨slot', hslot', -, hfits'⟩ := hb
  rw [h] at hslot
  cases hslot.symm.trans hslot'
  rw [← isSampler_of_fits hfits, ← isSampler_of_fits hfits']

theorem BindSource.kind_of_name_prev {s : BindSource} (h : s ∈ catalog) (hname : s.name = "prev") :
    s.kind = .previous := by
  have hall : ∀ s ∈ catalog, s.name = "prev" → s.kind = .previous := by decide
  exact hall s h hname

/-- A stage that asks for what the stage before has drawn gets that, and nothing
else at the same place. -/
theorem ShaderStage.Shows.lastAt_previous {setup : StageSetup} {q : Program}
    {uniforms : List UniformRequest} {d : HeadlessBackend} {st : ShaderStage}
    (hst : st.MadeAs setup q uniforms d) {proper : ShaderStage → Assignment → Prop} {t : TickInput}
    (ht : t.Plain) {previous : Option TextureId} {record : DrawRecord}
    (h : st.Shows proper d t previous record) {u : UniformRequest} (hu : u ∈ uniforms)
    (hkind : u.source.kind = .previous) {l : UniformLocation} (hplace : q.place? u.name = some l) :
    lastAt l (st.assignments t previous) = some (.texture (previous.getD t.placeholder)) := by
  obtain ⟨q', as, hq, -, htakes, -⟩ := h
  cases hq.symm.trans hst.program
  have hgiven (x : UniformBinding) (hx : x.source = u.source) :
      x.given? t previous = some (.texture (previous.getD t.placeholder)) := by
    rw [UniformBinding.given?, hx, hkind]
    rfl
  obtain ⟨x, hx, -, hsource, hlocation⟩ := hst.exists_binding hu
  rw [hplace] at hlocation
  have hmem : ⟨l, .texture (previous.getD t.placeholder)⟩ ∈ st.assignments t previous :=
    ShaderStage.mem_assignments_iff.2 (.inl ⟨x, hx, hgiven x hsource, hlocation⟩)
  refine lastAt_eq_some hmem fun a ha hal => ?_
  rcases ShaderStage.mem_assignments_iff.1 ha with ⟨x', hx', hvalue, hlocation'⟩ | ⟨e, -, hvalue, -⟩
  · -- another uniform at the same place has the same name, so it is the same one
    obtain ⟨u', hu', -, hsource', hplace'⟩ := hst.exists_request hx'
    rw [hlocation', hal] at hplace'
    have hname : u'.name = u.name := Program.place?_inj hplace'.symm hplace
    obtain rfl : u' = u := List.inj_on_of_nodup_map hst.nodup_uniforms hu' hu hname
    exact Option.some.inj (hvalue.symm.trans (hgiven x' hsource'))
  · have hsome := (htakes a ha).isSome_texture?_eq (htakes _ hmem) hal
    rw [ht _ (List.mem_of_getElem? hvalue)] at hsome
    cases hsome

/-- What the stage at an index sees as the one before it; the first one sees the
placeholder. -/
def Pipeline.before (p : Pipeline) : Nat → Option TextureId :=
  drawnBefore (some p.placeholder) p.stages

/-- A record shows the stage at an index, on a device behind the draw: with what
the stage before has drawn wherever the file asks for it, and without the
texture that the stage draws into. -/
structure DrawnInTurn (setup : StageSetup) (p : Pipeline) (d : HeadlessBackend) (i : Nat)
    (st : ShaderStage) (record : DrawRecord) : Prop where
  program : record.program = st.program
  label : record.label = s!"stage {st.ordinal}"
  target : record.target = st.target
  previous : ∀ source uniforms, setup.processed? st.path = some (source, uniforms) →
    ∀ u ∈ uniforms, u.source.name = "prev" → (d.uniformLocation? st.program u.name).isSome = true →
    ∃ texture, p.before i = some texture ∧ record.uniform? u.name = some (.texture texture)
  apart : ∀ target output, record.target = some target → d.targets.get? target = some output →
    output ∉ record.sampled

section Draws

variable {setup : StageSetup} {moduleDir : Path} {n : Nat} {d : HeadlessBackend} {p : Pipeline}

/-- The stage before one that is not the first has an output. -/
theorem before_eq (hactive : Active setup moduleDir n d p.stages) {i : Nat} {st : ShaderStage}
    (hst : p.stages[i]? = some st) :
    p.before i = some ((drawnBefore none p.stages i).getD p.placeholder) := by
  cases i with
  | zero => rfl
  | succ i =>
    obtain ⟨hi, -⟩ := List.getElem?_eq_some_iff.1 hst
    have hlt : i < p.stages.length := Nat.lt_of_succ_lt hi
    obtain ⟨target, output, -, houtput, -⟩ :=
      (hactive.targeted i _ (List.getElem?_eq_getElem hlt)).1 (by omega)
    rw [Pipeline.before, drawnBefore, drawnBefore, List.getElem?_eq_getElem hlt, Option.bind_some,
      houtput]
    rfl

/-- A stage that is shown is drawn in its turn. -/
theorem drawnInTurn_of_shows (hactive : Active setup moduleDir n d p.stages)
    {I : ExternalValues → Prop} {r' : Rendering HeadlessBackend}
    (hr' : Working ShaderStage.Apart d p I r') {t : TickInput} (ht : t.Plain)
    (hplaceholder : t.placeholder = p.placeholder) {i : Nat}
    {st : ShaderStage} (hst : p.stages[i]? = some st) {record : DrawRecord}
    (hshows : st.Shows ShaderStage.Apart d t (drawnBefore none p.stages i) record) :
    DrawnInTurn setup p r'.device i st record := by
  have hmem := List.mem_of_getElem? hst
  obtain ⟨q, uniforms, hmade⟩ := hactive.made st hmem
  obtain ⟨hprogram, hlabel, htarget⟩ := hshows.label hmade
  refine ⟨hprogram, hlabel, htarget, fun source requested hprocessed u hu hname hused => ?_,
    fun target output htarget' houtput hsampled => ?_⟩
  · obtain ⟨source', hprocessed', -⟩ := hmade.processed
    cases hprocessed.symm.trans hprocessed'
    have hcatalog := StageSetup.mem_catalog_of_processed? hprocessed u hu
    have hkind := BindSource.kind_of_name_prev hcatalog hname
    obtain ⟨l, hplace⟩ := hr'.exists_place hmem hmade hused
    refine ⟨_, before_eq hactive hst, hshows.uniform? hmade hplace ?_⟩
    rw [← hplaceholder]
    exact hshows.lastAt_previous hmade ht hu hkind hplace
  · rw [htarget] at htarget'
    rw [hr'.painted.targets] at houtput
    obtain ⟨hbefore, hbehind⟩ := hactive.targeted i st hst
    rcases Nat.lt_or_ge i (p.stages.length - 1) with hlt | hge
    · obtain ⟨target', output', htarget'', houtput', hget⟩ := hbefore hlt
      cases htarget'.symm.trans htarget''
      cases houtput.symm.trans hget
      obtain ⟨a, hapart, hvalue⟩ := hshows.of_mem_sampled hmade hsampled
      exact hapart output houtput' hvalue
    · rw [(hbehind hge).1] at htarget'
      cases htarget'

end Draws

/-- **Stages are drawn in turn.** A pipeline that is built on a headless backend has
the active stages of its module: those of the longest run of files that are not
disabled, in order, all but the last with a target of their own. In any run, a
tick that succeeds adds one draw for each of them, in this order, each into the
stage's target; where a file asks for what the stage before has drawn, the draw
holds the output of the active stage before, or the placeholder for the first
one; and no draw reads from the texture that it goes into. -/
theorem stages_drawn_in_turn {setup : StageSetup} {externals : ExternalValues}
    (hexternals : ExternalValues.ofBinds setup.binds = .ok externals)
    {device device' : HeadlessBackend} (hdevice : device.outline.Numbered) {moduleDir : Path}
    {p : Pipeline} (hbuild : Gives (Pipeline.build setup moduleDir externals) device p device') :
    (∃ n, Active setup moduleDir n device' p.stages) ∧ p.Separate ∧
    ∀ (audio : SharedAudio Float32) (r r' : Rendering HeadlessBackend),
      Driven { device := device', audio, pipeline := p } r →
      ∀ seconds report, Gives (renderTick seconds) r report r' →
      ∃ records, r'.device.draws.toList = r.device.draws.toList ++ records ∧
        records.length = p.stages.length ∧
        ∀ (i : Nat) (st : ShaderStage) (record : DrawRecord), p.stages[i]? = some st →
          records[i]? = some record → DrawnInTurn setup p r'.device i st record := by
  obtain ⟨⟨n, hactive⟩, hvalues⟩ := active_of_build hdevice hbuild
  have hseparate := separate_of_build hdevice hbuild
  refine ⟨⟨n, hactive⟩, hseparate, fun audio r r' hdriven seconds report htick => ?_⟩
  have hstart : Working ShaderStage.Apart device' p (ExternalValues.Typed setup.binds)
      { device := device', audio, pipeline := p } :=
    hactive.working (hvalues ▸ ExternalValues.typed_ofBinds hexternals) audio
  have hr := hdriven.apart hseparate hstart
  obtain ⟨hr', records, hdraws, hshown⟩ := (ends_renderTick_working hseparate.programs hr
    (hr.properly hseparate seconds)).gives rfl htick
  obtain ⟨hlength, hshows⟩ := hshown.getElem?
  refine ⟨records, hdraws, hlength, fun i st record hst hrecord => ?_⟩
  exact drawnInTurn_of_shows hactive hr' (fun _ hv => hr.externals.texture?_eq_none hv)
    hr.placeholder hst (hshows i st record hst hrecord)

/-- A module of three stages, the second of which is disabled. -/
def skippedSetup : StageSetup where
  files := { files := [
    (["mod", "1.frag"], "#request uniform prev p\nuniform sampler2D p;\nvoid main() { p; }\n".toUTF8),
    (["mod", "2.frag"], "#error __disablestage\n".toUTF8),
    (["mod", "3.frag"], "#request uniform prev q\nuniform sampler2D q;\nvoid main() { q; }\n".toUTF8)] }
  settings := { bufferSize := 4 }

/-- The numbers of the stages that are built, if the first tick succeeds. -/
def skippedOrdinals : Option (List Nat) := do
  let (p, device) ← Action.result? (Pipeline.build skippedSetup ⟨"mod"⟩ {})
    ({ screen := (4, 4) } : HeadlessBackend)
  let _ ← Action.result? (renderTick 0)
    ({ device, audio := .new 4, pipeline := p } : Rendering HeadlessBackend)
  return p.stages.map (·.ordinal)

/-- The first tick draws the first stage and the third one. -/
theorem drawn_skippedStage : ∃ p device' report r' records,
    Gives (Pipeline.build skippedSetup ⟨"mod"⟩ {}) ({ screen := (4, 4) } : HeadlessBackend) p device' ∧
    Gives (renderTick 0) { device := device', audio := .new 4, pipeline := p } report r' ∧
    p.stages.map (·.ordinal) = [1, 3] ∧ p.Separate ∧
    r'.device.draws.toList = device'.draws.toList ++ records ∧ records.length = 2 ∧
    ∀ (i : Nat) (st : ShaderStage) (record : DrawRecord), p.stages[i]? = some st →
      records[i]? = some record → DrawnInTurn skippedSetup p r'.device i st record := by
  have hordinals : skippedOrdinals = some [1, 3] := by
    rw [skippedOrdinals, HeadlessBackend.eq_byBytes]
    decide +kernel
  obtain ⟨⟨p, device'⟩, hbuild, hrest⟩ := Option.bind_eq_some_iff.1 hordinals
  obtain ⟨⟨report, r'⟩, htick, hrest⟩ := Option.bind_eq_some_iff.1 hrest
  have hstages : p.stages.map (·.ordinal) = [1, 3] := Option.some.inj hrest
  have hgives := Action.gives_of_result? hbuild
  have hticks := Action.gives_of_result? htick
  obtain ⟨-, hseparate, hdrawn⟩ := stages_drawn_in_turn
    (rfl : ExternalValues.ofBinds skippedSetup.binds = .ok {})
    (HeadlessBackend.numbered_new (4, 4)) hgives
  obtain ⟨records, hdraws, hlength, hshown⟩ := hdrawn (.new 4) _ r' (.nil _) 0 report hticks
  refine ⟨p, device', report, r', records, hgives, hticks, hstages, hseparate, hdraws, ?_, hshown⟩
  rw [hlength, ← List.length_map (·.ordinal), hstages]
  rfl

end AudioShader
