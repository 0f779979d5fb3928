/-
# Values from outside reach the draws

Updates come between ticks, accepted or refused. Each tick takes the values as
they are when it begins, and each stage whose program uses a name bound from
outside gets the value of the name: it stands at the place of its declaration,
and no other declaration has a uniform at the same place.

Key definitions: `Steered`, `Supplied`.
Key theorems: `lastAt_external`, `Steered.supplied`, `externals_reach_draws`.
-/
import AudioShader.Proofs.Graphics.Bytes
import AudioShader.Proofs.Pipeline.Built
import AudioShader.Proofs.Pipeline.Runs
import AudioShader.Proofs.Stage.Header
import AudioShader.Proofs.Uniform.Updates

namespace AudioShader

open AudioShader.Action (Ends Stays Gives)

/-! ### One stage -/

theorem mem_externals_iff {q : Program} {binds : List BindDecl} {e : Nat × UniformLocation} :
    e ∈ q.externals binds ↔
      ∃ d, binds[e.1]? = some d ∧ q.place? (externalName d.name) = some e.2 := by
  obtain ⟨i, l⟩ := e
  rw [Program.externals, List.mem_filterMap]
  constructor
  · intro h
    obtain ⟨⟨d, j⟩, hmem, h⟩ := h
    obtain ⟨l', hl', heq⟩ := Option.map_eq_some_iff.1 h
    cases heq
    exact ⟨d, List.mk_mem_zipIdx_iff_getElem?.1 hmem, hl'⟩
  · intro h
    obtain ⟨d, hd, hl⟩ := h
    refine ⟨(d, i), List.mk_mem_zipIdx_iff_getElem?.2 hd, ?_⟩
    show (q.place? (externalName d.name)).map _ = _
    rw [hl, Option.map_some]

/-- The values that a tick takes from outside after updates. -/
def TickInput.SuppliedWith (t : TickInput) (binds : List BindDecl) (updates : List Update) : Prop :=
  t.externals = binds.map (·.latest updates)

/-- **A stage gets the value of each name that its program uses**, behind whatever
its bindings give to the same place. -/
theorem lastAt_external {setup : StageSetup} (hbinds : (setup.binds.map (·.name)).Nodup)
    {q : Program} {uniforms : List UniformRequest} {device : HeadlessBackend} {st : ShaderStage}
    (hst : st.MadeAs setup q uniforms device) {t : TickInput} {updates : List Update}
    (ht : t.SuppliedWith setup.binds updates) (previous : Option TextureId) {d : BindDecl}
    (hd : d ∈ setup.binds) {l : UniformLocation} (hplace : q.place? (externalName d.name) = some l) :
    lastAt l (st.assignments t previous) = some (d.latest updates) := by
  have hvalue {i : Nat} {d' : BindDecl} (hd' : setup.binds[i]? = some d') :
      t.externals[i]? = some (d'.latest updates) := by
    rw [ht, List.getElem?_map, hd', Option.map_some]
  obtain ⟨i, hi⟩ := List.mem_iff_getElem?.1 hd
  have hmem : (i, l) ∈ st.externals := by
    rw [hst.externals]
    exact mem_externals_iff.2 ⟨d, hi, hplace⟩
  have hlast : lastAt l (st.externals.filterMap t.external?) = some (d.latest updates) := by
    refine lastAt_eq_some (List.mem_filterMap.2 ⟨(i, l), hmem, ?_⟩) fun a ha hal => ?_
    · rw [TickInput.external?, hvalue hi, Option.map_some]
    · obtain ⟨e, he, ha⟩ := List.mem_filterMap.1 ha
      rw [hst.externals] at he
      obtain ⟨d', hd', hplace'⟩ := mem_externals_iff.1 he
      rw [TickInput.external?, hvalue hd', Option.map_some] at ha
      cases ha
      -- at one place there is one name, so it is the same declaration
      obtain rfl : e.2 = l := hal
      have hname : d'.name = d.name := externalName_inj (Program.place?_inj hplace' hplace)
      rw [List.inj_on_of_nodup_map hbinds (List.mem_of_getElem? hd') hd hname]
  rw [ShaderStage.assignments, lastAt_append, hlast, Option.some_or]

/-! ### Runs -/

/-- A rendering behind an update, which changes nothing if it is refused. -/
def Rendering.offer {σ : Type} (r : Rendering σ) (name text : String) : Rendering σ :=
  { r with pipeline := { r.pipeline with externals := r.pipeline.externals.offer name text } }

/-- What may happen to a pipeline at work, with the updates that were offered so
far: ticks, however they end, audio that is published, and updates, whether or
not they are accepted. -/
inductive Steered {σ : Type} [GraphicsBackend σ] :
    Rendering σ → List Update → Rendering σ → Prop
  | nil (r : Rendering σ) : Steered r [] r
  | tick {r r' : Rendering σ} {updates : List Update} (seconds : Float32) (log : Log) :
    Steered r updates r' → Steered r updates (renderTick seconds r' log).1.2
  | publish {r r' : Rendering σ} {updates : List Update} (frame : AudioFrame Float32) :
    Steered r updates r' → Steered r updates (r'.publish frame)
  | update {r r' : Rendering σ} {updates : List Update} (name text : String) :
    Steered r updates r' → Steered r (updates ++ [(name, text)]) (r'.offer name text)

section Runs

variable {device : HeadlessBackend} {p : Pipeline} {binds : List BindDecl} {updates : List Update}

/-- A rendering of a pipeline `p` that was built on a device, with the values that
names have after updates. -/
abbrev Supplied (device : HeadlessBackend) (p : Pipeline) (binds : List BindDecl)
    (updates : List Update) : Rendering HeadlessBackend → Prop :=
  Working (fun _ _ => True) device p (ExternalValues.Holds binds updates)

theorem properly_true (t : TickInput) : ∀ (stages : List ShaderStage) (previous : Option TextureId),
    Properly (fun _ _ => True) t previous stages
  | [], _ => trivial
  | st :: stages, _ => ⟨fun _ _ => trivial, properly_true t stages st.output⟩

theorem Working.suppliedWith {r : Rendering HeadlessBackend}
    (h : Supplied device p binds updates r) (seconds : Float32) :
    (r.tickInput seconds).SuppliedWith binds updates := by
  show r.pipeline.externals.slots.map (·.value) = _
  rw [h.externals, List.map_map]
  rfl

/-- **After any run each slot holds what was accepted last for its name.** -/
theorem Steered.supplied (hprograms : (p.stages.map (·.program)).Nodup)
    (hbinds : (binds.map (·.name)).Nodup) {r r' : Rendering HeadlessBackend}
    (h : Steered r updates r') (hr : Supplied device p binds [] r) :
    Supplied device p binds updates r' := by
  induction h with
  | nil => exact hr
  | tick seconds log _ ih =>
    exact (stays_renderTick_working hprograms fun _ _ => properly_true _ _ _).apply ih log
  | publish frame _ ih => exact { ih with }
  | update name text _ ih => exact { ih with externals := ih.externals.offer hbinds name text }

end Runs

/-- **Values from outside reach the draws.** Take binds that pass the check of a
run file, and a pipeline that is built with them on a headless backend. In any
run each slot holds a value that fits its type: what was accepted last for its
name, or its first value. An update that is refused changes nothing, and one
that is accepted changes its own slot only. And in each draw of a tick that
succeeds, a uniform of a name bound from outside that the program uses has the
value that its name had when the tick began. -/
theorem externals_reach_draws {run : RunConfig} (hrun : run.check = .ok ()) {setup : StageSetup}
    (hsetup : setup.binds = run.binds) {externals : ExternalValues}
    (hexternals : ExternalValues.ofBinds setup.binds = .ok externals)
    {device device' : HeadlessBackend} (hdevice : device.outline.Numbered) {moduleDir : Path}
    {p : Pipeline} (hbuild : Gives (Pipeline.build setup moduleDir externals) device p device')
    {audio : SharedAudio Float32} {updates : List Update} {r : Rendering HeadlessBackend}
    (hr : Steered { device := device', audio, pipeline := p } updates r) :
    r.pipeline.externals.slots = setup.binds.map (·.slotAfter updates) ∧
    (∀ slot ∈ r.pipeline.externals.slots, slot.value.fits (.ofBind slot.type) = true) ∧
    (∀ name text, match r.pipeline.externals.set name text with
      | .error _ => r.pipeline.externals.offer name text = r.pipeline.externals ∧
          ∀ d ∈ setup.binds, d.accepted? (name, text) = none
      | .ok e => r.pipeline.externals.offer name text = e ∧
          ∃ j slot value, r.pipeline.externals.slots[j]? = some slot ∧ slot.name = name ∧
            decodeValue name slot.type text = .ok value ∧
            e.slots = r.pipeline.externals.slots.set j { slot with value }) ∧
    ∀ seconds report r', Gives (renderTick seconds) r report r' →
      ∃ records, r'.device.draws.toList = r.device.draws.toList ++ records ∧
        records.length = p.stages.length ∧
        ∀ (i : Nat) (st : ShaderStage) (record : DrawRecord), p.stages[i]? = some st →
          records[i]? = some record → record.program = st.program ∧
          ∀ d ∈ setup.binds,
            (r'.device.uniformLocation? st.program (externalName d.name)).isSome = true →
            record.uniform? (externalName d.name) = some (d.latest updates) := by
  have hbinds : (setup.binds.map (·.name)).Nodup := by
    rw [hsetup]
    exact (nodup_of_checkBinds (RunConfig.parts_of_check hrun).2).1
  obtain ⟨⟨n, hactive⟩, hvalues⟩ := active_of_build hdevice hbuild
  have hprograms := (separate_of_build hdevice hbuild).programs
  have hstart : Supplied device' p setup.binds [] { device := device', audio, pipeline := p } :=
    hactive.working (hvalues ▸ ExternalValues.holds_ofBinds hexternals) audio
  have hsupplied := hr.supplied hprograms hbinds hstart
  refine ⟨hsupplied.externals, fun slot hslot => ?_, fun name text => ?_,
    fun seconds report r' htick => ?_⟩
  · rw [hsupplied.externals] at hslot
    obtain ⟨d, -, rfl⟩ := List.mem_map.1 hslot
    exact d.fits_latest updates
  · cases hset : r.pipeline.externals.set name text with
    | error error =>
      refine ⟨?_, fun d hd => hsupplied.externals.accepted?_eq_none hbinds hset hd⟩
      rw [ExternalValues.offer, hset]
    | ok e =>
      refine ⟨?_, ExternalValues.set_cases hset⟩
      rw [ExternalValues.offer, hset]
  · obtain ⟨hsupplied', records, hdraws, hshown⟩ :=
      (ends_renderTick_working hprograms hsupplied (properly_true _ _ _)).gives rfl htick
    obtain ⟨hlength, hshows⟩ := hshown.getElem?
    refine ⟨records, hdraws, hlength, fun i st record hst hrecord => ?_⟩
    have hmem := List.mem_of_getElem? hst
    obtain ⟨q, uniforms, hmade⟩ := hactive.made st hmem
    have hshow := hshows i st record hst hrecord
    refine ⟨(hshow.label hmade).1, fun d hd hused => ?_⟩
    obtain ⟨l, hplace⟩ := hsupplied'.exists_place hmem hmade hused
    exact hshow.uniform? hmade hplace
      (lastAt_external hbinds hmade (hsupplied.suppliedWith seconds) _ hd hplace)

/-- A run file with two names from outside. -/
def countedRun : RunConfig where
  binds := [⟨"n", .int, some "3"⟩, ⟨"b", .bool, none⟩]

/-- A module of one stage, which uses one of the names. -/
def countedSetup : StageSetup where
  files := { files := [(["mod", "1.frag"], "void main() { @n; }\n".toUTF8)] }
  settings := { bufferSize := 4 }
  binds := countedRun.binds

def countedExternals : ExternalValues := { slots := countedRun.binds.map (·.slotAfter []) }

/-- The rendering after two updates, the second of which is refused. -/
def countedRendering (device : HeadlessBackend) (p : Pipeline) : Rendering HeadlessBackend :=
  let built : Rendering HeadlessBackend := { device, audio := .new 4, pipeline := p }
  (built.offer "n" "7").offer "n" "seven"

/-- Whether the name is in use in the only stage, if the tick after the updates succeeds. -/
def countedInUse : Option Bool := do
  let (p, device) ← Action.result? (Pipeline.build countedSetup ⟨"mod"⟩ countedExternals)
    ({ screen := (4, 4) } : HeadlessBackend)
  let (_, r) ← Action.result? (renderTick 0) (countedRendering device p)
  return p.stages.length == 1 && p.stages.all fun st =>
    (r.device.uniformLocation? st.program (externalName "n")).isSome

/-- The tick after the updates draws with the one that was accepted. -/
theorem drawn_countedStage : countedRun.check = .ok () ∧ ∃ p device' report r' record,
    Gives (Pipeline.build countedSetup ⟨"mod"⟩ countedExternals)
      ({ screen := (4, 4) } : HeadlessBackend) p device' ∧
    Gives (renderTick 0) (countedRendering device' p) report r' ∧
    r'.device.draws.toList = (countedRendering device' p).device.draws.toList ++ [record] ∧
    record.uniform? "_IN_n" = some (.int 7) := by
  have hrun : countedRun.check = .ok () := by decide +kernel
  have hinUse : countedInUse = some true := by
    rw [countedInUse, HeadlessBackend.eq_byBytes]
    decide +kernel
  obtain ⟨⟨p, device'⟩, hbuild, hrest⟩ := Option.bind_eq_some_iff.1 hinUse
  obtain ⟨⟨report, r'⟩, htick, hrest⟩ := Option.bind_eq_some_iff.1 hrest
  have hgives := Action.gives_of_result? hbuild
  have hticked := Action.gives_of_result? htick
  obtain ⟨hcount, hactive⟩ := Bool.and_eq_true_iff.1 (Option.some.inj hrest)
  obtain ⟨st, hst⟩ := List.length_eq_one_iff.1 (by simpa using hcount)
  have hsteered : Steered { device := device', audio := .new 4, pipeline := p }
      [("n", "7"), ("n", "seven")] (countedRendering device' p) :=
    .update "n" "seven" (.update "n" "7" (.nil _))
  obtain ⟨-, -, -, hticks⟩ := externals_reach_draws hrun rfl rfl
    (HeadlessBackend.numbered_new (4, 4)) hgives hsteered
  obtain ⟨records, hdraws, hlength, hshown⟩ := hticks 0 report r' hticked
  rw [hst] at hlength hactive
  obtain ⟨record, rfl⟩ := List.length_eq_one_iff.1 hlength
  obtain ⟨-, hvalues⟩ := hshown 0 st record (by rw [hst]; rfl) rfl
  refine ⟨hrun, p, device', report, r', record, hgives, hticked, hdraws, ?_⟩
  exact hvalues ⟨"n", .int, some "3"⟩ (List.mem_cons_self ..) (by simpa using hactive)

end AudioShader
