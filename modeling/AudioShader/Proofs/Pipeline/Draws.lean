/-
# When the stages of a tick are drawn

With sound stages a tick finds all that it asks for, and its chains run, however
long it went on before. What is left is whether each uniform was declared with a
type that can hold what its source gives: a tick draws its stages just if so.

Key definitions: `ValueType.suits`, `UniformBinding.Suited`, `ShaderStage.Suited`,
`TickInput.Sound`, `Poised`.
Key theorems: `fits_eq_suits`, `hinges_fillBinding`, `hinges_drawStages`.
-/
import AudioShader.Pipeline.Tick
import AudioShader.Proofs.Signal.Lengths
import AudioShader.Proofs.Stage.Sound

namespace AudioShader

open AudioShader.Action (Ends Stays Hinges)

/-! ### Types -/

/-- Whether a uniform that is declared with the second type holds all values of
the first: samplers of either kind read from any texture. -/
def ValueType.suits (t declared : ValueType) : Bool :=
  t == declared || (t.isSampler && declared.isSampler)

theorem fits_eq_suits {v : UniformValue} {t : ValueType} (h : v.fits t = true)
    (declared : ValueType) : v.fits declared = t.suits declared := by
  cases v <;> cases t <;> first | (cases declared <;> rfl) | cases h

/-- A uniform that the program uses is declared with a type that suits its source. -/
def UniformBinding.Suited (o : Outline) (program : ProgramId) (x : UniformBinding) : Prop :=
  ∀ l, x.location = some l →
    ∃ slot, o.slot? program l = some slot ∧ x.source.type.suits slot.type = true

/-- All uniforms of a stage are declared with types that suit their sources. -/
def ShaderStage.Suited (o : Outline) (st : ShaderStage) : Prop :=
  ∀ x ∈ st.bindings, x.Suited o st.program

namespace UniformBinding

/-- The steps of a chain that are run here. -/
def hostSteps (x : UniformBinding) : List Transform := x.chain.steps.take (x.mode.cpuSteps x.chain)

theorem hostSteps_of_cpu {x : UniformBinding} (h : x.mode = .cpu) : x.hostSteps = x.chain.steps := by
  rw [hostSteps, h]
  exact List.take_length

theorem hostSteps_of_offloaded {x : UniformBinding} {lead : Nat} {tail : Tail}
    (h : x.mode = .offloaded lead tail) : x.hostSteps = x.chain.steps.take lead := by
  rw [hostSteps, h]
  rfl

end UniformBinding

/-! ### What a tick starts from and keeps -/

/-- What the stages see can be given to sound stages: buffers are of the length
that textures take, and values from outside have their types. -/
structure TickInput.Sound (o : Outline) (binds : List BindDecl) (t : TickInput) : Prop where
  len : isBufferLength t.settings.bufferSize = true
  channel : ∀ c, (t.channel c).length = t.settings.bufferSize
  placeholder : t.placeholder ∈ o.textures.keys
  externals : ∀ {i : Nat} {d : BindDecl} {v : UniformValue}, binds[i]? = some d → t.externals[i]? = some v →
    v.fits (.ofBind d.type) = true

/-- While the stages of a tick are drawn, the device has an outline, the chains
of all bindings can be run, and all results are of one length. -/
structure Poised (o : Outline) (t : TickInput) (all : List UniformBinding)
    (d : Drawing HeadlessBackend) : Prop where
  outline : d.device.outline = o
  ready : ∀ x ∈ all, AllReady t.settings.params 0 x.hostSteps (d.store.view x.id)
  memo : ∀ {kind chain result}, d.memo.get? kind chain = some result →
    result.length = t.settings.bufferSize

/-- Something is selected on the device besides. -/
def PoisedOn (o : Outline) (t : TickInput) (all : List UniformBinding)
    (selected : HeadlessBackend → Prop) (d : Drawing HeadlessBackend) : Prop :=
  Poised o t all d ∧ selected d.device

section Drawing

variable {o : Outline} {t : TickInput} {all : List UniformBinding}
  {selected : HeadlessBackend → Prop}

theorem Poised.onDevice {d : Drawing HeadlessBackend} (h : Poised o t all d)
    {device : HeadlessBackend} (hdevice : device.outline = d.device.outline) :
    Poised o t all { d with device } :=
  { h with outline := hdevice.trans h.outline }

/-! ### The device -/

/-- A call that is decided by the outline and by what is selected. -/
theorem hinges_onBackend
    (hselected : ∀ {b c}, HeadlessBackend.Redrawn b c → selected b → selected c)
    {a : HeadlessBackend.Op Unit} {accepted : HeadlessBackend → Prop} {c : Prop} (ordinal : Nat)
    (h : ∀ b, HeadlessBackend.Decides b a (accepted b))
    (hc : ∀ b, b.outline = o → selected b → (accepted b ↔ c)) :
    Hinges (PoisedOn o t all selected) (PoisedOn o t all selected) (Poised o t all)
      (onBackend ordinal a) c := by
  refine Ends.mapError (Ends.within fun d hd => ?_)
  have hiff := hc d.device hd.1.outline hd.2
  refine (h d.device).weaken (fun _ h => h) ?_ ?_
  · rintro _ b ⟨hb, haccepted⟩
    exact ⟨⟨hd.1.onDevice hb.outline, hselected hb hd.2⟩, hiff.1 haccepted⟩
  · rintro _ b ⟨hb, hrefused⟩
    exact ⟨hd.1.onDevice hb.outline, fun h => hrefused (hiff.2 h)⟩

theorem ends_bindTarget (ordinal : Nat) {target : Option TargetId}
    (htarget : ∀ id, target = some id → id ∈ o.targets.keys) :
    Ends (Poised o t all) (onBackend ordinal (GraphicsBackend.bindTarget target))
      (fun _ => PoisedOn o t all fun b => b.bound = target) fun _ _ => False := by
  refine Ends.mapError (Ends.within fun d hd => ?_)
  refine (HeadlessBackend.ends_selectTarget d.device target).weaken (fun _ h => h) ?_ ?_
  · rintro _ _ ⟨-, rfl⟩
    exact ⟨hd.onDevice rfl, rfl⟩
  · rintro _ _ ⟨-, id, rfl, hid⟩
    have hmem := htarget id rfl
    rw [← hd.outline] at hmem
    exact hid hmem

theorem ends_useProgram (ordinal : Nat) {program : ProgramId} (hprogram : program ∈ o.programs.keys) :
    Ends (Poised o t all) (onBackend ordinal (GraphicsBackend.useProgram program))
      (fun _ => PoisedOn o t all fun b => b.current = some program) fun _ _ => False := by
  refine Ends.mapError (Ends.within fun d hd => ?_)
  refine (HeadlessBackend.ends_selectProgram d.device program).weaken (fun _ h => h) ?_ ?_
  · rintro _ _ ⟨-, rfl⟩
    exact ⟨hd.onDevice rfl, rfl⟩
  · rintro _ _ ⟨-, hnone⟩
    rw [← hd.outline] at hprogram
    exact hnone (Registry.keys_map Program.slots d.device.programs ▸ hprogram)

theorem ends_clear (ordinal : Nat) (color : Color) {target : Option TargetId}
    (htarget : ∀ id, target = some id → id ∈ o.targets.keys) :
    Ends (PoisedOn o t all fun b => b.bound = target) (onBackend ordinal (GraphicsBackend.clear color))
      (fun _ => Poised o t all) fun _ _ => False := by
  refine ((hinges_onBackend (fun hb h => hb.bound.trans h) (c := True) ordinal
    (HeadlessBackend.decides_clearTo · color) fun b hb hbound => ?_).ends trivial).weaken
    (fun _ h => h) (fun _ _ h => h.1) fun _ _ h => h
  refine iff_true_intro fun id hid => ?_
  have hmem := htarget id (hbound.symm.trans hid)
  rw [← hb] at hmem
  exact hmem

/-- A texture of a length takes a buffer of it. -/
theorem ends_upload
    (hselected : ∀ {b c}, HeadlessBackend.Redrawn b c → selected b → selected c) (ordinal : Nat)
    {texture : TextureId} {data : List Float32} (htakes : o.Takes texture data.length) :
    Ends (PoisedOn o t all selected) (onBackend ordinal (GraphicsBackend.upload texture data))
      (fun _ => PoisedOn o t all selected) fun _ _ => False :=
  (hinges_onBackend hselected (c := True) ordinal (HeadlessBackend.decides_uploadAudio · texture data)
    fun _ hb _ => iff_true_intro (hb ▸ htakes)).ends trivial

/-- A uniform with a place takes a value just if its type holds it. -/
theorem hinges_setUniform (ordinal : Nat) {program : ProgramId} {l : UniformLocation}
    {slot : ProgramSlot} (hslot : o.slot? program l = some slot) (hactive : slot.active = true)
    {value : UniformValue} (hknown : ∀ id, value = .texture id → id ∈ o.textures.keys) :
    Hinges (PoisedOn o t all fun b => b.current = some program)
      (PoisedOn o t all fun b => b.current = some program) (Poised o t all)
      (onBackend ordinal (GraphicsBackend.setUniform l value)) (value.fits slot.type = true) := by
  refine hinges_onBackend (fun hb h => hb.current.trans h) ordinal
    (HeadlessBackend.decides_storeUniform · l value) fun b hb hcurrent => ?_
  have hknown : b.Known value := fun id hid => by
    have hmem := hknown id hid
    rw [← hb] at hmem
    exact Registry.keys_map Texture.extent b.textures ▸ hmem
  constructor
  · rintro ⟨-, id, hid, hholds⟩
    cases hcurrent.symm.trans hid
    obtain ⟨slot', hslot', -, hfits⟩ := Outline.holds_iff_slot?.1 (hb ▸ hholds)
    cases hslot.symm.trans hslot'
    exact hfits
  · intro hfits
    refine ⟨hknown, program, hcurrent, ?_⟩
    rw [hb]
    exact Outline.holds_iff_slot?.2 ⟨slot, hslot, hactive, hfits⟩

/-! ### Chains -/

variable (hids : (all.map (·.id)).Nodup) (hlen : isBufferLength t.settings.bufferSize = true)
  {x : UniformBinding} (hx : x ∈ all) {input : List Float32}
  (hinput : input.length = t.settings.bufferSize)
include hids hlen hx hinput

/-- The steps of a binding that are run here succeed, and leave the states of all
other bindings. -/
theorem ends_runOn : Ends (PoisedOn o t all selected)
    (runOn input (runFrom t.settings.params x.id 0 x.hostSteps))
    (fun out d => PoisedOn o t all selected d ∧ out.length = t.settings.bufferSize)
    fun _ _ => False := by
  refine Ends.get_bind fun d hd => ?_
  have hkeeps : SpectrumKeeps Float32 t.settings.params.bufferLen := spectrumKeeps_single hlen
  obtain ⟨v, out, hran, hout, hv⟩ := ran?_of_ready hkeeps hinput (hd.1.ready x hx)
  obtain ⟨s', hsucceeds, rfl⟩ := succeeds_of_view hran
  have hothers := (view_of_succeeds hsucceeds).2
  have hrun : (runFrom t.settings.params x.id 0 x.hostSteps).run ⟨input, d.store⟩ =
      (.ok (), ⟨out, s'⟩) := hsucceeds
  rw [hrun]
  refine Ends.bind (R := fun _ => PoisedOn o t all selected) (Ends.set ?_) fun _ =>
    Ends.pure fun _ h => ⟨h, hout⟩
  rintro _ rfl
  refine ⟨⟨hd.1.outline, fun y hy => ?_, hd.1.memo⟩, hd.2⟩
  by_cases hyx : y.id = x.id
  · obtain rfl : y = x := List.inj_on_of_nodup_map hids hy hx hyx
    exact hv
  · rw [hothers y.id hyx]
    exact hd.1.ready y hy

theorem ends_chainResult (hcpu : x.mode = .cpu) :
    Ends (PoisedOn o t all selected) (chainResult t x input)
      (fun out d => PoisedOn o t all selected d ∧ out.length = t.settings.bufferSize)
      fun _ _ => False := by
  refine Ends.get_bind fun d hd => ?_
  split
  · next result hresult =>
    refine Ends.pure ?_
    rintro _ rfl
    exact ⟨hd, hd.1.memo hresult⟩
  · rw [Chain.run_eq, ← UniformBinding.hostSteps_of_cpu hcpu]
    refine Ends.bind ((ends_runOn hids hlen hx hinput).weaken (by rintro _ rfl; exact hd)
      (fun _ _ h => h) fun _ _ h => h) fun result => Ends.assume fun hresult => ?_
    refine Ends.bind (R := fun _ => PoisedOn o t all selected) (Ends.modify fun d hd => ?_) fun _ =>
      Ends.pure fun _ h => ⟨h, hresult⟩
    refine ⟨{ hd.1 with memo := fun {kind chain known} hknown => ?_ }, hd.2⟩
    rw [ChainMemo.get?, ChainMemo.put, Registry.get?_put] at hknown
    split at hknown
    · cases hknown
      exact hresult
    · exact hd.1.memo hknown

/-- The audio of a sound binding is made and uploaded. -/
theorem ends_uploadAudio
    (hselected : ∀ {b c}, HeadlessBackend.Redrawn b c → selected b → selected c)
    {program : ProgramId} (hsound : x.Sound o t.settings.bufferSize program) (ordinal : Nat)
    {texture : TextureId} (htakes : o.Takes texture t.settings.bufferSize) :
    Ends (PoisedOn o t all selected) (uploadAudio t ordinal x texture input)
      (fun _ => PoisedOn o t all selected) fun _ _ => False := by
  unfold uploadAudio
  split
  · next hcpu =>
    have hupload (result : List Float32) :
        Ends (fun d => PoisedOn o t all selected d ∧ result.length = t.settings.bufferSize)
          (onBackend ordinal (GraphicsBackend.upload texture result))
          (fun _ => PoisedOn o t all selected) fun _ _ => False :=
      Ends.assume fun hresult => ends_upload hselected ordinal (hresult.symm ▸ htakes)
    split
    · exact Ends.bind (Ends.pure fun _ h => ⟨h, hinput⟩) hupload
    · exact Ends.bind (ends_chainResult hids hlen hx hinput hcpu) hupload
  · next lead tail hmode =>
    obtain ⟨id, hid, hruns⟩ := hsound.offload (by rw [hmode]; rfl)
    rw [hid]
    dsimp only
    rw [Chain.runSteps, List.drop_zero, ← UniformBinding.hostSteps_of_offloaded hmode]
    refine Ends.bind (ends_runOn hids hlen hx hinput) fun buffer => Ends.assume fun hbuffer => ?_
    refine (hinges_onBackend hselected (c := True) ordinal
      (HeadlessBackend.decides_runTail · id buffer texture)
      fun _ hb _ => iff_true_intro ?_).ends trivial
    rw [hb, hbuffer]
    exact ⟨hruns, htakes⟩

omit hids hlen hx hinput

/-! ### Uniforms -/

/-- A source of the catalog gives values of its type. -/
theorem fits_value {s : BindSource} (hs : s ∈ BindSource.catalog) (previous : Option TextureId) :
    (t.value previous s.kind).fits s.type = true := by
  simp only [BindSource.catalog, List.mem_cons, List.not_mem_nil, or_false] at hs
  rcases hs with rfl | rfl | rfl | rfl | rfl | rfl <;> rfl

theorem fits_texture {s : BindSource} (hs : s ∈ BindSource.catalog) {channel : Channel}
    (hkind : s.kind = .audio channel) (id : TextureId) :
    (UniformValue.texture id).fits s.type = true := by
  simp only [BindSource.catalog, List.mem_cons, List.not_mem_nil, or_false] at hs
  rcases hs with rfl | rfl | rfl | rfl | rfl | rfl <;> first | rfl | cases hkind

variable {binds : List BindDecl} (ht : t.Sound o binds) {program : ProgramId}
  {previous : Option TextureId} (hprevious : ∀ id, previous = some id → id ∈ o.textures.keys)

include ht hprevious in
theorem known_value (kind : SourceKind) :
    ∀ id, t.value previous kind = .texture id → id ∈ o.textures.keys := by
  intro id hid
  cases kind with
  | previous =>
    cases hid
    cases previous with
    | none => exact ht.placeholder
    | some id => exact hprevious id rfl
  | audio => cases hid; exact ht.placeholder
  | _ => cases hid

include ht hids hprevious in
/-- The value of a sound binding is of the type of its source, and a texture is
one that the device has. -/
theorem ends_bindingValue?
    (hselected : ∀ {b c}, HeadlessBackend.Redrawn b c → selected b → selected c) (hx : x ∈ all)
    (hsound : x.Sound o t.settings.bufferSize program) (ordinal : Nat) :
    Ends (PoisedOn o t all selected) (bindingValue? t ordinal previous x)
      (fun value? d => PoisedOn o t all selected d ∧ ∃ value, value? = some value ∧
        value.fits x.source.type = true ∧ ∀ id, value = .texture id → id ∈ o.textures.keys)
      fun _ _ => False := by
  unfold bindingValue?
  split
  · next channel hkind =>
    obtain ⟨texture, htexture, htakes⟩ := hsound.texture (by rw [hkind]; rfl)
    have hvalue : ∃ value, some (UniformValue.texture texture) = some value ∧
        value.fits x.source.type = true ∧ ∀ id, value = .texture id → id ∈ o.textures.keys := by
      refine ⟨_, rfl, fits_texture hsound.source hkind texture, ?_⟩
      rintro _ ⟨⟩
      obtain ⟨extent, hextent, -⟩ := htakes
      exact Registry.mem_keys_of_get? hextent
    rw [htexture]
    dsimp only
    split
    · exact Ends.bind (ends_uploadAudio hids ht.len hx (ht.channel channel) hselected hsound ordinal
        htakes) fun _ => Ends.pure fun _ h => ⟨h, hvalue⟩
    · exact Ends.pure fun _ h => ⟨h, hvalue⟩
  · exact Ends.pure fun _ h => ⟨h, _, rfl, fits_value hsound.source previous,
      known_value ht hprevious _⟩

include ht hids hprevious in
/-- A sound binding is filled just if its uniform suits its source. -/
theorem hinges_fillBinding (hx : x ∈ all) (hsound : x.Sound o t.settings.bufferSize program)
    (ordinal : Nat) :
    Hinges (PoisedOn o t all fun b => b.current = some program)
      (PoisedOn o t all fun b => b.current = some program) (Poised o t all)
      (fillBinding t ordinal previous x) (x.Suited o program) := by
  refine Hinges.ends_bind (ends_bindingValue? hids ht hprevious (fun hb h => hb.current.trans h) hx
    hsound ordinal) fun value? => Ends.assume ?_
  rintro ⟨value, rfl, hfits, hknown⟩
  cases hlocation : x.location with
  | none =>
    refine Hinges.congr (Hinges.of_ends (Ends.pure fun _ h => h)) (iff_of_true trivial ?_)
    intro l hl
    cases hlocation.symm.trans hl
  | some l =>
    obtain ⟨slot, hslot, hactive⟩ := hsound.place l hlocation
    refine (hinges_setUniform ordinal hslot hactive hknown).congr ?_
    rw [fits_eq_suits hfits]
    constructor
    · intro hsuits l' hl'
      cases hlocation.symm.trans hl'
      exact ⟨slot, hslot, hsuits⟩
    · intro hsuited
      obtain ⟨slot', hslot', hsuits⟩ := hsuited l hlocation
      cases hslot.symm.trans hslot'
      exact hsuits

include ht in
/-- Values from outside are always stored: their uniforms are declared with their
types by the header. -/
theorem hinges_fillExternal {e : Nat × UniformLocation} (he : o.HasExternal binds program e)
    (ordinal : Nat) :
    Hinges (PoisedOn o t all fun b => b.current = some program)
      (PoisedOn o t all fun b => b.current = some program) (Poised o t all)
      (fillExternal t ordinal e) True := by
  obtain ⟨d, slot, hd, hslot, hactive, htype⟩ := he
  unfold fillExternal
  split
  · next value hvalue =>
    have hfits := ht.externals hd hvalue
    refine (hinges_setUniform ordinal hslot hactive ?_).congr (iff_true_intro (htype ▸ hfits))
    rintro id rfl
    cases hbind : d.type <;> rw [hbind] at hfits <;> cases hfits
  · exact Hinges.of_ends (Ends.pure fun _ h => h)

/-! ### Stages -/

include ht hids hprevious in
/-- A sound stage is drawn just if its uniforms suit their sources. -/
theorem hinges_drawStage {st : ShaderStage} (hst : st.Sound o t.settings.bufferSize binds)
    (hall : ∀ x ∈ st.bindings, x ∈ all) :
    Hinges (Poised o t all) (Poised o t all) (Poised o t all) (drawStage t previous st)
      (st.Suited o) := by
  have hdraw : Ends (PoisedOn o t all fun b => b.current = some st.program)
      (onBackend st.ordinal GraphicsBackend.draw) (fun _ => Poised o t all) fun _ _ => False := by
    refine ((hinges_onBackend (fun hb h => hb.current.trans h) (c := True) st.ordinal
      HeadlessBackend.decides_recordDraw fun b hb hcurrent => iff_true_intro ?_).ends trivial).weaken
      (fun _ h => h) (fun _ _ h => h.1) fun _ _ h => h
    have hmem := hst.program
    rw [← hb] at hmem
    exact ⟨st.program, hcurrent, Registry.keys_map Program.slots b.programs ▸ hmem⟩
  have hrest : Hinges (Poised o t all) (Poised o t all) (Poised o t all) (do
      onBackend st.ordinal (GraphicsBackend.useProgram st.program)
      st.bindings.forM (fillBinding t st.ordinal previous)
      st.externals.forM (fillExternal t st.ordinal)
      onBackend st.ordinal GraphicsBackend.draw) (st.Suited o) := by
    refine Hinges.ends_bind (ends_useProgram st.ordinal hst.program) fun _ => ?_
    refine Hinges.congr (Hinges.bind (Hinges.forM _ fun x hx =>
      hinges_fillBinding hids ht hprevious (hall x hx) (hst.bindings x hx) st.ordinal) fun _ =>
      Hinges.bind (Hinges.forM _ fun e he => hinges_fillExternal ht (hst.externals e he) st.ordinal)
        fun _ => Hinges.of_ends hdraw) ?_
    exact ⟨fun h => h.1, fun h => ⟨h, fun _ _ => trivial, trivial⟩⟩
  refine Hinges.ends_bind (ends_bindTarget st.ordinal hst.target) fun _ => ?_
  dsimp only
  split
  · exact Hinges.ends_bind (ends_clear st.ordinal _ hst.target) fun _ => hrest
  · exact hrest.weaken (fun _ h => h.1) (fun _ _ h => h) fun _ _ h => h

include ht hids in
/-- Sound stages are drawn just if all uniforms suit their sources. -/
theorem hinges_drawStages : ∀ {stages : List ShaderStage} {previous : Option TextureId},
    (∀ id, previous = some id → id ∈ o.textures.keys) →
    (∀ st ∈ stages, st.Sound o t.settings.bufferSize binds) →
    (∀ st ∈ stages, ∀ x ∈ st.bindings, x ∈ all) →
    Hinges (Poised o t all) (Poised o t all) (Poised o t all) (drawStages t previous stages)
      (∀ st ∈ stages, st.Suited o)
  | [], _, _, _, _ => Ends.pure fun _ hd => ⟨hd, nofun⟩
  | st :: stages, previous, hprevious, hsound, hall => by
    have hst := hsound st (List.mem_cons_self ..)
    refine Hinges.congr (Hinges.bind (hinges_drawStage hids ht hprevious hst
      (hall st (List.mem_cons_self ..))) fun _ => ?_) List.forall_mem_cons.symm
    -- the next stage sees what this one has drawn
    exact hinges_drawStages hst.output (fun st' h => hsound st' (List.mem_cons_of_mem st h))
      fun st' h => hall st' (List.mem_cons_of_mem st h)

end Drawing
end AudioShader
