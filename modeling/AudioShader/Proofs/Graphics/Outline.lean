/-
# The outline of a headless backend

What is drawn with changes values only: which handles are in use, what the
programs declare, how large textures are and which buffers a tail takes stays as
it was made. That is the outline of a backend. Whether a call that draws is
accepted is told by the outline and by what is selected.

Key definitions: `ProgramSlot`, `Extent`, `PassShape`, `Outline`, `HeadlessBackend.outline`,
`HeadlessBackend.Decides`.
Key theorems: `HeadlessBackend.decides_uploadAudio`, `HeadlessBackend.decides_storeUniform`,
`HeadlessBackend.decides_runTail`, `HeadlessBackend.decides_clearTo`.
-/
import AudioShader.Graphics.Headless
import AudioShader.Proofs.Outcome
import AudioShader.Proofs.Registry
import AudioShader.Proofs.Signal.Offload

namespace AudioShader

/-- A declared uniform without its value. -/
structure ProgramSlot where
  name : String
  type : ValueType
  active : Bool

def Declared.slot (d : Declared) : ProgramSlot := ⟨d.name, d.type, d.active⟩

def Program.slots (p : Program) : List ProgramSlot := p.uniforms.map Declared.slot

/-- How large a texture is, and how many values it holds. -/
structure Extent where
  width : Nat
  height : Nat
  channels : Nat
  size : Nat

def Texture.extent (t : Texture) : Extent := ⟨t.width, t.height, t.channels, t.data.length⟩

/-- A texture for audio buffers of a length. -/
def Extent.audio (len : Nat) : Extent := ⟨len, 1, 1, len⟩

/-- The buffers that passes take. -/
structure PassShape where
  tail : Tail
  len : Nat
  /-- The length of the frames of the average. -/
  frame : Nat

def OffloadPasses.shape {α : Type} (p : OffloadPasses α) : PassShape := ⟨p.tail, p.len, p.history.len⟩

/-- What drawing leaves as it is. -/
structure Outline where
  next : Nat
  programs : Registry ProgramId (List ProgramSlot)
  textures : Registry TextureId Extent
  targets : Registry TargetId TextureId
  offloads : Registry OffloadId PassShape

namespace Outline

/-- The number of handles in use. -/
def live (o : Outline) : Nat :=
  o.programs.size + o.textures.size + o.targets.size + o.offloads.size

/-- Whether a texture takes audio of a length. -/
def Takes (o : Outline) (id : TextureId) (len : Nat) : Prop :=
  ∃ x, o.textures.get? id = some x ∧ x.height = 1 ∧ x.channels = 1 ∧ x.size = len

/-- Whether a tail runs on buffers of a length. -/
def Runs (o : Outline) (id : OffloadId) (len : Nat) : Prop :=
  ∃ p, o.offloads.get? id = some p ∧ p.len = len ∧ isBufferLength len = true ∧
    (p.tail.hasAverage = true → p.frame = len)

/-- Whether a place in a program can hold a value. -/
def Holds (o : Outline) (program : ProgramId) (location : UniformLocation) (value : UniformValue) :
    Prop :=
  ∃ slots slot, o.programs.get? program = some slots ∧ slots[location.number]? = some slot ∧
    slot.active = true ∧ value.fits slot.type = true

end Outline

/-! ### Passes -/

theorem OffloadPasses.length_spectrumPass {α : Type} [Signal α] (p : OffloadPasses α)
    (input : List α) : (p.spectrumPass input).length = p.len := by
  rw [spectrumPass, length_compressAll, List.length_map, List.length_range]

theorem OffloadPasses.length_gravityPass {α : Type} [Sample α] (p : OffloadPasses α)
    {spectrum : List α} (h : spectrum.length = p.len) : (p.gravityPass spectrum).length = p.len := by
  rw [gravityPass, List.length_zipWith, h, len, Nat.min_self]

/-- Whether passes run on a buffer of a length is told by their shape, and they
keep it. -/
theorem OffloadPasses.run_cases {α : Type} [Signal α] (p : OffloadPasses α) (input : List α) :
    (∃ p' out, p.run input = .ok (p', out) ∧ p'.shape = p.shape ∧ out.length = p.len ∧
      input.length = p.len ∧ isBufferLength p.len = true ∧
      (p.tail.hasAverage = true → p.history.len = p.len)) ∨
    ((∃ e, p.run input = .error e) ∧ ¬(input.length = p.len ∧ isBufferLength p.len = true ∧
      (p.tail.hasAverage = true → p.history.len = p.len))) := by
  by_cases hin : input.length = p.len
  swap
  · refine .inr ⟨⟨.bufferLength .fft p.len input.length, ?_⟩, fun h => hin h.1⟩
    unfold run
    rw [if_pos hin]
    rfl
  by_cases hlen : isBufferLength p.len = true
  swap
  · refine .inr ⟨⟨.notPowerOfTwo p.len, ?_⟩, fun h => hlen h.2.1⟩
    unfold run
    rw [if_neg (by simpa using hin), Bool.eq_false_iff.2 hlen]
    rfl
  have hspectrum := p.length_spectrumPass input
  have hfall := p.length_gravityPass hspectrum
  cases ht : p.tail with
  | fft =>
    exact .inl ⟨_, _, run_of_fft hin hlen ht, rfl, hspectrum, hin, hlen, fun h => nomatch h⟩
  | fftGravity =>
    refine .inl ⟨_, _, run_of_fftGravity hin hlen ht, ?_, hfall, hin, hlen, fun h => nomatch h⟩
    simp only [shape, len] at hfall ⊢
    rw [hfall]
  | fftGravityAverage =>
    by_cases hframe : p.history.len = p.len
    · obtain ⟨history, out, happly, hlen', hout⟩ :=
        AverageState.apply_of_len (hframe.trans hfall.symm) p.avgWindow
      refine .inl ⟨_, _, run_of_fftGravityAverage hin hlen ht happly, ?_, hout.trans hfall, hin, hlen,
        fun _ => hframe⟩
      simp only [shape, len] at hfall ⊢
      rw [hfall, hlen']
    · refine .inr ⟨⟨.bufferLength .average p.history.len p.len, ?_⟩, fun h => hframe (h.2.2 rfl)⟩
      have happly : p.history.apply (p.gravityPass (p.spectrumPass input)) p.avgWindow =
          .error (.bufferLength .average p.history.len p.len) := by
        rw [AverageState.apply, if_pos (by rwa [hfall]), hfall]
      have hg : p.tail.hasGravity = true := by rw [ht]; rfl
      have ha : p.tail.hasAverage = true := by rw [ht]; rfl
      unfold run
      rw [if_neg (by simpa using hin), hlen, hg, ha]
      simp only [if_true, happly]
      rfl

namespace HeadlessBackend

def outline (b : HeadlessBackend) : Outline where
  next := b.next
  programs := b.programs.map Program.slots
  textures := b.textures.map Texture.extent
  targets := b.targets
  offloads := b.offloads.map OffloadPasses.shape

theorem liveResources_eq (b : HeadlessBackend) : b.liveResources = b.outline.live := by
  simp only [liveResources, Outline.live, outline, Registry.size_map]

open AudioShader.Action (Ends Stays)

/-- A backend has the outline of another, and the same is selected. -/
structure Redrawn (b₀ b : HeadlessBackend) : Prop where
  outline : b.outline = b₀.outline
  bound : b.bound = b₀.bound
  current : b.current = b₀.current

theorem Redrawn.refl (b : HeadlessBackend) : Redrawn b b := ⟨rfl, rfl, rfl⟩

theorem Redrawn.trans {a b c : HeadlessBackend} (h : Redrawn a b) (h' : Redrawn b c) : Redrawn a c :=
  ⟨h'.outline.trans h.outline, h'.bound.trans h.bound, h'.current.trans h.current⟩

/-- A call in `b₀` is accepted just if a condition holds. Either way it leaves
the outline and what is selected. -/
def Decides {α : Type} (b₀ : HeadlessBackend) (a : Op α) (accepted : Prop) : Prop :=
  Ends (fun b => b = b₀) a (fun _ b => Redrawn b₀ b ∧ accepted) fun _ b => Redrawn b₀ b ∧ ¬accepted

theorem ends_require {α : Type} {kind : HandleKind} {number : Nat} {held : Option α}
    {P : HeadlessBackend → Prop} {Q : α → HeadlessBackend → Prop}
    {E : BackendError → HeadlessBackend → Prop} (hQ : ∀ a, held = some a → ∀ b, P b → Q a b)
    (hE : held = none → ∀ e b, P b → E e b) : Ends P (require kind number held) Q E := by
  cases held with
  | none => exact Ends.throw (hE rfl _)
  | some a => exact Ends.pure (hQ a rfl)

/-- Work behind the look for a handle: what the handle stands for is known there. -/
theorem ends_require_bind {α β : Type} {kind : HandleKind} {number : Nat} {held : Option α}
    {f : α → Op β} {P : HeadlessBackend → Prop} {Q : β → HeadlessBackend → Prop}
    {E : BackendError → HeadlessBackend → Prop} (hE : held = none → ∀ e b, P b → E e b)
    (hf : ∀ a, held = some a → Ends P (f a) Q E) : Ends P (require kind number held >>= f) Q E :=
  Ends.bind (R := fun a b => P b ∧ held = some a)
    (ends_require (fun _ ha _ hb => ⟨hb, ha⟩) hE) fun a => Ends.assume (hf a)

/-! ### Calls that draw -/

/-- A texture keeps its size when it gets other values. -/
theorem redrawn_setData {b : HeadlessBackend} {id : TextureId} {t : Texture} {data : List Float32}
    (h : b.textures.get? id = some t) (hdata : data.length = t.data.length) :
    Redrawn b { b with textures := b.textures.put id { t with data } } := by
  have hextent : { t with data }.extent = t.extent := by rw [Texture.extent, hdata]; rfl
  exact ⟨by simp only [outline, Registry.map_put_self Texture.extent h hextent], rfl, rfl⟩

theorem length_paint (c : Color) : ∀ values, (Texture.paint c values).length = values.length
  | _ :: _ :: _ :: _ :: rest => by simp only [Texture.paint, List.length_cons, length_paint c rest]
  | [] | [_] | [_, _] | [_, _, _] => rfl

theorem takes_iff {b : HeadlessBackend} {id : TextureId} {t : Texture} {len : Nat}
    (h : b.textures.get? id = some t) :
    b.outline.Takes id len ↔ t.isAudio = true ∧ t.data.length = len := by
  simp [Outline.Takes, outline, h, Texture.extent, Texture.isAudio, and_assoc]

theorem not_takes_of_get? {b : HeadlessBackend} {id : TextureId} {len : Nat}
    (h : b.textures.get? id = none) : ¬b.outline.Takes id len := by
  simp [Outline.Takes, outline, h]

theorem decides_uploadAudio (b : HeadlessBackend) (id : TextureId) (data : List Float32) :
    Decides b (uploadAudio id data) (b.outline.Takes id data.length) := by
  refine Ends.get_bind ?_
  rintro b rfl
  refine ends_require_bind ?_ fun t ht => ?_
  · rintro ht e _ rfl
    exact ⟨.refl _, not_takes_of_get? ht⟩
  split
  · next hfits =>
    refine Ends.throw_bind ?_
    rintro _ rfl
    refine ⟨.refl _, fun htakes => ?_⟩
    obtain ⟨haudio, hlength⟩ := (takes_iff ht).1 htakes
    simp [haudio, hlength] at hfits
  · next hfits =>
    refine Ends.modify ?_
    rintro _ rfl
    simp only [Bool.or_eq_true, Bool.not_eq_true', decide_eq_true_eq, ne_eq, not_or, not_not,
      Bool.not_eq_false] at hfits
    exact ⟨redrawn_setData ht hfits.2.symm, (takes_iff ht).2 hfits⟩

/-- Draws go where they are told to, if that is a target. -/
theorem ends_selectTarget (b : HeadlessBackend) (target : Option TargetId) :
    Ends (fun c => c = b) (selectTarget target)
      (fun _ c => (∀ id, target = some id → id ∈ b.targets.keys) ∧
        c = { b with bound := target })
      fun _ c => c = b ∧ ∃ id, target = some id ∧ id ∉ b.targets.keys := by
  cases target with
  | none =>
    refine Ends.modify ?_
    rintro _ rfl
    exact ⟨nofun, rfl⟩
  | some id =>
    refine Ends.get_bind ?_
    rintro b rfl
    refine ends_require_bind ?_ fun t ht => Ends.modify ?_
    · rintro ht e _ rfl
      exact ⟨rfl, id, rfl, (Registry.get?_eq_none_iff _ _).1 ht⟩
    · rintro _ rfl
      exact ⟨fun _ h => Option.some.inj h ▸ Registry.mem_keys_of_get? ht, rfl⟩

/-- A selected target is cleared if it is still there. -/
theorem decides_clearTo (b : HeadlessBackend) (color : Color) :
    Decides b (clearTo color) (∀ id, b.bound = some id → id ∈ b.targets.keys) := by
  refine Ends.get_bind ?_
  rintro b rfl
  rcases hbound : b.bound with _ | target
  · refine Ends.modify ?_
    rintro _ rfl
    exact ⟨⟨rfl, rfl, rfl⟩, fun _ h => nomatch h⟩
  refine Ends.bind (R := fun _ c => c = b ∧ target ∈ b.targets.keys) ?_ fun texture => ?_
  · refine Ends.get_bind ?_
    rintro b rfl
    refine ends_require ?_ ?_
    · rintro t ht _ rfl
      exact ⟨rfl, Registry.mem_keys_of_get? ht⟩
    · rintro ht e _ rfl
      exact ⟨.refl _, fun h => (Registry.get?_eq_none_iff _ _).1 ht (h target rfl)⟩
  refine Ends.get_bind ?_
  rintro _ ⟨rfl, htarget⟩
  split
  · next t ht =>
    refine Ends.modify ?_
    rintro _ rfl
    exact ⟨redrawn_setData ht (length_paint color t.data), fun _ h => Option.some.inj h ▸ htarget⟩
  · refine Ends.pure ?_
    rintro _ rfl
    exact ⟨.refl _, fun _ h => Option.some.inj h ▸ htarget⟩

/-- A program that there is can be used. -/
theorem ends_selectProgram (b : HeadlessBackend) (program : ProgramId) :
    Ends (fun c => c = b) (selectProgram program)
      (fun _ c => program ∈ b.programs.keys ∧ c = { b with current := some program })
      fun _ c => c = b ∧ program ∉ b.programs.keys := by
  refine Ends.get_bind ?_
  rintro b rfl
  refine ends_require_bind ?_ fun p hp => Ends.modify ?_
  · rintro hp e _ rfl
    exact ⟨rfl, (Registry.get?_eq_none_iff _ _).1 hp⟩
  · rintro _ rfl
    exact ⟨Registry.mem_keys_of_get? hp, rfl⟩

/-- The program in use, if there is one. -/
theorem ends_currentProgram (b : HeadlessBackend) :
    Ends (fun c => c = b) currentProgram
      (fun p c => c = b ∧ b.current = some p.1 ∧ b.programs.get? p.1 = some p.2)
      fun _ c => c = b ∧ ∀ id, b.current = some id → b.programs.get? id = none := by
  refine Ends.get_bind ?_
  rintro b rfl
  rcases hcurrent : b.current with _ | id
  · exact Ends.throw (by rintro _ rfl; exact ⟨rfl, fun _ h => nomatch h⟩)
  · refine Ends.get_bind ?_
    rintro b rfl
    refine ends_require_bind ?_ fun p hp => Ends.pure ?_
    · rintro hp e _ rfl
      exact ⟨rfl, fun _ h => Option.some.inj h ▸ hp⟩
    · rintro _ rfl
      exact ⟨rfl, rfl, hp⟩

/-- A draw needs a program. -/
theorem decides_recordDraw (b : HeadlessBackend) :
    Decides b recordDraw (∃ id, b.current = some id ∧ id ∈ b.programs.keys) := by
  refine Ends.bind ((ends_currentProgram b).weaken (fun _ h => h) (fun _ _ h => h) ?_) fun p =>
    Ends.modify ?_
  · rintro _ _ ⟨rfl, hnone⟩
    refine ⟨.refl _, fun ⟨id, hid, hkeys⟩ => ?_⟩
    exact (Registry.get?_eq_none_iff _ _).1 (hnone id hid) hkeys
  · rintro _ ⟨rfl, hcurrent, hp⟩
    exact ⟨⟨rfl, rfl, rfl⟩, p.1, hcurrent, Registry.mem_keys_of_get? hp⟩

/-- A texture value needs its texture. -/
def Known (b : HeadlessBackend) (value : UniformValue) : Prop :=
  ∀ id, value = .texture id → id ∈ b.textures.keys

/-- A uniform keeps its name, type and use when it gets a value. -/
theorem slots_set {p : Program} {n : Nat} {u : Declared} (h : p.uniforms[n]? = some u)
    (value : UniformValue) : { p with
      uniforms := p.uniforms.set n { u with value := some value } }.slots = p.slots := by
  obtain ⟨hn, rfl⟩ := List.getElem?_eq_some_iff.1 h
  refine List.ext_getElem? fun i => ?_
  simp only [Program.slots, List.getElem?_map, List.getElem?_set]
  split
  · next hi =>
    rw [← hi, h]
    rfl
  · rfl

theorem holds_iff {b : HeadlessBackend} {id : ProgramId} {p : Program} {location : UniformLocation}
    {value : UniformValue} (h : b.programs.get? id = some p) :
    b.outline.Holds id location value ↔
      ∃ u, ((p.uniforms[location.number]?).filter fun u => u.active) = some u ∧
        value.fits u.type = true := by
  simp only [Outline.Holds, outline, Registry.get?_map, h, Option.map_some, Option.some.injEq,
    Option.filter_eq_some_iff]
  constructor
  · rintro ⟨_, slot, rfl, hslot, hactive, hfits⟩
    rw [Program.slots, List.getElem?_map] at hslot
    obtain ⟨u, hu, rfl⟩ := Option.map_eq_some_iff.1 hslot
    exact ⟨u, ⟨hu, hactive⟩, hfits⟩
  · rintro ⟨u, ⟨hu, hactive⟩, hfits⟩
    exact ⟨_, u.slot, rfl, by rw [Program.slots, List.getElem?_map, hu]; rfl, hactive, hfits⟩

theorem not_holds_of_get? {b : HeadlessBackend} {id : ProgramId} {location : UniformLocation}
    {value : UniformValue} (h : b.programs.get? id = none) : ¬b.outline.Holds id location value := by
  simp [Outline.Holds, outline, h]

/-- Whether the program in use has a place for a value. -/
def HasPlace (b : HeadlessBackend) (location : UniformLocation) (value : UniformValue) : Prop :=
  ∃ id, b.current = some id ∧ b.outline.Holds id location value

/-- Behind the look for a texture, a uniform of the program in use takes a value
that fits it. -/
theorem ends_storeKnown (b : HeadlessBackend) (location : UniformLocation) (value : UniformValue) :
    Ends (fun c => c = b)
      (do
        let (id, program) ← currentProgram
        let u ← require .uniform location.number
          ((program.uniforms[location.number]?).filter fun u => u.active)
        if !value.fits u.type then throw (.uniformType location value)
        let uniforms := program.uniforms.set location.number { u with value := some value }
        modify fun b => { b with programs := b.programs.put id { program with uniforms } } :
          Op Unit)
      (fun _ c => Redrawn b c ∧ b.HasPlace location value)
      fun _ c => Redrawn b c ∧ ¬b.HasPlace location value := by
  refine Ends.bind ((ends_currentProgram b).weaken (fun _ h => h) (fun _ _ h => h) ?_) fun p => ?_
  · rintro _ _ ⟨rfl, hnone⟩
    exact ⟨.refl _, fun ⟨id, hid, hholds⟩ => not_holds_of_get? (hnone id hid) hholds⟩
  refine Ends.assume ?_
  rintro ⟨hcurrent, hp⟩
  -- what is in use is known, so that the condition is about its uniform
  have hplace : b.HasPlace location value ↔
      ∃ u, ((p.2.uniforms[location.number]?).filter fun u => u.active) = some u ∧
        value.fits u.type = true := by
    rw [← holds_iff hp]
    exact ⟨fun ⟨id, hid, hholds⟩ => Option.some.inj (hcurrent.symm.trans hid) ▸ hholds,
      fun hholds => ⟨p.1, hcurrent, hholds⟩⟩
  rw [hplace]
  refine ends_require_bind ?_ fun u hu => ?_
  · rintro hu e _ rfl
    refine ⟨.refl _, fun ⟨u, hu', _⟩ => ?_⟩
    rw [hu] at hu'
    cases hu'
  · dsimp only
    split
    · next hfits =>
      refine Ends.throw_bind ?_
      rintro _ rfl
      refine ⟨.refl _, fun ⟨u', hu', hfits'⟩ => ?_⟩
      cases hu.symm.trans hu'
      rw [hfits'] at hfits
      cases hfits
    · next hfits =>
      refine Ends.modify ?_
      rintro c rfl
      have hslots := slots_set (Option.filter_eq_some_iff.1 hu).1 value
      refine ⟨⟨?_, rfl, rfl⟩, u, hu, by simpa using hfits⟩
      simp only [outline, Registry.map_put_self Program.slots hp hslots]

/-- A uniform of the program in use takes a value that fits it. -/
theorem decides_storeUniform (b : HeadlessBackend) (location : UniformLocation)
    (value : UniformValue) :
    Decides b (storeUniform location value) (b.Known value ∧ b.HasPlace location value) := by
  -- behind the look only the place matters
  have hstore (hknown : b.Known value) := (ends_storeKnown b location value).weaken (fun _ h => h)
    (fun _ c h => (⟨h.1, hknown, h.2⟩ : Redrawn b c ∧ b.Known value ∧ b.HasPlace location value))
    fun _ c h => (⟨h.1, fun hall => h.2 hall.2⟩ :
      Redrawn b c ∧ ¬(b.Known value ∧ b.HasPlace location value))
  unfold storeUniform
  split
  · next id =>
    refine Ends.get_bind ?_
    rintro b rfl
    refine ends_require_bind ?_ fun t ht => hstore ?_
    · rintro ht e _ rfl
      exact ⟨.refl _, fun h => (Registry.get?_eq_none_iff _ _).1 ht (h.1 id rfl)⟩
    · rintro id' ⟨⟩
      exact Registry.mem_keys_of_get? ht
  · next hvalue => exact hstore fun id h => (hvalue id h).elim

/-- A tail runs on buffers of its length, into a texture of that length. -/
theorem decides_runTail (b : HeadlessBackend) (id : OffloadId) (input : List Float32)
    (output : TextureId) :
    Decides b (runTail id input output)
      (b.outline.Runs id input.length ∧ b.outline.Takes output input.length) := by
  refine Ends.get_bind ?_
  rintro b rfl
  refine ends_require_bind ?_ fun p hp => ?_
  · rintro hp e _ rfl
    refine ⟨.refl _, fun ⟨⟨shape, hshape, _⟩, _⟩ => ?_⟩
    rw [outline, Registry.get?_map, hp] at hshape
    cases hshape
  have hruns : b.outline.Runs id input.length ↔ input.length = p.len ∧
      isBufferLength p.len = true ∧ (p.tail.hasAverage = true → p.history.len = p.len) := by
    simp only [Outline.Runs, outline, Registry.get?_map, hp, Option.map_some, Option.some.injEq,
      exists_eq_left', OffloadPasses.shape]
    constructor
    · rintro ⟨h, hrest⟩
      rw [← h] at hrest
      exact ⟨h.symm, hrest⟩
    · rintro ⟨h, hrest⟩
      rw [← h] at hrest
      exact ⟨h.symm, hrest⟩
  rcases p.run_cases input with ⟨p', out, hrun, hshape, hout, hcond⟩ | ⟨⟨e, hrun⟩, hcond⟩
  · rw [hrun]
    refine Ends.record_bind ?_
    -- the passes are kept, and their shape with them
    have hput : Redrawn b { b with offloads := b.offloads.put id p' } :=
      ⟨by simp only [outline, Registry.map_put_self OffloadPasses.shape hp hshape], rfl, rfl⟩
    refine Ends.bind (R := fun _ c => c = { b with offloads := b.offloads.put id p' })
      (Ends.modify (by rintro _ rfl; rfl)) fun _ => ?_
    have hlen : out.length = input.length := hout.trans hcond.1.symm
    refine (decides_uploadAudio _ output out).weaken (fun _ h => h) ?_ ?_
    · rintro _ c ⟨hc, htakes⟩
      rw [hput.outline, hlen] at htakes
      exact ⟨hput.trans hc, hruns.2 hcond, htakes⟩
    · rintro _ c ⟨hc, htakes⟩
      rw [hput.outline, hlen] at htakes
      exact ⟨hput.trans hc, fun h => htakes h.2⟩
  · rw [hrun]
    refine Ends.throw ?_
    rintro _ rfl
    exact ⟨.refl _, fun h => hcond (hruns.1 h.1)⟩

end HeadlessBackend
end AudioShader
