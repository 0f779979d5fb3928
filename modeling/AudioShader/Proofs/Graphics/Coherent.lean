/-
# The handles of a headless backend fit together

Whatever is asked of a headless backend, and however it ends: no number is given
twice, what is selected is there, targets have their textures, textures have as
many values as their size says, and uniforms hold values of their types only. A
texture that draws go to has to be left to its target, though.

Key definitions: `DeviceCall`, `Answer.numbers`, `HeadlessBackend.Reached`,
`HeadlessBackend.Coherent`, `HeadlessBackend.Next`.
Key theorems: `HeadlessBackend.ends_perform`, `HeadlessBackend.Reached.next`,
`HeadlessBackend.reached_coherent`.
-/
import AudioShader.Proofs.Graphics.Growth
import AudioShader.Proofs.Graphics.Stores

namespace AudioShader

open AudioShader.Action (Ends Stays Gives Fails)

/-! ### Calls -/

/-- A call of a backend; what is deleted is told by its handle. -/
inductive DeviceCall where
  | compile (label fragment : String)
  | location (program : ProgramId) (name : String)
  | createTarget (width height : Nat)
  | targetTexture (target : TargetId)
  | createAudioTexture (len : Nat)
  | createColorTexture (width height : Nat)
  | upload (id : TextureId) (data : List Float32)
  | bindTarget (target : Option TargetId)
  | clear (color : Color)
  | useProgram (program : ProgramId)
  | setUniform (location : UniformLocation) (value : UniformValue)
  | draw
  | screenSize
  | supportsOffload
  | createOffload (tail : Tail) (params : TransformParams Float32)
  | runOffload (id : OffloadId) (input : List Float32) (output : TextureId)
  | delete (h : Handle)

/-- What a backend answers. -/
inductive Answer where
  | done
  | made (h : Handle)
  | texture (id : TextureId)
  | place (location : Option UniformLocation)
  | size (size : Nat × Nat)
  | able (answer : Bool)

/-- Makes a call. -/
def DeviceCall.perform {σ : Type} [GraphicsBackend σ] : DeviceCall → Action σ BackendError Answer
  | .compile label fragment => return .made (.program (← GraphicsBackend.compile label fragment))
  | .location program name => return .place (GraphicsBackend.location? (← get) program name)
  | .createTarget width height => return .made (.target (← GraphicsBackend.createTarget width height))
  | .targetTexture target => return .texture (← GraphicsBackend.targetTexture target)
  | .createAudioTexture len => return .made (.texture (← GraphicsBackend.createAudioTexture len))
  | .createColorTexture width height =>
    return .made (.texture (← GraphicsBackend.createColorTexture width height))
  | .upload id data => do GraphicsBackend.upload id data; return .done
  | .bindTarget target => do GraphicsBackend.bindTarget target; return .done
  | .clear color => do GraphicsBackend.clear color; return .done
  | .useProgram program => do GraphicsBackend.useProgram program; return .done
  | .setUniform place value => do GraphicsBackend.setUniform place value; return .done
  | .draw => do GraphicsBackend.draw; return .done
  | .screenSize => return .size (GraphicsBackend.screenSize (← get))
  | .supportsOffload => return .able (GraphicsBackend.supportsOffload (← get))
  | .createOffload tail params =>
    return .made (.offload (← GraphicsBackend.createOffload tail params))
  | .runOffload id input output => do GraphicsBackend.runOffload id input output; return .done
  | .delete h => do modify h.delete; return .done

/-- The numbers that are given with an answer, after which the backend is as
told: a new target brings a texture with it. -/
def Answer.numbers (b : HeadlessBackend) : Answer → List Nat
  | .made (.target id) => ((b.targets.get? id).map (·.number)).toList ++ [id.number]
  | .made h => [h.number]
  | _ => []

/-! ### Outlines -/

/-- A texture has as many values as its size says. -/
def Extent.Full (x : Extent) : Prop := x.size = x.width * x.height * x.channels

theorem Extent.full_zeros (width height channels : Nat) :
    (Texture.zeros width height channels).extent.Full := List.length_replicate

theorem Extent.full_audio (len : Nat) : (audio len).Full := by simp [Full, audio]

namespace Outline

/-- Handles have numbers below the counter, each target has a texture of its own,
and textures are full. -/
structure Orderly (o : Outline) : Prop where
  numbered : o.Numbered
  backed : ∀ {target texture}, o.targets.get? target = some texture → texture ∈ o.textures.keys
  apart : ∀ {target target' texture}, o.targets.get? target = some texture →
    o.targets.get? target' = some texture → target = target'
  full : ∀ {id x}, o.textures.get? id = some x → x.Full

namespace Orderly

variable {o : Outline} (h : o.Orderly)

include h

theorem addProgram (slots : List ProgramSlot) : (o.addProgram slots).Orderly :=
  ⟨h.numbered.addProgram slots, h.backed, h.apart, h.full⟩

theorem addOffload (p : PassShape) : (o.addOffload p).Orderly :=
  ⟨h.numbered.addOffload p, h.backed, h.apart, h.full⟩

theorem addTexture {x : Extent} (hx : x.Full) : (o.addTexture x).Orderly where
  numbered := h.numbered.addTexture x
  backed htarget := (h.numbered.grows_addTexture x).mem_textures (h.backed htarget)
  apart := h.apart
  full hid := by
    rcases Registry.get?_put_cases hid with ⟨rfl, rfl⟩ | ⟨-, hid⟩
    · exact hx
    · exact h.full hid

/-- The texture of a new target is new as well, so no other target has it. -/
theorem addTarget {x : Extent} (hx : x.Full) : (o.addTarget x).Orderly where
  numbered := h.numbered.addTarget x
  backed htarget := by
    rcases Registry.get?_put_cases htarget with ⟨rfl, rfl⟩ | ⟨-, htarget⟩
    · exact Registry.mem_keys_put.2 (.inl rfl)
    · exact (h.numbered.grows_addTarget x).mem_textures (h.backed htarget)
  apart htarget htarget' := by
    -- each of the two targets is the new one or was there
    rcases Registry.get?_put_cases htarget with ⟨rfl, rfl⟩ | ⟨-, htarget⟩ <;>
      rcases Registry.get?_put_cases htarget' with ⟨rfl, hnew⟩ | ⟨-, htarget'⟩
    · rfl
    · exact (h.numbered.texture (h.backed htarget')).elim
    · exact (h.numbered.texture (hnew ▸ h.backed htarget)).elim
    · exact h.apart htarget htarget'
  full := (h.addTexture hx).full

theorem eraseTexture {id : TextureId} (hid : ∀ target, o.targets.get? target ≠ some id) :
    (o.delete (.texture id)).Orderly where
  numbered := h.numbered.delete _
  backed {target texture} htarget := by
    have hne : texture ≠ id := fun heq => hid target (heq ▸ htarget)
    exact Registry.mem_keys_erase_of_ne hne (h.backed htarget)
  apart := h.apart
  full hx := h.full (Registry.get?_of_get?_erase hx).2

/-- A target goes with its texture, which no other target has. -/
theorem eraseTarget (id : TargetId) : (o.delete (.target id)).Orderly where
  numbered := h.numbered.delete _
  backed {target texture} htarget := by
    obtain ⟨hne, htarget⟩ := Registry.get?_of_get?_erase htarget
    simp only [Outline.delete]
    split
    · next gone hgone =>
      refine Registry.mem_keys_erase_of_ne ?_ (h.backed htarget)
      rintro rfl
      exact hne (h.apart htarget hgone)
    · exact h.backed htarget
  apart htarget htarget' :=
    h.apart (Registry.get?_of_get?_erase htarget).2 (Registry.get?_of_get?_erase htarget').2
  full hx := by
    simp only [Outline.delete] at hx
    split at hx
    · exact h.full (Registry.get?_of_get?_erase hx).2
    · exact h.full hx

theorem delete (x : Handle)
    (hx : ∀ id, x = .texture id → ∀ target, o.targets.get? target ≠ some id) : (o.delete x).Orderly := by
  cases x with
  | program id => exact ⟨h.numbered.delete _, h.backed, h.apart, h.full⟩
  | offload id => exact ⟨h.numbered.delete _, h.backed, h.apart, h.full⟩
  | texture id => exact h.eraseTexture (hx id rfl)
  | target id => exact h.eraseTarget id

end Orderly
end Outline

/-! ### Programs -/

/-- Only an active uniform holds a value, and one that fits its type. -/
def Declared.Fitting (u : Declared) : Prop :=
  ∀ v, u.value = some v → u.active = true ∧ v.fits u.type = true

theorem fitting_of_scanFragment {fragment : String} {declared : List Declared}
    (h : scanFragment fragment = .ok declared) : ∀ u ∈ declared, u.Fitting := by
  intro u hu v hv
  rw [value_of_scanFragment h u hu] at hv
  cases hv

/-- A program that takes a value holds values that fit, if it did before. -/
theorem Program.fitting_store {p : Program} (h : ∀ u ∈ p.uniforms, u.Fitting) {a : Assignment}
    (ha : p.Takes a) : ∀ u ∈ (p.store a).uniforms, u.Fitting := by
  intro u hu
  obtain ⟨i, hi⟩ := List.mem_iff_getElem?.1 hu
  rw [store, List.getElem?_modify] at hi
  obtain ⟨u₀, hu₀, rfl⟩ := Option.map_eq_some_iff.1 hi
  by_cases hplace : a.location.number = i
  · obtain ⟨slot, hslot, hactive, hfits⟩ := ha
    rw [slots, List.getElem?_map, hplace, hu₀] at hslot
    cases hslot
    rw [if_pos hplace]
    rintro v ⟨⟩
    exact ⟨hactive, hfits⟩
  · rw [if_neg hplace]
    exact h u₀ (List.mem_of_getElem? hu₀)

namespace HeadlessBackend

/-! ### Backends -/

theorem forget_eq_some {α : Type} [DecidableEq α] {gone x : α} {held : Option α} :
    forget gone held = some x ↔ held = some x ∧ x ≠ gone := by
  unfold forget
  split
  · next h => simp [h, eq_comm]
  · next h =>
    refine ⟨fun hx => ⟨hx, ?_⟩, And.left⟩
    rintro rfl
    exact h hx

/-- What is selected is there, targets have their textures, textures are full,
and uniforms hold what fits them. -/
structure Coherent (b : HeadlessBackend) : Prop where
  bound : ∀ id, b.bound = some id → id ∈ b.targets.keys
  current : ∀ id, b.current = some id → id ∈ b.programs.keys
  backed : ∀ target texture, b.targets.get? target = some texture → texture ∈ b.textures.keys
  full : ∀ id t, b.textures.get? id = some t → t.data.length = t.width * t.height * t.channels
  stored : ∀ id p, b.programs.get? id = some p → ∀ u ∈ p.uniforms, u.Fitting

/-- What calls keep: with an orderly outline a backend stays coherent. -/
structure Settled (b : HeadlessBackend) : Prop where
  outline : b.outline.Orderly
  bound : ∀ id, b.bound = some id → id ∈ b.targets.keys
  current : ∀ id, b.current = some id → id ∈ b.programs.keys
  stored : ∀ id p, b.programs.get? id = some p → ∀ u ∈ p.uniforms, u.Fitting

theorem Settled.coherent {b : HeadlessBackend} (h : b.Settled) : b.Coherent where
  bound := h.bound
  current := h.current
  backed target texture htarget := by
    have hmem := h.outline.backed htarget
    rwa [HeadlessBackend.outline, Registry.keys_map] at hmem
  full id t ht := by
    have hextent : b.outline.textures.get? id = some t.extent := by
      rw [HeadlessBackend.outline, Registry.get?_map, ht]
      rfl
    exact h.outline.full hextent
  stored := h.stored

theorem settled_new (screen : Nat × Nat) (offloadEnabled : Bool) :
    ({ screen, offloadEnabled } : HeadlessBackend).Settled where
  outline := ⟨numbered_new screen, nofun, nofun, nofun⟩
  bound := nofun
  current := nofun
  stored := nofun

/-- Draws do not see the change to another backend, whose outline is in order. -/
theorem Settled.unseen {b c : HeadlessBackend} (h : b.Settled) (hc : Unseen b c)
    (houtline : c.outline.Orderly) : c.Settled where
  outline := houtline
  bound id hid := hc.targets ▸ h.bound id (hc.bound ▸ hid)
  current id hid := hc.programs ▸ h.current id (hc.current ▸ hid)
  stored id p hp := h.stored id p (hc.programs ▸ hp)

/-- From `b` on the backend is settled, and the numbers that were given are the
next ones. -/
structure Next (b : HeadlessBackend) (numbers : List Nat) (c : HeadlessBackend) : Prop where
  settled : c.Settled
  given : numbers = List.range' b.next numbers.length
  next : c.next = b.next + numbers.length

section Calls

variable {b c : HeadlessBackend} (hb : b.Settled)

/-- Work that gives no number. -/
theorem Settled.next (hc : c.Settled) (hnext : c.next = b.next) : Next b [] c := ⟨hc, rfl, hnext⟩

include hb

theorem Settled.withProgram {p : Program} (hp : ∀ u ∈ p.uniforms, u.Fitting) :
    (b.withProgram p).Settled where
  outline := outline_withProgram b p ▸ hb.outline.addProgram p.slots
  bound := hb.bound
  current id hid := Registry.mem_keys_put.2 (.inr (hb.current id hid))
  stored id q hq := by
    rcases Registry.get?_put_cases hq with ⟨-, rfl⟩ | ⟨-, hq⟩
    · exact hp
    · exact hb.stored id q hq

/-- A target has the number behind that of its texture. -/
theorem Settled.next_withTarget {t : Texture} (ht : t.extent.Full) :
    Next b (Answer.numbers (b.withTarget t) (.made (.target ⟨b.next + 1⟩))) (b.withTarget t) := by
  have hnumbers : Answer.numbers (b.withTarget t) (.made (.target ⟨b.next + 1⟩)) =
      [b.next, b.next + 1] := by
    simp [Answer.numbers, HeadlessBackend.withTarget]
  rw [hnumbers]
  exact ⟨⟨outline_withTarget b t ▸ hb.outline.addTarget ht,
    fun id hid => Registry.mem_keys_put.2 (.inr (hb.bound id hid)), hb.current, hb.stored⟩, rfl, rfl⟩

/-- A uniform of a program takes a value. -/
theorem Settled.store {id : ProgramId} {p : Program} (hp : b.programs.get? id = some p)
    {a : Assignment} (ha : p.Takes a) :
    { b with programs := b.programs.put id (p.store a) }.Settled where
  outline := by
    have hslots := Registry.map_put_self Program.slots hp (p.slots_store a)
    simp only [HeadlessBackend.outline, hslots]
    exact hb.outline
  bound := hb.bound
  current id hid := Registry.mem_keys_put.2 (.inr (hb.current id hid))
  stored id' q hq := by
    rcases Registry.get?_put_cases hq with ⟨-, rfl⟩ | ⟨-, hq⟩
    · exact Program.fitting_store (hb.stored id p hp) ha
    · exact hb.stored id' q hq

/-- What is deleted is no longer selected. -/
theorem Settled.delete (h : Handle)
    (hspared : ∀ id, h = .texture id → ∀ target, b.targets.get? target ≠ some id) :
    (h.delete b).Settled := by
  have houtline : (h.delete b).outline.Orderly :=
    outline_delete h b ▸ hb.outline.delete h hspared
  cases h with
  | program id =>
    refine ⟨houtline, hb.bound, fun x hx => ?_, fun x p hp => ?_⟩
    · obtain ⟨hx, hne⟩ := forget_eq_some.1 hx
      exact Registry.mem_keys_erase_of_ne hne (hb.current x hx)
    · exact hb.stored x p (Registry.get?_of_get?_erase hp).2
  | target id =>
    refine ⟨houtline, fun x hx => ?_, hb.current, hb.stored⟩
    obtain ⟨hx, hne⟩ := forget_eq_some.1 hx
    exact Registry.mem_keys_erase_of_ne hne (hb.bound x hx)
  | texture id => exact ⟨houtline, hb.bound, hb.current, hb.stored⟩
  | offload id => exact ⟨houtline, hb.bound, hb.current, hb.stored⟩

omit hb in
theorem next_delete (h : Handle) (b : HeadlessBackend) : (h.delete b).next = b.next := by
  cases h <;> rfl

/-- A call that draws do not see, and that leaves the outline. -/
theorem Settled.ends_drawing {a : Op Unit} {accepted : Prop} (ha : Decides b a accepted)
    (hunseen : Stays (Unseen b) a) :
    Ends (fun c => c = b) a (fun _ c => Next b [] c) fun _ c => Next b [] c := by
  have hnext : ∀ c, Redrawn b c → Unseen b c → Next b [] c := fun c hc hu =>
    (hb.unseen hu (hc.outline ▸ hb.outline)).next (congrArg Outline.next hc.outline)
  refine (ha.both hunseen).weaken ?_ (fun _ c hc => hnext c hc.1.1 hc.2)
    fun _ c hc => hnext c hc.1.1 hc.2
  rintro _ rfl
  exact ⟨rfl, .refl _⟩

/-- A call that adds to the outline what has the next number, and that draws do
not see. -/
theorem Settled.ends_making {ι : Type} (handle : ι → Handle) {a : Op ι} {o : Outline}
    (ho : o.Orderly) (hnext : o.next = b.next + 1)
    (ha : Ends (fun c => c = b) a (fun x c => (handle x).number = b.next ∧ c.outline = o)
      fun _ c => c = b)
    (hunseen : Stays (Unseen b) a) :
    Ends (fun c => c = b) a (fun x c => Next b [(handle x).number] c) fun _ c => Next b [] c := by
  refine (ha.both hunseen).weaken ?_ ?_ ?_
  · rintro _ rfl
    exact ⟨rfl, .refl _⟩
  · rintro x c ⟨⟨hx, rfl⟩, hu⟩
    rw [hx]
    exact ⟨hb.unseen hu ho, rfl, hnext⟩
  · rintro _ _ ⟨rfl, -⟩
    exact hb.next rfl

end Calls

/-! ### Runs -/

/-- A texture that draws go to is deleted with its target only. -/
def Spares (b : HeadlessBackend) (call : DeviceCall) : Prop :=
  ∀ id, call = .delete (.texture id) → ∀ target, b.targets.get? target ≠ some id

/-- **One call, whatever it is and however it ends**, leaves a backend settled
and gives the next numbers. -/
theorem ends_perform {b : HeadlessBackend} (hb : b.Settled) {call : DeviceCall}
    (hcall : b.Spares call) :
    Ends (fun c => c = b) call.perform (fun answer c => Next b (answer.numbers c) c)
      fun _ c => Next b [] c := by
  have hunseen : ∀ c d, Unseen c d → Unseen b c → Unseen b d := fun _ _ h h' => h'.trans h
  have hsame : ∀ c, c = b → Next b [] c := by
    rintro _ rfl
    exact hb.next rfl
  cases call with
  | compile label fragment =>
    refine Ends.returned ((ends_compile b label fragment).weaken (fun _ h => h) ?_
      fun _ c hc => hsame c hc.1)
    rintro _ _ ⟨rfl, uniforms, hscan, rfl⟩
    exact ⟨hb.withProgram (fitting_of_scanFragment hscan), rfl, rfl⟩
  -- a target takes two numbers, all else that is made takes one
  | createTarget width height =>
    refine Ends.returned ((ends_makeTarget b width height).weaken (fun _ h => h) ?_
      fun _ => hsame)
    rintro _ _ ⟨rfl, rfl⟩
    exact hb.next_withTarget (Extent.full_zeros ..)
  | createAudioTexture len =>
    refine Ends.returned (hb.ends_making .texture
      (hb.outline.addTexture (Extent.full_audio len)) rfl ?_ (stays_addAudioTexture hunseen len))
    refine (ends_addAudioTexture b len).weaken (fun _ h => h) ?_ fun _ _ h => h
    rintro _ _ ⟨rfl, hc⟩
    exact ⟨rfl, hc⟩
  | createColorTexture width height =>
    refine Ends.returned (hb.ends_making .texture
      (hb.outline.addTexture (Extent.full_zeros width height 4)) rfl ?_
      (stays_addTexture hunseen _))
    refine (ends_addTexture b _).weaken (fun _ h => h) ?_ fun _ _ h => h
    rintro _ _ ⟨rfl, rfl⟩
    exact ⟨rfl, outline_addTexture ..⟩
  | createOffload tail params =>
    refine Ends.returned (hb.ends_making .offload
      (hb.outline.addOffload (OffloadPasses.new tail params).shape) rfl ?_
      (stays_addOffload hunseen tail params))
    refine (ends_addOffload b tail params).weaken (fun _ h => h) ?_ fun _ _ h => h
    rintro _ _ ⟨rfl, hc⟩
    exact ⟨rfl, hc⟩
  | upload id data =>
    exact Ends.returned (hb.ends_drawing (decides_uploadAudio b id data)
      (stays_uploadAudio hunseen id data))
  | clear color =>
    exact Ends.returned (hb.ends_drawing (decides_clearTo b color) (stays_clearTo hunseen color))
  | runOffload id input output =>
    exact Ends.returned (hb.ends_drawing (decides_runTail b id input output)
      (stays_runTail hunseen id input output))
  | bindTarget target =>
    refine Ends.returned ((ends_selectTarget b target).weaken (fun _ h => h) ?_
      fun _ c hc => hsame c hc.1)
    rintro _ _ ⟨htarget, rfl⟩
    exact Settled.next ⟨hb.outline, htarget, hb.current, hb.stored⟩ rfl
  | useProgram program =>
    refine Ends.returned ((ends_selectProgram b program).weaken (fun _ h => h) ?_
      fun _ c hc => hsame c hc.1)
    rintro _ _ ⟨hprogram, rfl⟩
    exact Settled.next
      ⟨hb.outline, hb.bound, fun _ h => Option.some.inj h ▸ hprogram, hb.stored⟩ rfl
  | setUniform location value =>
    refine Ends.returned ((ends_storeUniform b location value).weaken (fun _ h => h) ?_
      fun _ => hsame)
    rintro _ _ ⟨id, p, -, hp, htakes, rfl⟩
    exact (hb.store hp htakes).next rfl
  | draw =>
    refine Ends.returned ((ends_recordDraw b).weaken (fun _ h => h) ?_ fun _ => hsame)
    rintro _ _ ⟨id, p, -, hp, rfl⟩
    exact Settled.next ⟨hb.outline, hb.bound, hb.current, hb.stored⟩ rfl
  | delete h =>
    refine Ends.returned (Ends.modify ?_)
    rintro _ rfl
    exact (hb.delete h fun id hid => hcall id (congrArg _ hid)).next (next_delete h _)
  | targetTexture target =>
    exact Ends.returned ((ends_textureOf b target).weaken (fun _ h => h)
      (fun _ c hc => hsame c hc.1) fun _ c hc => hsame c hc.1)
  | location program name => exact Ends.returned (Ends.get fun c hc => hsame c hc)
  | screenSize => exact Ends.returned (Ends.get fun c hc => hsame c hc)
  | supportsOffload => exact Ends.returned (Ends.get fun c hc => hsame c hc)

/-- The states that calls lead to from `b₀`, each call served or refused, with
all numbers that were given on the way. -/
inductive Reached (b₀ : HeadlessBackend) : List Nat → HeadlessBackend → Prop
  | start : Reached b₀ [] b₀
  | served {issued : List Nat} {b c : HeadlessBackend} (h : Reached b₀ issued b)
      (call : DeviceCall) (answer : Answer) (hcall : b.Spares call) (hgives : Gives call.perform b answer c) :
      Reached b₀ (issued ++ answer.numbers c) c
  | refused {issued : List Nat} {b c : HeadlessBackend} (h : Reached b₀ issued b)
      (call : DeviceCall) (e : BackendError) (hcall : b.Spares call) (hfails : Fails call.perform b e c) :
      Reached b₀ issued c

theorem Next.trans {b c d : HeadlessBackend} {ms ns : List Nat} (h : Next b ms c) (h' : Next c ns d) :
    Next b (ms ++ ns) d where
  settled := h'.settled
  given := by
    rw [List.length_append, ← List.range'_append_1, ← h.given, ← h.next, ← h'.given]
  next := by rw [h'.next, h.next, List.length_append, Nat.add_assoc]

/-- All numbers are given in their order. -/
theorem Reached.next {b₀ b : HeadlessBackend} {issued : List Nat} (h : Reached b₀ issued b)
    (hb₀ : b₀.Settled) : Next b₀ issued b := by
  induction h with
  | start => exact hb₀.next rfl
  | served _ call answer hcall hgives ih =>
    exact ih.trans ((ends_perform ih.settled hcall).gives rfl hgives)
  | refused _ call e hcall hfails ih =>
    have hnext := ih.trans ((ends_perform ih.settled hcall).fails rfl hfails)
    rwa [List.append_nil] at hnext

/-- A fragment that reads a number. -/
def countShader : String := "uniform int count;\nint twice = 2 * count;"

end HeadlessBackend
end AudioShader
