/-
# What a headless backend makes stays

A call that makes something adds to the outline under a number that is not in
use. So what a build has found there once it finds there later as well.

Key definitions: `Outline.Grows`, `Outline.slot?`.
Key theorems: `Outline.Grows.takes`, `HeadlessBackend.slot?_of_uniformLocation?`.
-/
import AudioShader.Proofs.Graphics.Live

namespace AudioShader

theorem Registry.get?_put_of_absent {κ β : Type} [DecidableEq κ] {r : Registry κ β} {k x : κ}
    {v w : β} (hk : k ∉ r.keys) (h : r.get? x = some w) : (r.put k v).get? x = some w := by
  have hx : x ≠ k := fun heq => hk (heq ▸ Registry.mem_keys_of_get? h)
  rw [Registry.get?_put_ne r v hx]
  exact h

namespace Outline

/-- What an outline has, another has as well. -/
structure Grows (o o' : Outline) : Prop where
  programs : ∀ {id slots}, o.programs.get? id = some slots → o'.programs.get? id = some slots
  textures : ∀ {id x}, o.textures.get? id = some x → o'.textures.get? id = some x
  targets : ∀ {id texture}, o.targets.get? id = some texture → o'.targets.get? id = some texture
  offloads : ∀ {id p}, o.offloads.get? id = some p → o'.offloads.get? id = some p

theorem Grows.refl (o : Outline) : o.Grows o := ⟨id, id, id, id⟩

theorem Grows.trans {o o' o'' : Outline} (h : o.Grows o') (h' : o'.Grows o'') : o.Grows o'' where
  programs hid := h'.programs (h.programs hid)
  textures hid := h'.textures (h.textures hid)
  targets hid := h'.targets (h.targets hid)
  offloads hid := h'.offloads (h.offloads hid)

theorem Numbered.grows_addProgram {o : Outline} (h : o.Numbered) (slots : List ProgramSlot) :
    o.Grows (o.addProgram slots) :=
  { Grows.refl o with programs := Registry.get?_put_of_absent h.program }

theorem Numbered.grows_addTexture {o : Outline} (h : o.Numbered) (x : Extent) :
    o.Grows (o.addTexture x) :=
  { Grows.refl o with textures := Registry.get?_put_of_absent h.texture }

theorem Numbered.grows_addTarget {o : Outline} (h : o.Numbered) (x : Extent) :
    o.Grows (o.addTarget x) :=
  { Grows.refl o with
    textures := Registry.get?_put_of_absent h.texture
    targets := Registry.get?_put_of_absent h.target }

theorem Numbered.grows_addOffload {o : Outline} (h : o.Numbered) (p : PassShape) :
    o.Grows (o.addOffload p) :=
  { Grows.refl o with offloads := Registry.get?_put_of_absent h.offload }

/-! ### What grows with an outline -/

/-- The uniform at a place in a program. -/
def slot? (o : Outline) (program : ProgramId) (location : UniformLocation) : Option ProgramSlot :=
  (o.programs.get? program).bind fun slots => slots[location.number]?

variable {o o' : Outline}

theorem holds_iff_slot? {program : ProgramId} {location : UniformLocation} {value : UniformValue} :
    o.Holds program location value ↔
      ∃ slot, o.slot? program location = some slot ∧ slot.active = true ∧
        value.fits slot.type = true := by
  simp only [Holds, slot?, Option.bind_eq_some_iff]
  constructor
  · rintro ⟨slots, slot, hslots, hslot, hfits⟩
    exact ⟨slot, ⟨slots, hslots, hslot⟩, hfits⟩
  · rintro ⟨slot, ⟨slots, hslots, hslot⟩, hfits⟩
    exact ⟨slots, slot, hslots, hslot, hfits⟩

namespace Grows

theorem slot? (h : o.Grows o') {program : ProgramId} {location : UniformLocation}
    {slot : ProgramSlot} (hslot : o.slot? program location = some slot) :
    o'.slot? program location = some slot := by
  obtain ⟨slots, hslots, hget⟩ := Option.bind_eq_some_iff.1 hslot
  exact Option.bind_eq_some_iff.2 ⟨slots, h.programs hslots, hget⟩

theorem takes (h : o.Grows o') {id : TextureId} {len : Nat} (ht : o.Takes id len) :
    o'.Takes id len := by
  obtain ⟨x, hx, hrest⟩ := ht
  exact ⟨x, h.textures hx, hrest⟩

theorem runs (h : o.Grows o') {id : OffloadId} {len : Nat} (hr : o.Runs id len) :
    o'.Runs id len := by
  obtain ⟨p, hp, hrest⟩ := hr
  exact ⟨p, h.offloads hp, hrest⟩

theorem mem_programs (h : o.Grows o') {id : ProgramId} (hid : id ∈ o.programs.keys) :
    id ∈ o'.programs.keys := by
  obtain ⟨slots, hslots⟩ := Registry.exists_get?_of_mem_keys hid
  exact Registry.mem_keys_of_get? (h.programs hslots)

theorem mem_textures (h : o.Grows o') {id : TextureId} (hid : id ∈ o.textures.keys) :
    id ∈ o'.textures.keys := by
  obtain ⟨x, hx⟩ := Registry.exists_get?_of_mem_keys hid
  exact Registry.mem_keys_of_get? (h.textures hx)

theorem mem_targets (h : o.Grows o') {id : TargetId} (hid : id ∈ o.targets.keys) :
    id ∈ o'.targets.keys := by
  obtain ⟨texture, htexture⟩ := Registry.exists_get?_of_mem_keys hid
  exact Registry.mem_keys_of_get? (h.targets htexture)

end Grows

/-! ### What is made -/

theorem takes_addTexture (o : Outline) (len : Nat) :
    (o.addTexture (.audio len)).Takes ⟨o.next⟩ len :=
  ⟨.audio len, Registry.get?_put_self .., rfl, rfl, rfl⟩

theorem runs_addOffload (o : Outline) (tail : Tail) {params : TransformParams Float32}
    (h : isBufferLength params.bufferLen = true) :
    (o.addOffload (OffloadPasses.new tail params).shape).Runs ⟨o.next⟩ params.bufferLen :=
  ⟨_, Registry.get?_put_self .., List.length_replicate, h, fun _ => AverageState.len_new ..⟩

end Outline

/-- The place of a uniform is the place of the active slot of its name. -/
theorem HeadlessBackend.slot?_of_uniformLocation? {b : HeadlessBackend} {program : ProgramId}
    {name : String} {location : UniformLocation}
    (h : b.uniformLocation? program name = some location) :
    ∃ slot, b.outline.slot? program location = some slot ∧ slot.active = true ∧
      slot.name = name := by
  obtain ⟨p, hp, h⟩ := Option.bind_eq_some_iff.1 h
  obtain ⟨index, hindex, h⟩ := Option.bind_eq_some_iff.1 h
  cases h
  obtain ⟨hlt, hmatch, -⟩ := List.findIdx?_eq_some_iff_getElem.1 hindex
  rw [Bool.and_eq_true, beq_iff_eq] at hmatch
  refine ⟨p.uniforms[index].slot, ?_, hmatch⟩
  rw [Outline.slot?, outline, Registry.get?_map, hp, Option.map_some, Option.bind_some,
    Program.slots, List.getElem?_map, List.getElem?_eq_getElem hlt]
  rfl

end AudioShader
