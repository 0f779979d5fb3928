/-
# Handles of a headless backend

A headless backend numbers its handles by a counter, so a new one is never in
use. What it holds beyond the handles it had before is what was made since and
is still to be deleted; a target comes and goes with its texture.

Key definitions: `Outline.Numbered`, `Outline.Held`, `HeadlessBackend.custody`.
Key theorems: `Outline.Held.live_eq`, `HeadlessBackend.givesFresh`.
-/
import AudioShader.Proofs.Graphics.Journal
import AudioShader.Proofs.Graphics.Outline

namespace AudioShader

open AudioShader.Action (Ends Stays)

/-- The number of a handle. -/
def Handle.number : Handle → Nat
  | .program id => id.number
  | .texture id => id.number
  | .target id => id.number
  | .offload id => id.number

/-! ### Outlines that change -/

namespace Outline

def addProgram (o : Outline) (slots : List ProgramSlot) : Outline :=
  { o with next := o.next + 1, programs := o.programs.put ⟨o.next⟩ slots }

def addTexture (o : Outline) (x : Extent) : Outline :=
  { o with next := o.next + 1, textures := o.textures.put ⟨o.next⟩ x }

/-- A target stands behind its texture. -/
def addTarget (o : Outline) (x : Extent) : Outline :=
  { o.addTexture x with
    next := o.next + 2
    targets := o.targets.put ⟨o.next + 1⟩ ⟨o.next⟩ }

def addOffload (o : Outline) (p : PassShape) : Outline :=
  { o with next := o.next + 1, offloads := o.offloads.put ⟨o.next⟩ p }

def delete (o : Outline) : Handle → Outline
  | .program id => { o with programs := o.programs.erase id }
  | .texture id => { o with textures := o.textures.erase id }
  | .target id =>
    { o with
      targets := o.targets.erase id
      textures := match o.targets.get? id with
        | some texture => o.textures.erase texture
        | none => o.textures }
  | .offload id => { o with offloads := o.offloads.erase id }

/-- All handles in use have numbers below the counter. -/
structure Numbered (o : Outline) : Prop where
  programs : ∀ id ∈ o.programs.keys, id.number < o.next
  textures : ∀ id ∈ o.textures.keys, id.number < o.next
  targets : ∀ id ∈ o.targets.keys, id.number < o.next
  offloads : ∀ id ∈ o.offloads.keys, id.number < o.next

end Outline

namespace HeadlessBackend

theorem outline_delete (h : Handle) (b : HeadlessBackend) :
    (h.delete b).outline = b.outline.delete h := by
  cases h with
  | target id =>
    simp only [Handle.delete, GraphicsBackend.deleteTarget, outline, Outline.delete]
    cases b.targets.get? id with
    | none => rfl
    | some texture => simp only [Registry.map_erase]
  | _ =>
    simp only [Handle.delete, GraphicsBackend.deleteProgram, GraphicsBackend.deleteTexture,
      GraphicsBackend.deleteOffload, outline, Outline.delete, Registry.map_erase]

/-! ### Calls that make something -/

theorem ends_allocate (b : HeadlessBackend) {E : BackendError → HeadlessBackend → Prop} :
    Ends (fun c => c = b) allocate (fun n c => c = { b with next := b.next + 1 } ∧ n = b.next) E := by
  rintro _ rfl log
  exact ⟨rfl, rfl⟩

theorem ends_addTexture (b : HeadlessBackend) (t : Texture)
    {E : BackendError → HeadlessBackend → Prop} :
    Ends (fun c => c = b) (addTexture t)
      (fun id c => c = { b with next := b.next + 1, textures := b.textures.put ⟨b.next⟩ t } ∧
        id = ⟨b.next⟩) E := by
  refine Ends.bind (ends_allocate b) fun n => Ends.assume ?_
  rintro rfl
  exact Ends.bind (R := fun _ c =>
    c = { b with next := b.next + 1, textures := b.textures.put ⟨b.next⟩ t })
    (Ends.modify fun _ h => by rw [h]) fun _ => Ends.pure fun _ h => ⟨h, rfl⟩

theorem outline_addTexture (b : HeadlessBackend) (t : Texture) :
    { b with next := b.next + 1, textures := b.textures.put ⟨b.next⟩ t }.outline =
      b.outline.addTexture t.extent := by
  simp only [outline, Outline.addTexture, Registry.map_put]

/-- The backend with a new program. -/
def withProgram (b : HeadlessBackend) (p : Program) : HeadlessBackend :=
  { b with next := b.next + 1, programs := b.programs.put ⟨b.next⟩ p }

theorem outline_withProgram (b : HeadlessBackend) (p : Program) :
    (b.withProgram p).outline = b.outline.addProgram p.slots := by
  simp only [withProgram, outline, Outline.addProgram, Registry.map_put]

/-- A fragment becomes a program if the scan accepts it, and is refused with the
log of the scan otherwise. -/
theorem ends_compile (b : HeadlessBackend) (label fragment : String) :
    Ends (fun c => c = b) (compileProgram label fragment)
      (fun id c => id = ⟨b.next⟩ ∧ ∃ uniforms, scanFragment fragment = .ok uniforms ∧
        c = b.withProgram ⟨label, fragment, uniforms⟩)
      fun e c => c = b ∧ ∃ log, e = .compile log ∧ scanFragment fragment = .error log := by
  unfold compileProgram
  split
  · next log hscan => exact Ends.throw fun _ h => ⟨h, log, rfl, hscan⟩
  · next uniforms hscan =>
    refine Ends.bind (ends_allocate b) fun n => Ends.assume ?_
    rintro rfl
    refine Ends.record_bind ?_
    refine Ends.bind (R := fun _ c => c = b.withProgram ⟨label, fragment, uniforms⟩)
      (Ends.modify ?_) fun _ => Ends.pure fun _ h => ⟨rfl, uniforms, hscan, h⟩
    rintro _ rfl
    rfl

/-- A program is made of a fragment that the scan accepts. -/
theorem ends_compileProgram (b : HeadlessBackend) (label fragment : String) :
    Ends (fun c => c = b) (compileProgram label fragment)
      (fun id c => id = ⟨b.next⟩ ∧ ∃ uniforms, scanFragment fragment = .ok uniforms ∧
        c.outline = b.outline.addProgram (uniforms.map Declared.slot))
      fun _ c => c = b := by
  refine (ends_compile b label fragment).weaken (fun _ h => h) ?_ fun _ _ h => h.1
  rintro id _ ⟨hid, uniforms, hscan, rfl⟩
  exact ⟨hid, uniforms, hscan, outline_withProgram ..⟩

/-- The backend with a new target, whose texture is as new. -/
def withTarget (b : HeadlessBackend) (t : Texture) : HeadlessBackend :=
  { b with
    next := b.next + 2
    textures := b.textures.put ⟨b.next⟩ t
    targets := b.targets.put ⟨b.next + 1⟩ ⟨b.next⟩ }

theorem outline_withTarget (b : HeadlessBackend) (t : Texture) :
    (b.withTarget t).outline = b.outline.addTarget t.extent := by
  simp only [withTarget, outline, Outline.addTarget, Outline.addTexture, Registry.map_put]

theorem ends_makeTarget (b : HeadlessBackend) (width height : Nat)
    {E : BackendError → HeadlessBackend → Prop} :
    Ends (fun c => c = b) (addTarget width height)
      (fun id c => id = ⟨b.next + 1⟩ ∧ c = b.withTarget (.zeros width height 4)) E := by
  refine Ends.bind (ends_addTexture b _) fun texture => Ends.assume ?_
  rintro rfl
  refine Ends.bind (ends_allocate _) fun n => Ends.assume ?_
  rintro rfl
  refine Ends.bind (R := fun _ c => c = b.withTarget (.zeros width height 4)) (Ends.modify ?_)
    fun _ => Ends.pure fun _ h => ⟨rfl, h⟩
  rintro _ rfl
  rfl

theorem ends_addTarget (b : HeadlessBackend) (width height : Nat)
    {E : BackendError → HeadlessBackend → Prop} :
    Ends (fun c => c = b) (addTarget width height)
      (fun id c => id = ⟨b.next + 1⟩ ∧
        c.outline = b.outline.addTarget (Texture.zeros width height 4).extent) E := by
  refine (ends_makeTarget b width height).weaken (fun _ h => h) ?_ fun _ _ h => h
  rintro id _ ⟨hid, rfl⟩
  exact ⟨hid, outline_withTarget ..⟩

theorem ends_textureOf (b : HeadlessBackend) (target : TargetId) :
    Ends (fun c => c = b) (textureOf target)
      (fun texture c => c = b ∧ b.targets.get? target = some texture)
      fun _ c => c = b ∧ b.targets.get? target = none := by
  refine Ends.get_bind ?_
  rintro b rfl
  refine ends_require ?_ ?_
  · rintro texture h _ rfl
    exact ⟨rfl, h⟩
  · rintro h e _ rfl
    exact ⟨rfl, h⟩

theorem extent_zeros_audio (len : Nat) : (Texture.zeros len 1 1).extent = .audio len := by
  simp [Texture.extent, Texture.zeros, Extent.audio]

theorem ends_addAudioTexture (b : HeadlessBackend) (len : Nat) :
    Ends (fun c => c = b) (addAudioTexture len)
      (fun id c => id = ⟨b.next⟩ ∧ c.outline = b.outline.addTexture (.audio len))
      fun _ c => c = b := by
  unfold addAudioTexture
  split
  · exact Ends.throw_bind fun _ h => h
  · refine (ends_addTexture b _).weaken (fun _ h => h) ?_ fun _ _ h => h
    rintro id _ ⟨rfl, rfl⟩
    exact ⟨rfl, by rw [outline_addTexture, extent_zeros_audio]⟩

theorem ends_addOffload (b : HeadlessBackend) (tail : Tail) (params : TransformParams Float32) :
    Ends (fun c => c = b) (addOffload tail params)
      (fun id c => id = ⟨b.next⟩ ∧ c.outline = b.outline.addOffload (OffloadPasses.new tail params).shape)
      fun _ c => c = b := by
  refine Ends.get_bind ?_
  rintro b rfl
  split
  · exact Ends.throw_bind fun _ h => h
  · refine Ends.bind (ends_allocate b) fun n => Ends.assume ?_
    rintro rfl
    refine Ends.bind (R := fun _ c =>
      c.outline = b.outline.addOffload (OffloadPasses.new tail params).shape) (Ends.modify ?_)
      fun _ => Ends.pure fun _ h => ⟨rfl, h⟩
    rintro _ rfl
    simp only [outline, Outline.addOffload, Registry.map_put]

end HeadlessBackend

/-! ### What is held -/

namespace Handle

def program? : Handle → Option ProgramId
  | .program id => some id
  | _ => none

def texture? : Handle → Option TextureId
  | .texture id => some id
  | _ => none

def target? : Handle → Option TargetId
  | .target id => some id
  | _ => none

def offload? : Handle → Option OffloadId
  | .offload id => some id
  | _ => none

end Handle

namespace Outline

/-- Beyond what there was, an outline has certain handles, and the textures of
the targets among them. -/
structure Held (o₀ : Outline) (hs : List Handle) (o : Outline) : Prop where
  numbered : o.Numbered
  programs : o.programs.keys.Perm (hs.filterMap Handle.program? ++ o₀.programs.keys)
  textures : o.textures.keys.Perm (hs.filterMap Handle.texture? ++
    ((hs.filterMap Handle.target?).filterMap o.targets.get? ++ o₀.textures.keys))
  targets : o.targets.keys.Perm (hs.filterMap Handle.target? ++ o₀.targets.keys)
  offloads : o.offloads.keys.Perm (hs.filterMap Handle.offload? ++ o₀.offloads.keys)

theorem Held.refl {o : Outline} (h : o.Numbered) : Held o [] o := ⟨h, .refl _, .refl _, .refl _, .refl _⟩

/-- With nothing more than there was, as much is in use. -/
theorem Held.live_eq {o₀ o : Outline} (h : Held o₀ [] o) : o.live = o₀.live := by
  simp only [live, Registry.size_eq_length_keys, h.programs.length_eq, h.textures.length_eq,
    h.targets.length_eq, h.offloads.length_eq]
  rfl

variable {o₀ o : Outline} {hs : List Handle}

theorem Held.perm {hs' : List Handle} (hperm : hs.Perm hs') (h : Held o₀ hs o) : Held o₀ hs' o where
  numbered := h.numbered
  programs := h.programs.trans ((hperm.filterMap _).append_right _)
  textures := h.textures.trans ((hperm.filterMap _).append
    (((hperm.filterMap _).filterMap _).append_right _))
  targets := h.targets.trans ((hperm.filterMap _).append_right _)
  offloads := h.offloads.trans ((hperm.filterMap _).append_right _)

/-! A new number is not in use. -/

theorem Numbered.program (h : o.Numbered) : (⟨o.next⟩ : ProgramId) ∉ o.programs.keys :=
  fun hmem => Nat.lt_irrefl _ (h.programs _ hmem)

theorem Numbered.texture (h : o.Numbered) : (⟨o.next⟩ : TextureId) ∉ o.textures.keys :=
  fun hmem => Nat.lt_irrefl _ (h.textures _ hmem)

theorem Numbered.target (h : o.Numbered) : (⟨o.next + 1⟩ : TargetId) ∉ o.targets.keys :=
  fun hmem => Nat.not_succ_lt_self (h.targets _ hmem)

theorem Numbered.offload (h : o.Numbered) : (⟨o.next⟩ : OffloadId) ∉ o.offloads.keys :=
  fun hmem => Nat.lt_irrefl _ (h.offloads _ hmem)

theorem Numbered.addProgram (h : o.Numbered) (slots : List ProgramSlot) :
    (o.addProgram slots).Numbered where
  programs id hid := by
    rcases Registry.mem_keys_put.1 hid with rfl | hid
    · exact Nat.lt_succ_self _
    · exact Nat.lt_succ_of_lt (h.programs id hid)
  textures id hid := Nat.lt_succ_of_lt (h.textures id hid)
  targets id hid := Nat.lt_succ_of_lt (h.targets id hid)
  offloads id hid := Nat.lt_succ_of_lt (h.offloads id hid)

theorem Numbered.addTexture (h : o.Numbered) (x : Extent) : (o.addTexture x).Numbered where
  programs id hid := Nat.lt_succ_of_lt (h.programs id hid)
  textures id hid := by
    rcases Registry.mem_keys_put.1 hid with rfl | hid
    · exact Nat.lt_succ_self _
    · exact Nat.lt_succ_of_lt (h.textures id hid)
  targets id hid := Nat.lt_succ_of_lt (h.targets id hid)
  offloads id hid := Nat.lt_succ_of_lt (h.offloads id hid)

theorem Numbered.addTarget (h : o.Numbered) (x : Extent) : (o.addTarget x).Numbered where
  programs id hid := Nat.lt_succ_of_lt ((h.addTexture x).programs id hid)
  textures id hid := Nat.lt_succ_of_lt ((h.addTexture x).textures id hid)
  targets id hid := by
    rcases Registry.mem_keys_put.1 hid with rfl | hid
    · exact Nat.lt_succ_self _
    · exact Nat.lt_succ_of_lt ((h.addTexture x).targets id hid)
  offloads id hid := Nat.lt_succ_of_lt ((h.addTexture x).offloads id hid)

theorem Numbered.addOffload (h : o.Numbered) (p : PassShape) : (o.addOffload p).Numbered where
  programs id hid := Nat.lt_succ_of_lt (h.programs id hid)
  textures id hid := Nat.lt_succ_of_lt (h.textures id hid)
  targets id hid := Nat.lt_succ_of_lt (h.targets id hid)
  offloads id hid := by
    rcases Registry.mem_keys_put.1 hid with rfl | hid
    · exact Nat.lt_succ_self _
    · exact Nat.lt_succ_of_lt (h.offloads id hid)

theorem Numbered.delete (h : o.Numbered) (x : Handle) : (o.delete x).Numbered := by
  have herase : ∀ texture, ∀ id ∈ (o.textures.erase texture).keys, id.number < o.next :=
    fun _ id hid => h.textures id (Registry.mem_of_mem_keys_erase hid)
  cases x with
  | program => exact { h with
      programs := fun id hid => h.programs id (Registry.mem_of_mem_keys_erase hid) }
  | texture => exact { h with textures := herase _ }
  | offload => exact { h with
      offloads := fun id hid => h.offloads id (Registry.mem_of_mem_keys_erase hid) }
  | target => exact { h with
      targets := fun id hid => h.targets id (Registry.mem_of_mem_keys_erase hid)
      textures := by
        unfold Outline.delete
        dsimp only
        split
        · exact herase _
        · exact h.textures }

/-! Each change makes or deletes exactly its handle. -/

theorem Held.addProgram (h : Held o₀ hs o) (slots : List ProgramSlot) :
    Held o₀ (.program ⟨o.next⟩ :: hs) (o.addProgram slots) :=
  { h with
    numbered := h.numbered.addProgram slots
    programs := Registry.keys_put_perm slots h.numbered.program h.programs }

theorem Held.addTexture (h : Held o₀ hs o) (x : Extent) :
    Held o₀ (.texture ⟨o.next⟩ :: hs) (o.addTexture x) :=
  { h with
    numbered := h.numbered.addTexture x
    textures := Registry.keys_put_perm x h.numbered.texture h.textures }

theorem Held.addOffload (h : Held o₀ hs o) (p : PassShape) :
    Held o₀ (.offload ⟨o.next⟩ :: hs) (o.addOffload p) :=
  { h with
    numbered := h.numbered.addOffload p
    offloads := Registry.keys_put_perm p h.numbered.offload h.offloads }

theorem Held.addTarget (h : Held o₀ hs o) (x : Extent) :
    Held o₀ (.target ⟨o.next + 1⟩ :: hs) (o.addTarget x) := by
  have hget : ∀ id ∈ hs.filterMap Handle.target?,
      (o.addTarget x).targets.get? id = o.targets.get? id := by
    intro id hid
    refine Registry.get?_put_ne _ _ fun heq => h.numbered.target ?_
    rw [← heq]
    exact h.targets.mem_iff.2 (List.mem_append_left _ hid)
  refine { h with
    numbered := h.numbered.addTarget x
    targets := Registry.keys_put_perm _ h.numbered.target h.targets
    textures := (Registry.keys_put_perm x h.numbered.texture h.textures).trans ?_ }
  have hself : (o.addTarget x).targets.get? ⟨o.next + 1⟩ = some ⟨o.next⟩ := Registry.get?_put_self ..
  simp only [List.filterMap_cons, Handle.texture?, Handle.target?, hself, List.filterMap_congr hget]
  exact List.perm_middle.symm

theorem Held.delete {h : Handle} (hh : Held o₀ (h :: hs) o) : Held o₀ hs (o.delete h) := by
  cases h with
  | program => exact { hh with
      numbered := hh.numbered.delete _, programs := Registry.keys_erase_perm hh.programs }
  | texture => exact { hh with
      numbered := hh.numbered.delete _, textures := Registry.keys_erase_perm hh.textures }
  | offload => exact { hh with
      numbered := hh.numbered.delete _, offloads := Registry.keys_erase_perm hh.offloads }
  | target id =>
    have hkeys : o.targets.keys.Perm (id :: (hs.filterMap Handle.target? ++ o₀.targets.keys)) :=
      hh.targets
    obtain ⟨texture, htexture⟩ :=
      Registry.exists_get?_of_mem_keys (hkeys.mem_iff.2 (List.mem_cons_self ..))
    -- the textures of the other targets are found as before
    have hid : id ∉ hs.filterMap Handle.target? := fun hmem =>
      (List.nodup_cons.1 (hkeys.nodup_iff.1 o.targets.nodup_keys)).1 (List.mem_append_left _ hmem)
    have hget : ∀ x ∈ hs.filterMap Handle.target?,
        (o.targets.erase id).get? x = o.targets.get? x :=
      fun x hx => Registry.get?_erase_ne _ fun heq => hid (heq ▸ hx)
    have htextures := hh.textures
    simp only [List.filterMap_cons, Handle.texture?, Handle.target?, htexture,
      ← List.filterMap_congr hget] at htextures
    refine { hh with
      numbered := hh.numbered.delete _
      targets := Registry.keys_erase_perm hkeys
      textures := ?_ }
    simp only [Outline.delete, htexture]
    exact Registry.keys_erase_perm (htextures.trans List.perm_middle)

end Outline

/-! ### The account of a headless backend -/

namespace HeadlessBackend

theorem numbered_new (screen : Nat × Nat) : ({ screen } : HeadlessBackend).outline.Numbered where
  programs _ h := nomatch h
  textures _ h := nomatch h
  targets _ h := nomatch h
  offloads _ h := nomatch h

/-- What a backend holds beyond what was there is to be deleted. -/
def Holds (o₀ : Outline) (hs : List Handle) (b : HeadlessBackend) : Prop := Outline.Held o₀ hs b.outline

variable {o₀ : Outline}

theorem holds_redrawn {hs : List Handle} {b c : HeadlessBackend} (h : Redrawn b c)
    (hb : Holds o₀ hs b) : Holds o₀ hs c := by
  rw [Holds, h.outline]
  exact hb

theorem stays_of_decides {α : Type} {hs : List Handle} {a : Op α} {accepted : HeadlessBackend → Prop}
    (h : ∀ b, Decides b a (accepted b)) : Stays (Holds o₀ hs) a :=
  Ends.of_forall fun b hb => (h b).weaken (fun _ h => h) (fun _ _ h => holds_redrawn h.1 hb)
    fun _ _ h => holds_redrawn h.1 hb

theorem keptByDrawing_holds (o₀ : Outline) (hs : List Handle) : KeptByDrawing (Holds o₀ hs) where
  upload id data := stays_of_decides fun b => decides_uploadAudio b id data
  bindTarget target := Ends.of_forall fun b hb => (ends_selectTarget b target).weaken (fun _ h => h)
    (by rintro _ _ ⟨-, rfl⟩; exact hb) (by rintro _ _ ⟨rfl, -⟩; exact hb)
  clear color := stays_of_decides fun b => decides_clearTo b color
  useProgram program := Ends.of_forall fun b hb => (ends_selectProgram b program).weaken
    (fun _ h => h) (by rintro _ _ ⟨-, rfl⟩; exact hb) (by rintro _ _ ⟨rfl, -⟩; exact hb)
  setUniform location value := stays_of_decides fun b => decides_storeUniform b location value
  draw := stays_of_decides decides_recordDraw
  runOffload id input output := stays_of_decides fun b => decides_runTail b id input output

/-- A call that adds to the outline what its handle stands for makes it. -/
theorem makes_of_ends {ι : Type} {handle : ι → Handle} {a : Op ι}
    (h : ∀ b hs, Holds o₀ hs b → Ends (fun c => c = b) a (fun x c => Holds o₀ (handle x :: hs) c)
      fun _ c => c = b) : Makes (Holds o₀) handle a :=
  fun hs => Ends.of_forall fun b hb => (h b hs hb).weaken (fun _ h => h) (fun _ _ h => h)
    fun _ _ h => h ▸ hb

/-- The account of a headless backend: what is there beyond an outline. -/
def custody (o₀ : Outline) : Custody HeadlessBackend where
  making := Holds o₀
  holding := Holds o₀
  making_perm hperm h := h.perm hperm
  holding_of_making h := h
  compile label fragment := makes_of_ends fun b hs hb =>
    (ends_compileProgram b label fragment).weaken (fun _ h => h)
      (by rintro _ c ⟨rfl, uniforms, -, hc⟩; rw [Holds, hc]; exact hb.addProgram _) fun _ _ h => h
  createTarget width height := makes_of_ends fun b hs hb =>
    (ends_addTarget b width height).weaken (fun _ h => h)
      (by rintro _ c ⟨rfl, hc⟩; rw [Holds, hc]; exact hb.addTarget _) fun _ _ h => h
  createAudioTexture len := makes_of_ends fun b hs hb =>
    (ends_addAudioTexture b len).weaken (fun _ h => h)
      (by rintro _ c ⟨rfl, hc⟩; rw [Holds, hc]; exact hb.addTexture _) fun _ _ h => h
  createColorTexture width height := makes_of_ends fun b hs hb =>
    (ends_addTexture b _).weaken (fun _ h => h)
      (by rintro _ c ⟨rfl, rfl⟩; rw [Holds, outline_addTexture]; exact hb.addTexture _)
      fun _ _ h => h
  createOffload tail params := makes_of_ends fun b hs hb =>
    (ends_addOffload b tail params).weaken (fun _ h => h)
      (by rintro _ c ⟨rfl, hc⟩; rw [Holds, hc]; exact hb.addOffload _) fun _ _ h => h
  targetTexture target hs := Ends.of_forall fun b hb => (ends_textureOf b target).weaken
    (fun _ h => h) (by rintro _ _ ⟨rfl, -⟩; exact hb) (by rintro _ _ ⟨rfl, -⟩; exact hb)
  drawing := keptByDrawing_holds o₀
  delete {h _ b} hh := by
    rw [Holds, outline_delete h b]
    exact hh.delete

/-! ### Numbers are not given twice -/

/-- Whether the number of a handle was given already. -/
def Given (h : Handle) (b : HeadlessBackend) : Prop := h.number < b.next

theorem fresh_of_ends {ι : Type} {handle : ι → Handle} {a : Op ι}
    (h : ∀ b, Ends (fun c => c = b) a
      (fun x c => b.next ≤ (handle x).number ∧ (handle x).number < c.next) fun _ c => c = b) :
    Fresh Given handle a :=
  fun b => (h b).weaken (fun _ h => h)
    (fun _ _ h => ⟨Nat.not_lt.2 h.1, h.2, fun _ hx => hx.trans_le (h.1.trans h.2.le)⟩)
    (by rintro _ _ rfl _ hx; exact hx)

theorem givesFresh : GivesFresh HeadlessBackend Given where
  compile label fragment := fresh_of_ends fun b =>
    (ends_compileProgram b label fragment).weaken (fun _ h => h)
      (by
        rintro _ c ⟨rfl, uniforms, -, hc⟩
        exact ⟨Nat.le_refl _, Nat.lt_of_lt_of_eq (Nat.lt_succ_self _) (congrArg Outline.next hc).symm⟩)
      fun _ _ h => h
  createTarget width height := fresh_of_ends fun b =>
    (ends_addTarget b width height).weaken (fun _ h => h)
      (by
        rintro _ c ⟨rfl, hc⟩
        exact ⟨Nat.le_succ _, Nat.lt_of_lt_of_eq (Nat.lt_succ_self _) (congrArg Outline.next hc).symm⟩)
      fun _ _ h => h
  createAudioTexture len := fresh_of_ends fun b =>
    (ends_addAudioTexture b len).weaken (fun _ h => h)
      (by
        rintro _ c ⟨rfl, hc⟩
        exact ⟨Nat.le_refl _, Nat.lt_of_lt_of_eq (Nat.lt_succ_self _) (congrArg Outline.next hc).symm⟩)
      fun _ _ h => h
  createColorTexture width height := fresh_of_ends fun b =>
    (ends_addTexture b _).weaken (fun _ h => h)
      (by rintro _ _ ⟨rfl, rfl⟩; exact ⟨Nat.le_refl _, Nat.lt_succ_self _⟩) fun _ _ h => h
  createOffload tail params := fresh_of_ends fun b =>
    (ends_addOffload b tail params).weaken (fun _ h => h)
      (by
        rintro _ c ⟨rfl, hc⟩
        exact ⟨Nat.le_refl _, Nat.lt_of_lt_of_eq (Nat.lt_succ_self _) (congrArg Outline.next hc).symm⟩)
      fun _ _ h => h
  targetTexture target b := (ends_textureOf b target).weaken (fun _ h => h)
    (by rintro _ _ ⟨rfl, -⟩ _ hx; exact hx) (by rintro _ _ ⟨rfl, -⟩ _ hx; exact hx)

end HeadlessBackend
end AudioShader
