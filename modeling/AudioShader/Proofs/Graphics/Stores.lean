/-
# What draws see

A draw records what the uniforms of the program in use hold: for each the last
value that was given to it. Of the calls that a tick makes between two draws
only the one that stores a value changes any of this, and it changes one uniform
of the program in use; audio and colors go into textures.

Key definitions: `Assignment`, `Program.store`, `Program.fill`, `Program.record`,
`Program.place?`, `HeadlessBackend.Unseen`, `HeadlessBackend.Refilled`.
Key theorems: `Program.getElem?_fill`, `Program.uniform?_record`,
`HeadlessBackend.ends_storeUniform`, `HeadlessBackend.ends_recordDraw`.
-/
import AudioShader.Proofs.Graphics.Outline

namespace AudioShader

open AudioShader.Action (Ends Stays)

/-- A value for the uniform at a place of a program. -/
@[ext]
structure Assignment where
  location : UniformLocation
  value : UniformValue

/-- The last value that is given to a place. -/
def lastAt (l : UniformLocation) : List Assignment → Option UniformValue
  | [] => none
  | a :: as => (lastAt l as).or (if a.location = l then some a.value else none)

section LastAt

variable {l : UniformLocation} {v : UniformValue}

theorem lastAt_append (l : UniformLocation) : ∀ as bs : List Assignment,
    lastAt l (as ++ bs) = (lastAt l bs).or (lastAt l as)
  | [], bs => by simp [lastAt]
  | a :: as, bs => by rw [List.cons_append, lastAt, lastAt_append l as, lastAt, Option.or_assoc]

theorem mem_of_lastAt : ∀ {as : List Assignment}, lastAt l as = some v → ⟨l, v⟩ ∈ as
  | a :: as, h => by
    rw [lastAt, Option.or_eq_some_iff] at h
    rcases h with h | ⟨-, h⟩
    · exact List.mem_cons_of_mem a (mem_of_lastAt h)
    · split at h
      · next ha =>
        subst ha
        cases h
        exact List.mem_cons_self ..
      · cases h

/-- A place to which one value is given, and no other. -/
theorem lastAt_eq_some {as : List Assignment} (hmem : ⟨l, v⟩ ∈ as)
    (hall : ∀ a ∈ as, a.location = l → a.value = v) : lastAt l as = some v := by
  cases hlast : lastAt l as with
  | some w =>
    have hw : w = v := hall ⟨l, w⟩ (mem_of_lastAt hlast) rfl
    rw [hw]
  | none =>
    exfalso
    induction as with
    | nil => cases hmem
    | cons a as ih =>
      rw [lastAt, Option.or_eq_none_iff] at hlast
      rcases List.mem_cons.1 hmem with rfl | hmem
      · simp at hlast
      · exact ih hmem (fun b hb => hall b (List.mem_cons_of_mem a hb)) hlast.1

end LastAt

/-! ### Programs -/

/-- The uniforms of a fragment that was scanned hold nothing yet. -/
theorem value_of_scanFragment {fragment : String} {declared : List Declared}
    (h : scanFragment fragment = .ok declared) : ∀ u ∈ declared, u.value = none := by
  unfold scanFragment at h
  dsimp only at h
  split at h
  · cases h
    intro u hu
    obtain ⟨x, -, rfl⟩ := List.mem_map.1 hu
    rfl
  · cases h

namespace Program

/-- The program with a value given to a uniform. -/
def store (p : Program) (a : Assignment) : Program :=
  { p with uniforms := p.uniforms.modify a.location.number fun u => { u with value := some a.value } }

/-- The program with values given to its uniforms, one after the other. -/
def fill (p : Program) (as : List Assignment) : Program := as.foldl store p

/-- Whether a program takes a value for one of its uniforms. -/
def Takes (p : Program) (a : Assignment) : Prop :=
  ∃ slot, p.slots[a.location.number]? = some slot ∧ slot.active = true ∧
    a.value.fits slot.type = true

/-- What a draw with the program records. -/
def record (p : Program) (id : ProgramId) (target : Option TargetId) : DrawRecord where
  program := id
  label := p.label
  target
  uniforms := p.uniforms.filterMap fun u => u.value.map fun v => (u.name, v)

@[simp] theorem fill_nil (p : Program) : p.fill [] = p := rfl

theorem fill_append (p : Program) (as bs : List Assignment) : p.fill (as ++ bs) = (p.fill as).fill bs :=
  List.foldl_append

theorem fill_concat (p : Program) (as : List Assignment) (a : Assignment) :
    p.fill (as ++ [a]) = (p.fill as).store a := p.fill_append as [a]

@[simp] theorem label_store (p : Program) (a : Assignment) : (p.store a).label = p.label := rfl

@[simp] theorem label_fill (p : Program) (as : List Assignment) : (p.fill as).label = p.label := by
  induction as generalizing p with
  | nil => rfl
  | cons a as ih => exact ih (p.store a)

/-- A uniform keeps its name, type and use when it gets a value. -/
@[simp] theorem slots_store (p : Program) (a : Assignment) : (p.store a).slots = p.slots := by
  refine List.ext_getElem? fun i => ?_
  simp only [slots, store, List.getElem?_map, List.getElem?_modify]
  cases p.uniforms[i]? with
  | none => rfl
  | some u => by_cases hi : a.location.number = i <;> simp [hi, Declared.slot]

@[simp] theorem slots_fill (p : Program) (as : List Assignment) : (p.fill as).slots = p.slots := by
  induction as generalizing p with
  | nil => rfl
  | cons a as ih => exact (ih (p.store a)).trans (p.slots_store a)

theorem takes_fill {p : Program} {as : List Assignment} {a : Assignment} :
    (p.fill as).Takes a ↔ p.Takes a := by
  rw [Takes, Takes, slots_fill]

/-- **Uniforms hold the last value that they were given.** -/
theorem getElem?_fill (p : Program) (as : List Assignment) (l : UniformLocation) :
    (p.fill as).uniforms[l.number]? =
      (p.uniforms[l.number]?).map fun u => { u with value := (lastAt l as).or u.value } := by
  induction as generalizing p with
  | nil => simp [lastAt]
  | cons a as ih =>
    have hstep := ih (p.store a)
    rw [store, List.getElem?_modify] at hstep
    refine hstep.trans ?_
    rw [lastAt]
    cases p.uniforms[l.number]? with
    | none => rfl
    | some u =>
      by_cases hl : a.location = l
      · simp [hl]
      · have hn : a.location.number ≠ l.number := fun heq => hl (congrArg UniformLocation.mk heq)
        simp [hl, hn]

/-! ### Places -/

/-- Where an active uniform stands in a program. -/
def place? (p : Program) (name : String) : Option UniformLocation :=
  (p.slots.findIdx? fun slot => slot.active && slot.name == name).map UniformLocation.mk

theorem slot_of_place? {p : Program} {name : String} {l : UniformLocation}
    (h : p.place? name = some l) :
    ∃ slot, p.slots[l.number]? = some slot ∧ slot.active = true ∧ slot.name = name := by
  obtain ⟨index, hindex, rfl⟩ := Option.map_eq_some_iff.1 h
  obtain ⟨hlt, hmatch, -⟩ := List.findIdx?_eq_some_iff_getElem.1 hindex
  rw [Bool.and_eq_true, beq_iff_eq] at hmatch
  exact ⟨_, List.getElem?_eq_getElem hlt, hmatch⟩

/-- Different names have different places. -/
theorem place?_inj {p : Program} {name name' : String} {l : UniformLocation}
    (h : p.place? name = some l) (h' : p.place? name' = some l) : name = name' := by
  obtain ⟨slot, hslot, -, rfl⟩ := slot_of_place? h
  obtain ⟨slot', hslot', -, rfl⟩ := slot_of_place? h'
  rw [Option.some.inj (hslot.symm.trans hslot')]

@[simp] theorem place?_fill (p : Program) (as : List Assignment) (name : String) :
    (p.fill as).place? name = p.place? name := by
  rw [place?, slots_fill, place?]

/-! ### Records -/

/-- Names that are declared once are found with what they hold. -/
theorem lookup_of_mem : ∀ {us : List Declared}, (us.map (·.name)).Nodup → ∀ {u : Declared}, u ∈ us →
    ∀ {v : UniformValue}, u.value = some v →
    (us.filterMap fun u => u.value.map fun v => (u.name, v)).lookup u.name = some v
  | x :: xs, hnodup, u, hu, v, hv => by
    rw [List.map_cons, List.nodup_cons] at hnodup
    rcases List.mem_cons.1 hu with rfl | hu
    · rw [List.filterMap_cons, hv, Option.map_some, List.lookup_cons_self]
    · have hne : u.name ≠ x.name := fun heq => hnodup.1 (heq ▸ List.mem_map_of_mem hu)
      have hrest := lookup_of_mem hnodup.2 hu hv
      rw [List.filterMap_cons]
      cases x.value with
      | none => exact hrest
      | some w =>
        rw [Option.map_some, List.lookup_cons, beq_eq_false_iff_ne.2 hne]
        exact hrest

theorem uniform?_record {p : Program} (hnodup : (p.slots.map (·.name)).Nodup) {l : UniformLocation}
    {u : Declared} (hu : p.uniforms[l.number]? = some u) {v : UniformValue} (hv : u.value = some v)
    (id : ProgramId) (target : Option TargetId) : (p.record id target).uniform? u.name = some v := by
  rw [slots, List.map_map] at hnodup
  exact lookup_of_mem hnodup (List.mem_of_getElem? hu) hv

/-- What a filled program is drawn with. -/
theorem uniform?_record_fill {p : Program} (hnodup : (p.slots.map (·.name)).Nodup)
    {l : UniformLocation} {slot : ProgramSlot} (hslot : p.slots[l.number]? = some slot)
    {as : List Assignment} {v : UniformValue} (hv : lastAt l as = some v) (id : ProgramId)
    (target : Option TargetId) : ((p.fill as).record id target).uniform? slot.name = some v := by
  rw [slots, List.getElem?_map] at hslot
  obtain ⟨u, hu, rfl⟩ := Option.map_eq_some_iff.1 hslot
  have hfill := p.getElem?_fill as l
  rw [hu, Option.map_some, hv, Option.some_or] at hfill
  exact uniform?_record ((slots_fill p as).symm ▸ hnodup) hfill rfl id target

/-- The textures that a draw reads from are held by its program. -/
theorem mem_sampled_record {p : Program} {id : ProgramId} {target : Option TargetId}
    {texture : TextureId} (h : texture ∈ (p.record id target).sampled) :
    ∃ u ∈ p.uniforms, u.value = some (.texture texture) := by
  obtain ⟨⟨name, v⟩, hmem, htexture⟩ := List.mem_filterMap.1 h
  obtain ⟨u, hu, hvalue⟩ := List.mem_filterMap.1 hmem
  obtain ⟨w, hw, heq⟩ := Option.map_eq_some_iff.1 hvalue
  cases heq
  cases v with
  | texture id =>
    cases htexture
    exact ⟨u, hu, hw⟩
  | _ => cases htexture

end Program

/-! ### Calls -/

namespace HeadlessBackend

/-- Draws do not see the change from one backend to another: at most textures,
tails and the color of the screen differ. -/
structure Unseen (b c : HeadlessBackend) : Prop where
  programs : c.programs = b.programs
  targets : c.targets = b.targets
  bound : c.bound = b.bound
  current : c.current = b.current
  draws : c.draws = b.draws

theorem Unseen.refl (b : HeadlessBackend) : Unseen b b := ⟨rfl, rfl, rfl, rfl, rfl⟩

theorem Unseen.trans {b c d : HeadlessBackend} (h : Unseen b c) (h' : Unseen c d) : Unseen b d :=
  ⟨h'.programs.trans h.programs, h'.targets.trans h.targets, h'.bound.trans h.bound,
    h'.current.trans h.current, h'.draws.trans h.draws⟩

section Unseen

variable {I : HeadlessBackend → Prop} (hI : ∀ b c, Unseen b c → I b → I c)

theorem stays_require {α : Type} (kind : HandleKind) (number : Nat) (held : Option α) :
    Stays I (require kind number held) := by
  cases held with
  | none => exact Stays.throw _
  | some a => exact Stays.pure a

theorem stays_textureOf (target : TargetId) : Stays I (textureOf target) :=
  Stays.bind Stays.get fun _ => stays_require ..

include hI

theorem stays_uploadAudio (id : TextureId) (data : List Float32) : Stays I (uploadAudio id data) := by
  refine Stays.bind Stays.get fun b => Stays.bind (stays_require ..) fun t => ?_
  split
  · exact Stays.bind (Stays.throw _) fun _ => Stays.modify fun c hc => hI c _ ⟨rfl, rfl, rfl, rfl, rfl⟩ hc
  · exact Stays.modify fun c hc => hI c _ ⟨rfl, rfl, rfl, rfl, rfl⟩ hc

theorem stays_clearTo (color : Color) : Stays I (clearTo color) := by
  refine Stays.bind Stays.get fun b => ?_
  cases b.bound with
  | none => exact Stays.modify fun c hc => hI c _ ⟨rfl, rfl, rfl, rfl, rfl⟩ hc
  | some target =>
    refine Stays.bind (stays_textureOf target) fun id => Stays.bind Stays.get fun c => ?_
    cases c.textures.get? id with
    | none => exact Stays.pure _
    | some t => exact Stays.modify fun c hc => hI c _ ⟨rfl, rfl, rfl, rfl, rfl⟩ hc

theorem stays_runTail (id : OffloadId) (input : List Float32) (output : TextureId) :
    Stays I (runTail id input output) := by
  refine Stays.bind Stays.get fun b => Stays.bind (stays_require ..) fun passes => ?_
  cases passes.run input with
  | error e => exact Stays.throw _
  | ok ran =>
    exact Stays.bind (Stays.record _) fun _ =>
      Stays.bind (Stays.modify fun c hc => hI c _ ⟨rfl, rfl, rfl, rfl, rfl⟩ hc) fun _ =>
        stays_uploadAudio hI output ran.2

theorem stays_allocate : Stays I allocate :=
  Ends.get_bind fun b hb => Ends.bind (R := fun _ => I)
    (Ends.set fun _ _ => hI b _ ⟨rfl, rfl, rfl, rfl, rfl⟩ hb) fun _ => Stays.pure _

theorem stays_addTexture (t : Texture) : Stays I (addTexture t) :=
  Stays.bind (stays_allocate hI) fun _ =>
    Stays.bind (Stays.modify fun c hc => hI c _ ⟨rfl, rfl, rfl, rfl, rfl⟩ hc) fun _ => Stays.pure _

theorem stays_addAudioTexture (len : Nat) : Stays I (addAudioTexture len) := by
  unfold addAudioTexture
  split
  · exact Stays.bind (Stays.throw _) fun _ => stays_addTexture hI _
  · exact stays_addTexture hI _

theorem stays_addOffload (tail : Tail) (params : TransformParams Float32) :
    Stays I (addOffload tail params) := by
  have hrest : Stays I (do
      let id : OffloadId := ⟨← allocate⟩
      modify fun b => { b with offloads := b.offloads.put id (.new tail params) }
      return id : Op OffloadId) :=
    Stays.bind (stays_allocate hI) fun _ =>
      Stays.bind (Stays.modify fun c hc => hI c _ ⟨rfl, rfl, rfl, rfl, rfl⟩ hc) fun _ => Stays.pure _
  refine Stays.bind Stays.get fun b => ?_
  split
  · exact Stays.bind (Stays.throw _) fun _ => hrest
  · exact hrest

end Unseen

theorem uniformLocation?_eq {b : HeadlessBackend} {id : ProgramId} {p : Program}
    (h : b.programs.get? id = some p) (name : String) : b.uniformLocation? id name = p.place? name := by
  rw [uniformLocation?, h, Program.place?, Program.slots, List.findIdx?_map, Option.map_eq_bind]
  rfl

/-- Values were given to the uniforms of a program, and no other program and no
target has changed. -/
structure Refilled (program : ProgramId) (as : List Assignment) (b c : HeadlessBackend) : Prop where
  programs : ∀ id, c.programs.get? id =
    if id = program then (b.programs.get? id).map (·.fill as) else b.programs.get? id
  targets : c.targets = b.targets

namespace Refilled

variable {program : ProgramId} {as : List Assignment} {b c d : HeadlessBackend}

theorem of_eq (hprograms : c.programs = b.programs) (htargets : c.targets = b.targets) :
    Refilled program [] b c := by
  refine ⟨fun id => ?_, htargets⟩
  rw [hprograms]
  split
  · cases b.programs.get? id <;> rfl
  · rfl

theorem congr (h : Refilled program as b c) (hprograms : d.programs = c.programs)
    (htargets : d.targets = c.targets) : Refilled program as b d :=
  ⟨fun id => hprograms ▸ h.programs id, htargets.trans h.targets⟩

theorem get?_self (h : Refilled program as b c) {p : Program}
    (hp : b.programs.get? program = some p) : c.programs.get? program = some (p.fill as) := by
  rw [h.programs, if_pos rfl, hp, Option.map_some]

theorem get?_ne (h : Refilled program as b c) {id : ProgramId} (hid : id ≠ program) :
    c.programs.get? id = b.programs.get? id := by
  rw [h.programs, if_neg hid]

/-- One more value is given. -/
theorem store (h : Refilled program as b c) {p : Program} (hp : c.programs.get? program = some p)
    (a : Assignment) :
    Refilled program (as ++ [a]) b { c with programs := c.programs.put program (p.store a) } := by
  refine ⟨fun id => ?_, h.targets⟩
  rw [Registry.get?_put]
  by_cases hid : id = program
  · have hfilled := h.programs program
    rw [if_pos rfl, hp] at hfilled
    obtain ⟨q, hq, rfl⟩ := Option.map_eq_some_iff.1 hfilled.symm
    rw [if_pos hid, if_pos hid, hid, hq, Option.map_some, Program.fill_concat]
  · rw [if_neg hid, if_neg hid, h.get?_ne hid]

end Refilled

/-- Behind the look for a texture, a uniform of the program in use gets a value
that it takes. -/
theorem ends_storeCurrent (b : HeadlessBackend) (location : UniformLocation) (value : UniformValue) :
    Ends (fun c => c = b)
      (do
        let (id, program) ← currentProgram
        let u ← require .uniform location.number
          ((program.uniforms[location.number]?).filter fun u => u.active)
        if !value.fits u.type then throw (.uniformType location value)
        let uniforms := program.uniforms.set location.number { u with value := some value }
        modify fun b => { b with programs := b.programs.put id { program with uniforms } } :
          Op Unit)
      (fun _ c => ∃ id p, b.current = some id ∧ b.programs.get? id = some p ∧
        p.Takes ⟨location, value⟩ ∧
        c = { b with programs := b.programs.put id (p.store ⟨location, value⟩) })
      fun _ c => c = b := by
  refine Ends.bind ((ends_currentProgram b).weaken (fun _ h => h) (fun _ _ h => h)
    fun _ _ h => h.1) fun current => Ends.assume fun hp => ?_
  obtain ⟨id, p⟩ := current
  refine ends_require_bind (fun _ _ _ hc => hc) fun u hu => ?_
  obtain ⟨hget, hactive⟩ := Option.filter_eq_some_iff.1 hu
  dsimp only
  split
  · exact Ends.throw_bind fun _ hc => hc
  · next hfits =>
    refine Ends.modify fun c hc => ⟨id, p, hp.1, hp.2,
      ⟨u.slot, ?_, hactive, by simpa [Declared.slot] using hfits⟩, ?_⟩
    · rw [Program.slots, List.getElem?_map, hget, Option.map_some]
    · rw [hc, Program.store, List.modify_eq_set_getElem?, hget]
      rfl

/-- **A value that is stored changes one uniform of the program in use**, which
takes it; one that is refused changes nothing. -/
theorem ends_storeUniform (b : HeadlessBackend) (location : UniformLocation) (value : UniformValue) :
    Ends (fun c => c = b) (storeUniform location value)
      (fun _ c => ∃ id p, b.current = some id ∧ b.programs.get? id = some p ∧
        p.Takes ⟨location, value⟩ ∧
        c = { b with programs := b.programs.put id (p.store ⟨location, value⟩) })
      fun _ c => c = b := by
  unfold storeUniform
  split
  · refine Ends.bind (R := fun _ c => c = b) (Ends.get fun _ hc => hc) fun _ => ?_
    exact Ends.bind (R := fun _ c => c = b) (stays_require ..) fun _ =>
      ends_storeCurrent b location _
  · exact ends_storeCurrent b location value

/-- A draw is recorded with what the program in use holds. -/
theorem ends_recordDraw (b : HeadlessBackend) :
    Ends (fun c => c = b) recordDraw
      (fun _ c => ∃ id p, b.current = some id ∧ b.programs.get? id = some p ∧
        c = { b with draws := b.draws.push (p.record id b.bound) })
      fun _ c => c = b := by
  refine Ends.bind ((ends_currentProgram b).weaken (fun _ h => h) (fun _ _ h => h)
    fun _ _ h => h.1) fun current => Ends.assume fun hp => Ends.modify fun c hc => ?_
  exact ⟨current.1, current.2, hp.1, hp.2, by rw [hc]; rfl⟩

end HeadlessBackend
end AudioShader
