/-
# Numbers of bindings

A build numbers the uniforms that it binds by a counter, over all stages. So no
two bindings of the stages that are built have the same number.

Key definitions: `Building.ids`, `Building.Counted`.
Key theorems: `Building.Counted.push`, `nodup_ids_of_buildStages`.
-/
import Mathlib.Data.List.Nodup
import AudioShader.Proofs.Action
import AudioShader.Stage.Build

namespace AudioShader

open AudioShader.Action (Gives Keeps)

variable {σ α β ε : Type}

namespace Building

/-- The numbers of all bindings so far. -/
def ids (b : Building σ) : List BindingId := (b.stages.flatMap (·.bindings)).map (·.id)

/-- The numbers so far are distinct, and the counter is beyond them. -/
structure Counted (b : Building σ) : Prop where
  nodup : b.ids.Nodup
  below : ∀ id ∈ b.ids, id.number < b.nextBinding

/-- Adds a binding to a stage. -/
def pushed (x : UniformBinding) (st : ShaderStage) : ShaderStage :=
  { st with bindings := st.bindings ++ [x] }

/-! ### Changes of a stage -/

theorem flatMap_modify_of_eq {f : ShaderStage → ShaderStage} (hf : ∀ st, (f st).bindings = st.bindings)
    (stages : List ShaderStage) (index : Nat) :
    (stages.modify index f).flatMap (·.bindings) = stages.flatMap (·.bindings) := by
  by_cases hi : index < stages.length
  · obtain ⟨front, st, back, rfl, -, hmodify⟩ := List.exists_of_modify f hi
    rw [hmodify, List.flatMap_append, List.flatMap_append, List.flatMap_cons, List.flatMap_cons, hf]
  · rw [List.modify_eq_self (Nat.le_of_not_lt hi)]

theorem forall_mem_modify {P : ShaderStage → Prop} {stages : List ShaderStage} {index : Nat}
    {f : ShaderStage → ShaderStage} (h : ∀ st ∈ stages, P st)
    (hf : ∀ st, stages[index]? = some st → P (f st)) : ∀ st ∈ stages.modify index f, P st := by
  intro st hst
  obtain ⟨i, hi⟩ := List.mem_iff_getElem?.1 hst
  rw [List.getElem?_modify] at hi
  obtain ⟨st', hst', rfl⟩ := Option.map_eq_some_iff.1 hi
  split
  · next heq => exact hf st' (heq ▸ hst')
  · exact h st' (List.mem_of_getElem? hst')

/-- A change of a stage that a view of it does not show. -/
theorem map_modify_of_eq {γ : Type} {g : ShaderStage → γ} {f : ShaderStage → ShaderStage}
    (hf : ∀ st, g (f st) = g st) (stages : List ShaderStage) (index : Nat) :
    (stages.modify index f).map g = stages.map g := by
  refine List.ext_getElem? fun i => ?_
  rw [List.getElem?_map, List.getElem?_map, List.getElem?_modify]
  cases stages[i]? with
  | none => rfl
  | some st => by_cases hi : index = i <;> simp [hi, hf]

/-- The last stage changes. -/
theorem modify_concat (f : ShaderStage → ShaderStage) (st : ShaderStage) :
    ∀ front : List ShaderStage, (front ++ [st]).modify front.length f = front ++ [f st]
  | [] => rfl
  | x :: front => by
    rw [List.cons_append, List.length_cons, List.modify_succ_cons, modify_concat f st front]
    rfl

/-- A binding that is added stands among the others, if there is the stage. -/
theorem perm_modify_pushed (x : UniformBinding) (stages : List ShaderStage) (index : Nat) :
    ((stages.modify index (pushed x)).flatMap (·.bindings)).Perm
        (x :: stages.flatMap (·.bindings)) ∨
      stages.modify index (pushed x) = stages := by
  by_cases hi : index < stages.length
  · refine .inl ?_
    obtain ⟨front, st, back, rfl, -, hmodify⟩ := List.exists_of_modify (pushed x) hi
    rw [hmodify, List.flatMap_append, List.flatMap_append, List.flatMap_cons, List.flatMap_cons,
      pushed, List.append_assoc, List.singleton_append, ← List.append_assoc, ← List.append_assoc]
    exact List.perm_middle
  · exact .inr (List.modify_eq_self (Nat.le_of_not_lt hi))

/-- The binding that was added last is replaced. -/
theorem modify_replaced (x y : UniformBinding) (stages : List ShaderStage) (index : Nat) :
    (stages.modify index (pushed x)).modify index
        (fun st => { st with bindings := st.bindings.dropLast ++ [y] }) =
      stages.modify index (pushed y) := by
  rw [List.modify_modify_eq]
  congr
  funext st
  rw [Function.comp_apply, pushed, pushed]
  dsimp only
  rw [List.dropLast_concat]

namespace Counted

variable {b b' : Building σ}

theorem congr (h : Counted b) (hids : b'.ids = b.ids) (hnext : b'.nextBinding = b.nextBinding) :
    Counted b' := by
  refine ⟨?_, ?_⟩
  · rw [hids]
    exact h.nodup
  · rw [hids, hnext]
    exact h.below

theorem empty (device : σ) : Counted { device } :=
  ⟨List.nodup_nil, fun _ hid => by cases hid⟩

theorem push (h : Counted b) {x : UniformBinding} (hx : x.id = ⟨b.nextBinding⟩) (index : Nat)
    (device : σ) : Counted
      { device, stages := b.stages.modify index (pushed x), nextBinding := b.nextBinding + 1 } := by
  have hbelow : ∀ id ∈ b.ids, id.number < b.nextBinding + 1 :=
    fun id hid => Nat.lt_succ_of_lt (h.below id hid)
  rcases perm_modify_pushed x b.stages index with hperm | hsame
  · have hids : (((b.stages.modify index (pushed x)).flatMap (·.bindings)).map (·.id)).Perm
        (x.id :: b.ids) := hperm.map (·.id)
    refine ⟨?_, fun id hid => ?_⟩
    · rw [ids, hids.nodup_iff, List.nodup_cons]
      refine ⟨fun hmem => ?_, h.nodup⟩
      have hlt := h.below x.id hmem
      rw [hx] at hlt
      exact Nat.lt_irrefl _ hlt
    · rcases List.mem_cons.1 (hids.mem_iff.1 hid) with rfl | hid
      · rw [hx]
        exact Nat.lt_succ_self _
      · exact hbelow id hid
  · rw [hsame]
    exact ⟨h.nodup, hbelow⟩

end Counted

/-! ### The steps of a build -/

theorem onDevice_gives {a : Action σ BackendError α} {b b' : Building σ} {x : α}
    (h : Gives (onDevice a) b x b') : ∃ device, b' = { b with device } := by
  obtain ⟨device, -, hb'⟩ := h.of_within
  exact ⟨device, hb'⟩

theorem report_gives : ∀ {events : List Event} {b b' : Building σ} {u : Unit},
    Gives (report events) b u b' → b' = b
  | [], b, b', u, h => h.of_pure.2.symm
  | event :: events, b, b', u, h => by
    obtain ⟨_, b₁, hrecord, hrest⟩ := Gives.bind h
    rw [report_gives hrest, hrecord.of_record]

/-- Whether a warning is reported makes no difference to a build. -/
theorem gives_of_warned {c : Prop} [Decidable c] {events : List Event} {b b' : Building σ} {x : α}
    {rest : Action (Building σ) BackendError α}
    (h : Gives (if c then report events >>= fun _ => rest else rest) b x b') :
    Gives rest b x b' := by
  split at h
  · obtain ⟨_, b₁, hreport, hrest⟩ := Gives.bind h
    rw [report_gives hreport] at hrest
    exact hrest
  · exact h

end Building

open Building

variable [GraphicsBackend σ]

theorem audioTexture_gives {kind : SourceKind} {len : Nat} {b b' : Building σ}
    {texture : Option TextureId} (h : Gives (audioTexture kind len) b texture b') :
    ∃ device, b' = { b with device } := by
  unfold audioTexture at h
  split at h
  · obtain ⟨id, b₁, hcreate, hpure⟩ := Gives.bind h
    rw [← hpure.of_pure.2]
    exact onDevice_gives hcreate
  · exact ⟨b.device, by rw [← h.of_pure.2]⟩

/-- A uniform becomes a binding with the number of the counter. -/
theorem attachUniform_gives {settings : PipelineSettings} {index ordinal : Nat}
    {program : ProgramId} {u : UniformRequest} {b b' : Building σ} {v : Unit}
    (h : Gives (attachUniform settings index ordinal program u) b v b') : ∃ x device,
      x.id = ⟨b.nextBinding⟩ ∧
      b' = { device, stages := b.stages.modify index (pushed x),
             nextBinding := b.nextBinding + 1 } := by
  unfold attachUniform at h
  obtain ⟨_, _, hget, h⟩ := Gives.bind h
  obtain ⟨rfl, rfl⟩ := hget.of_get
  dsimp only at h
  obtain ⟨_, b₁, hreport, h⟩ := Gives.bind (gives_of_warned h)
  obtain rfl := report_gives hreport
  obtain ⟨texture, b₂, htexture, h⟩ := Gives.bind h
  obtain ⟨device, rfl⟩ := audioTexture_gives htexture
  obtain ⟨_, b₃, hcount, h⟩ := Gives.bind h
  obtain rfl := hcount.of_modify
  obtain ⟨_, b₄, hedit, h⟩ := Gives.bind h
  obtain rfl := hedit.of_modify
  cases hmode : u.mode settings b₁.device with
  | cpu =>
    rw [hmode] at h
    exact ⟨_, device, rfl, h.of_pure.2.symm⟩
  | offloaded lead tail =>
    rw [hmode] at h
    obtain ⟨offload, b₅, hoffload, h⟩ := Gives.bind h
    obtain ⟨device', rfl⟩ := onDevice_gives hoffload
    -- the binding is there already, and gets its tail
    refine ⟨_, device', ?_, h.of_modify.trans
      (congrArg (fun stages => (⟨device', stages, b₁.nextBinding + 1⟩ : Building σ))
        (modify_replaced _ _ b₁.stages index))⟩
    rfl

/-! ### All stages -/

omit [GraphicsBackend σ] in
theorem keeps_onDevice (a : Action σ BackendError α) : Keeps Counted (onDevice a) := by
  intro b x b' h hb
  obtain ⟨device, rfl⟩ := onDevice_gives h
  exact hb.congr rfl rfl

omit [GraphicsBackend σ] in
/-- Work on the device does not touch bindings, also when it fails. -/
theorem keeps_attempt_onDevice (a : Action σ BackendError α) :
    Keeps Counted (Action.attempt (onDevice a) : Action (Building σ) BuildError _) := by
  rintro b x b' ⟨log, log', h⟩ hb
  unfold Action.attempt onDevice Action.within at h
  rcases ha : a b.device log with ⟨⟨r, device⟩, log₁⟩
  rw [ha] at h
  cases h
  exact hb.congr rfl rfl

omit [GraphicsBackend σ] in
theorem keeps_edit {f : ShaderStage → ShaderStage} (hf : ∀ st, (f st).bindings = st.bindings)
    (index : Nat) : Keeps (Counted : Building σ → Prop) (edit index f) := by
  intro b x b' h hb
  rw [h.of_modify]
  refine hb.congr ?_ rfl
  rw [ids, ids, flatMap_modify_of_eq hf]

theorem keeps_attachAll (setup : StageSetup) (index ordinal : Nat) (program : ProgramId)
    (uniforms : List UniformRequest) :
    Keeps (Counted : Building σ → Prop) (attachAll setup index ordinal program uniforms) := by
  refine Keeps.bind (Keeps.forM (fun u => ?_) uniforms) fun _ => Keeps.get.bind fun _ =>
    keeps_edit (by intro st; rfl) index
  intro b v b' h hb
  obtain ⟨x, device, hx, rfl⟩ := attachUniform_gives h
  exact hb.push hx index device

omit [GraphicsBackend σ] in
theorem keeps_processStage (setup : StageSetup) (path : Path) :
    Keeps (Counted : Building σ → Prop) (processStage setup path) := by
  unfold processStage
  split
  · exact .throw _
  · exact Keeps.bind (.mapError _ (.ofLogged _)) fun _ => .pure _

theorem keeps_compileStage (ordinal : Nat) (path : Path) (source : ProcessedSource) :
    Keeps (Counted : Building σ → Prop) (compileStage ordinal path source) := by
  refine Keeps.bind (keeps_attempt_onDevice _) fun compiled => ?_
  split
  · exact Keeps.bind (.record _) fun _ => .pure _
  · split
    · exact Keeps.bind (.record _) fun _ => .pure _
    · exact .throw _
  · exact .throw _

theorem keeps_buildStage (setup : StageSetup) (ordinal : Nat) (path : Path) :
    Keeps (Counted : Building σ → Prop) (buildStage setup ordinal path) := by
  refine Keeps.bind (keeps_processStage setup path) fun processed => ?_
  refine Keeps.bind (keeps_compileStage ordinal path processed.1) fun program? => ?_
  rcases program? with _ | program
  · exact .pure ()
  · refine Keeps.get.bind fun _ => Keeps.bind (Keeps.modify fun b hb => hb.congr ?_ rfl) fun _ =>
      .mapError _ (keeps_attachAll setup _ ordinal program processed.2)
    rw [ids, ids, List.flatMap_append, List.flatMap_singleton, List.append_nil]

theorem keeps_attachTarget (size : Nat × Nat) (index : Nat) :
    Keeps (Counted : Building σ → Prop) (attachTarget size index) := by
  unfold attachTarget
  refine (keeps_onDevice _).bind fun target => ?_
  refine (keeps_edit (fun st => ?_) index).bind fun _ => ?_
  · rfl
  refine (keeps_onDevice _).bind fun output => ?_
  refine keeps_edit (fun st => ?_) index
  rfl

theorem keeps_attachTargets : Keeps (Counted : Building σ → Prop) attachTargets := by
  unfold attachTargets
  refine Keeps.get.bind fun b => ?_
  refine Keeps.forM (fun p => ?_) _
  exact Keeps.mapError _ (keeps_attachTarget _ p.2)

theorem keeps_buildFiles (setup : StageSetup) (moduleDir : Path) (files : List Path) :
    Keeps (Counted : Building σ → Prop) (buildFiles setup moduleDir files) := by
  unfold buildFiles
  refine Keeps.bind (Keeps.forM (fun p => ?_) _) fun _ => ?_
  · exact keeps_buildStage setup (p.2 + 1) p.1
  refine Keeps.get.bind fun b => ?_
  dsimp only
  split
  · exact Keeps.bind (.throw _) fun _ => keeps_attachTargets
  · exact keeps_attachTargets

/-- The bindings of all stages that are built have different numbers. -/
theorem nodup_ids_of_buildStages {setup : StageSetup} {moduleDir : Path} {device device' : σ}
    {stages : List ShaderStage} (h : Gives (buildStages setup moduleDir) device stages device') :
    ((stages.flatMap (·.bindings)).map (·.id)).Nodup := by
  obtain ⟨log, log', h⟩ := h
  unfold buildStages at h
  dsimp only at h
  split at h
  · cases h
  · rcases hb : buildFiles setup moduleDir (stageFiles setup.files moduleDir) { device } log
      with ⟨⟨e | u, b⟩, log₁⟩
    · rw [hb] at h
      cases h
    · rw [hb] at h
      cases h
      exact (keeps_buildFiles setup moduleDir _ ⟨log, log₁, hb⟩ (.empty device)).nodup

end AudioShader
