/-
# What a build holds

At each point of a build the stages so far hold exactly the handles that were
made, also the last stage while it is half built. So a build that fails, at
whatever call, has everything to free in its stages.

Key definitions: `UniformBinding.handles`, `ShaderStage.handles`, `heldBy`, `Building.Accounted`.
Key theorems: `releaseStages_eq`, `accounted_attachUniform`, `ends_attachTarget`,
`ends_buildStages`.
-/
import AudioShader.Proofs.Graphics.Custody
import AudioShader.Proofs.Stage.Attach

namespace AudioShader

open AudioShader.Action (Ends Stays)

/-- The handles of a uniform, in the order in which they are freed. -/
def UniformBinding.handles (b : UniformBinding) : List Handle :=
  (b.offload.map Handle.offload).toList ++ (b.texture.map Handle.texture).toList

/-- The handles of a stage, in the order in which they are freed. -/
def ShaderStage.handles (st : ShaderStage) : List Handle :=
  st.bindings.reverse.flatMap UniformBinding.handles ++
    ((st.target.map Handle.target).toList ++ [.program st.program])

/-- The handles of stages, in the order in which they are freed. -/
def heldBy (stages : List ShaderStage) : List Handle := stages.reverse.flatMap ShaderStage.handles

section Release

variable {σ : Type} [GraphicsBackend σ]

theorem UniformBinding.release_eq (b : UniformBinding) (s : σ) :
    b.release s = deleteAll b.handles s := by
  unfold release handles
  cases b.offload <;> cases b.texture <;> rfl

theorem foldr_release_eq : ∀ (bindings : List UniformBinding) (s : σ),
    bindings.foldr UniformBinding.release s =
      deleteAll (bindings.reverse.flatMap UniformBinding.handles) s
  | [], _ => rfl
  | b :: bindings, s => by
    rw [List.foldr_cons, foldr_release_eq bindings, b.release_eq, List.reverse_cons,
      List.flatMap_append, List.flatMap_singleton, deleteAll_append]

theorem ShaderStage.release_eq (st : ShaderStage) (s : σ) :
    st.release s = deleteAll st.handles s := by
  unfold release handles
  rw [foldr_release_eq, deleteAll_append, deleteAll_append]
  cases st.target <;> rfl

/-- To free stages is to delete what they hold. -/
theorem releaseStages_eq : ∀ (stages : List ShaderStage) (s : σ),
    releaseStages stages s = deleteAll (heldBy stages) s
  | [], _ => rfl
  | st :: stages, s => by
    have ih := releaseStages_eq stages s
    unfold releaseStages heldBy at *
    rw [List.foldr_cons, ih, st.release_eq, List.reverse_cons, List.flatMap_append,
      List.flatMap_singleton, deleteAll_append]

end Release

/-! ### Changes of a stage -/

theorem heldBy_append (front back : List ShaderStage) :
    heldBy (front ++ back) = heldBy back ++ heldBy front := by
  rw [heldBy, List.reverse_append, List.flatMap_append]
  rfl

theorem heldBy_singleton (st : ShaderStage) : heldBy [st] = st.handles := by
  rw [heldBy, List.reverse_singleton, List.flatMap_singleton]

/-- What a stage gets, the stages hold more. -/
theorem heldBy_modify {stages : List ShaderStage} {index : Nat} {st : ShaderStage}
    {f : ShaderStage → ShaderStage} {extra : List Handle} (hst : stages[index]? = some st)
    (hf : (f st).handles.Perm (extra ++ st.handles)) :
    (heldBy (stages.modify index f)).Perm (extra ++ heldBy stages) := by
  obtain ⟨hi, hget⟩ := List.getElem?_eq_some_iff.1 hst
  obtain ⟨front, mid, back, rfl, rfl, hmodify⟩ := List.exists_of_modify f hi
  obtain rfl : mid = st := by simpa using hget
  have hsplit : ∀ x : ShaderStage, heldBy (front ++ x :: back) =
      heldBy back ++ (x.handles ++ heldBy front) := by
    intro x
    rw [← List.singleton_append, ← List.append_assoc, heldBy_append, heldBy_append,
      heldBy_singleton]
  rw [hmodify, hsplit, hsplit]
  refine ((hf.append_right _).append_left _).trans ?_
  rw [List.append_assoc extra]
  exact List.perm_append_comm_assoc ..

theorem handles_pushed (x : UniformBinding) (st : ShaderStage) :
    (Building.pushed x st).handles = x.handles ++ st.handles := by
  simp only [ShaderStage.handles, Building.pushed, List.reverse_append, List.reverse_singleton,
    List.flatMap_append, List.flatMap_singleton, List.append_assoc]

/-- Whether the stages from an index on have no targets yet. -/
def Bare (index : Nat) (stages : List ShaderStage) : Prop :=
  ∀ i st, index ≤ i → stages[i]? = some st → st.target = none

theorem Bare.modify {k : Nat} {stages : List ShaderStage} (h : Bare k stages) {index : Nat}
    {f : ShaderStage → ShaderStage} (hf : k ≤ index → ∀ st, (f st).target = st.target) :
    Bare k (stages.modify index f) := by
  intro i st hi hst
  rw [List.getElem?_modify] at hst
  obtain ⟨st', hst', rfl⟩ := Option.map_eq_some_iff.1 hst
  split
  · next heq =>
    rw [hf (heq ▸ hi)]
    exact h i st' hi hst'
  · exact h i st' hi hst'

theorem Bare.concat {k : Nat} {stages : List ShaderStage} (h : Bare k stages) {st : ShaderStage}
    (hst : st.target = none) : Bare k (stages ++ [st]) := by
  intro i st' hi hst'
  rw [List.getElem?_append] at hst'
  split at hst'
  · exact h i st' hi hst'
  · rw [List.mem_singleton.1 (List.mem_of_getElem? hst'), hst]

/-- A stage that gets a target holds it as well. -/
theorem handles_withTarget {st : ShaderStage} (h : st.target = none) (target : TargetId) :
    { st with target := some target }.handles.Perm (.target target :: st.handles) := by
  simp only [ShaderStage.handles, h, Option.map_some, Option.map_none, Option.toList_some,
    Option.toList_none, List.nil_append]
  exact List.perm_middle

/-! ### Accounts -/

namespace Building

variable {σ α : Type} [GraphicsBackend σ]

/-- A build with certain stages, while certain handles are to be deleted. -/
def Owes (c : Custody σ) (stages : List ShaderStage) (hs : List Handle) (b : Building σ) : Prop :=
  b.stages = stages ∧ c.making hs b.device

/-- All that is to be deleted is held by the stages. -/
def Whole (c : Custody σ) (b : Building σ) : Prop := c.making (heldBy b.stages) b.device

/-- A build of `n` stages, those from `k` on without targets, that hold all that
is to be deleted. -/
structure Accounted (c : Custody σ) (k n : Nat) (b : Building σ) : Prop where
  whole : Whole c b
  bare : Bare k b.stages
  length : b.stages.length = n

variable {c : Custody σ} {stages : List ShaderStage} {hs : List Handle}

theorem Owes.perm {hs' : List Handle} (hperm : hs.Perm hs') {b : Building σ}
    (h : Owes c stages hs b) : Owes c stages hs' b := ⟨h.1, c.making_perm hperm h.2⟩

theorem Owes.whole {b : Building σ} (h : Owes c stages (heldBy stages) b) : Whole c b := by
  obtain ⟨rfl, h⟩ := h
  exact h

theorem owes_onDevice {handle : α → Handle} {a : Action σ BackendError α}
    (h : Makes c.making handle a) : Ends (Owes c stages hs) (onDevice a)
      (fun x => Owes c stages (handle x :: hs)) fun _ => Owes c stages hs := by
  refine Ends.within ?_
  rintro b ⟨rfl, hb⟩
  exact (h hs).weaken (by rintro _ rfl; exact hb) (fun _ _ hd => ⟨rfl, hd⟩) fun _ _ hd => ⟨rfl, hd⟩

theorem ends_edit {E : BackendError → Building σ → Prop} (index : Nat)
    (f : ShaderStage → ShaderStage) : Ends (Owes c stages hs) (edit index f)
      (fun _ => Owes c (stages.modify index f) hs) E :=
  Ends.modify fun _ h => ⟨congrArg (List.modify · index f) h.1, h.2⟩

/-- A change of a stage that holds nothing more. -/
theorem Whole.edited {b : Building σ} (h : Whole c b) {index : Nat}
    {f : ShaderStage → ShaderStage} (hf : ∀ st, (f st).handles = st.handles) :
    Whole c { b with stages := b.stages.modify index f } := by
  rcases hst : b.stages[index]? with _ | st
  · have : b.stages.modify index f = b.stages :=
      List.modify_eq_self (List.getElem?_eq_none_iff.1 hst)
    rw [this]
    exact h
  · have hperm : (heldBy (b.stages.modify index f)).Perm ([] ++ heldBy b.stages) :=
      heldBy_modify hst (by rw [hf]; exact .refl _)
    exact c.making_perm hperm.symm h

end Building

open Building

/-! ### The steps of a build -/

variable {σ : Type} [GraphicsBackend σ] {c : Custody σ}

/-- Stages of which one has got a binding, when the handles of the binding are
to be deleted as well. -/
theorem accounted_pushed {stages : List ShaderStage} (hbare : Bare 0 stages) {index : Nat}
    (hindex : index < stages.length) {x : UniformBinding} {b : Building σ}
    (h : Owes c (stages.modify index (pushed x)) (x.handles ++ heldBy stages) b) :
    Accounted c 0 stages.length b := by
  have hperm : (heldBy (stages.modify index (pushed x))).Perm (x.handles ++ heldBy stages) :=
    heldBy_modify (List.getElem?_eq_getElem hindex) (by rw [handles_pushed])
  refine ⟨(h.perm hperm.symm).whole, ?_, ?_⟩
  · rw [h.1]
    exact hbare.modify fun _ _ => rfl
  · rw [h.1, List.length_modify]

/-- A stage that gets a binding holds the handles of the binding, also between
its texture and its tail. -/
theorem accounted_attachUniform (settings : PipelineSettings) {index n : Nat} (hindex : index < n)
    (ordinal : Nat) (program : ProgramId) (u : UniformRequest) :
    Ends (Accounted c 0 n) (attachUniform settings index ordinal program u)
      (fun _ => Accounted c 0 n) fun _ => Whole c := by
  refine Ends.of_forall fun b hb => ?_
  obtain ⟨hwhole, hbare, rfl⟩ := hb
  let T : Option TextureId → σ → Prop := fun texture =>
    c.making ((texture.map Handle.texture).toList ++ heldBy b.stages)
  let R : UniformBinding → σ → Prop := fun x => c.making (x.handles ++ heldBy b.stages)
  have hpushed : ∀ x d, R x d →
      Accounted c 0 b.stages.length { b with device := d, stages := b.stages.modify index (pushed x) } :=
    fun x d h => accounted_pushed hbare hindex ⟨rfl, h⟩
  refine (ends_attachUniform (T := T) (R := R) (E := fun stages => c.making (heldBy stages))
    (fun _ => ?_) (fun _ => hwhole) (fun _ texture d h => h) (fun lead tail _ texture => ?_)).weaken
    (fun _ h => h) ?_ fun _ _ h => h
  · refine (c.createAudioTexture settings.bufferSize (heldBy b.stages)).weaken ?_
      (fun _ _ h => h) fun _ _ h => h
    rintro _ rfl
    exact hwhole
  · -- the tail fails to be made behind the binding that holds the texture
    exact (c.createOffload tail settings.params _).weaken (fun _ h => h) (fun _ _ h => h)
      fun _ d h => (hpushed (u.binding settings program b texture none) d h).whole
  · rintro _ t ⟨x, hx, hstages⟩
    have h := hpushed x t.device hx
    refine ⟨?_, hstages ▸ h.bare, hstages ▸ h.length⟩
    rw [Whole, hstages]
    exact h.whole

theorem ends_attachAll (setup : StageSetup) {index n : Nat} (hindex : index < n) (ordinal : Nat)
    (program : ProgramId) (uniforms : List UniformRequest) :
    Ends (Accounted c 0 n) (attachAll setup index ordinal program uniforms)
      (fun _ => Accounted c 0 n) fun _ => Whole c := by
  refine Ends.bind (Ends.forM (I := fun _ => Accounted c 0 n)
    (fun u _ => accounted_attachUniform setup.settings hindex ordinal program u) uniforms) fun _ => ?_
  refine Ends.get_bind fun b hb => Ends.modify ?_
  rintro _ rfl
  refine ⟨hb.whole.edited fun st => rfl, hb.bare.modify fun _ _ => rfl, ?_⟩
  rw [List.length_modify, hb.length]

/-- A build so far, of any number of stages without targets. -/
def AllBare (c : Custody σ) (b : Building σ) : Prop := Accounted c 0 b.stages.length b

omit [GraphicsBackend σ] in
theorem stays_processStage (I : Building σ → Prop) (setup : StageSetup) (path : Path) :
    Stays I (processStage setup path) := by
  unfold processStage
  split
  · exact Stays.throw _
  · exact Stays.bind (Stays.mapError _ (Stays.ofLogged _)) fun _ => Stays.pure _

/-- A program that is compiled is to be deleted. -/
theorem ends_compileStage {stages : List ShaderStage} {hs : List Handle} (ordinal : Nat)
    (path : Path) (source : ProcessedSource) :
    Ends (Owes c stages hs) (compileStage ordinal path source)
      (fun program => Owes c stages ((program.map Handle.program).toList ++ hs))
      fun _ => Owes c stages hs := by
  unfold compileStage
  refine Ends.bind (R := fun compiled => Owes c stages
    ((compiled.toOption.map Handle.program).toList ++ hs))
    (Ends.attempt (owes_onDevice (c.compile _ _))) fun compiled => ?_
  split
  · exact Ends.record_bind (Ends.pure fun _ h => h)
  · split
    · exact Ends.record_bind (Ends.pure fun _ h => h)
    · exact Ends.throw fun _ h => h
  · exact Ends.throw fun _ h => h

theorem ends_buildStage (setup : StageSetup) (ordinal : Nat) (path : Path) :
    Ends (AllBare c) (buildStage setup ordinal path) (fun _ => AllBare c) fun _ => Whole c := by
  refine Ends.of_forall fun b hb => ?_
  have hstart : Owes c b.stages (heldBy b.stages) b := ⟨rfl, hb.whole⟩
  refine Ends.bind (R := fun _ => Owes c b.stages (heldBy b.stages))
    ((stays_processStage _ setup path).weaken (by rintro _ rfl; exact hstart) (fun _ _ h => h)
      fun _ _ h => h.whole) fun processed => ?_
  refine Ends.bind ((ends_compileStage ordinal path processed.1).weaken (fun _ h => h)
    (fun _ _ h => h) fun _ _ h => h.whole) fun program? => ?_
  rcases program? with _ | program
  · refine Ends.pure fun b' h => ⟨h.whole, ?_, rfl⟩
    rw [h.1]
    exact hb.bare
  · refine Ends.get_bind fun b' h => ?_
    -- the stage is there before it is bound, and holds its program
    refine Ends.bind (R := fun _ => Accounted c 0 (b'.stages.length + 1)) (Ends.modify ?_) fun _ =>
      Ends.mapError ((ends_attachAll setup (Nat.lt_succ_self _) ordinal program processed.2).weaken
        (fun _ h => h) (fun _ b'' h => ?_) fun _ _ h => h)
    · rintro _ rfl
      refine ⟨?_, ?_, List.length_append⟩
      · rw [Whole, heldBy_append, heldBy_singleton, h.1]
        exact h.2
      · rw [h.1]
        exact hb.bare.concat rfl
    · rw [AllBare, h.length]
      exact h

/-- A stage that gets a target holds it, also if the target's texture is not
found. -/
theorem ends_attachTarget {k n : Nat} (hk : k < n) (size : Nat × Nat) :
    Ends (Accounted c k n) (attachTarget size k) (fun _ => Accounted c (k + 1) n)
      fun _ => Whole c := by
  refine Ends.of_forall fun b hb => ?_
  obtain ⟨hwhole, hbare, rfl⟩ := hb
  have hst : b.stages[k]? = some b.stages[k] := List.getElem?_eq_getElem hk
  refine Ends.bind (R := fun target => Owes c b.stages (.target target :: heldBy b.stages))
    ((owes_onDevice (c.createTarget _ _)).weaken (by rintro _ rfl; exact ⟨rfl, hwhole⟩)
      (fun _ _ h => h) fun _ _ h => h.whole) fun target => ?_
  -- the stage has its target before the texture is asked for
  refine Ends.bind (R := fun _ => Accounted c (k + 1) b.stages.length)
    ((ends_edit k _).weaken (fun _ h => h) (fun _ b' h => ?_) fun _ _ h => h) fun _ => ?_
  · have hperm : (heldBy (b.stages.modify k fun st => { st with target := some target })).Perm
        ([.target target] ++ heldBy b.stages) :=
      heldBy_modify hst (handles_withTarget (hbare k _ (Nat.le_refl k) hst) target)
    refine ⟨(h.perm hperm.symm).whole, ?_, by rw [h.1, List.length_modify]⟩
    rw [h.1]
    have hrest : Bare (k + 1) b.stages := fun i st hi => hbare i st (Nat.le_of_succ_le hi)
    exact hrest.modify fun hlt => absurd hlt (Nat.not_succ_le_self k)
  · refine Ends.bind (R := fun _ => Accounted c (k + 1) b.stages.length)
      (Ends.within fun b' hb' => ?_) fun output => Ends.modify fun b' hb' => ?_
    · refine (c.targetTexture target (heldBy b'.stages)).weaken (by rintro _ rfl; exact hb'.whole)
        (fun _ _ h => ⟨h, hb'.bare, hb'.length⟩) fun _ _ h => h
    · refine ⟨hb'.whole.edited fun st => rfl, hb'.bare.modify fun _ _ => rfl, ?_⟩
      rw [List.length_modify, hb'.length]

theorem ends_attachTargets (c : Custody σ) :
    Ends (AllBare c) attachTargets (fun _ => Whole c) fun _ => Whole c := by
  refine Ends.get_bind fun b hb => ?_
  refine (Ends.forM_zipIdx (J := fun k => Accounted c k b.stages.length) (k := 0)
    fun k st hst => ?_).weaken (by rintro _ rfl; exact hb) (fun _ _ h => h.whole) fun _ _ h => h
  obtain ⟨hk, -⟩ := List.getElem?_eq_some_iff.1 hst
  rw [List.length_dropLast] at hk
  exact Ends.mapError (ends_attachTarget (by omega) _)

theorem ends_buildFiles (c : Custody σ) (setup : StageSetup) (moduleDir : Path) (files : List Path) :
    Ends (AllBare c) (buildFiles setup moduleDir files) (fun _ => Whole c) fun _ => Whole c := by
  refine Ends.bind (Ends.forM (I := fun _ => AllBare c)
    (fun x _ => ends_buildStage setup (x.2 + 1) x.1) _) fun _ => ?_
  refine Ends.get_bind fun b hb => ?_
  have htargets := (ends_attachTargets c).weaken (by rintro _ rfl; exact hb : ∀ t, t = b → _)
    (fun _ _ h => h) fun _ _ h => h
  split
  · exact Ends.throw_bind (by rintro _ rfl; exact hb.whole)
  · exact htargets

/-- Stages that are built hold all that was made for them. If the build fails,
all of that is deleted. -/
theorem ends_buildStages (c : Custody σ) (setup : StageSetup) (moduleDir : Path) :
    Ends (c.making []) (buildStages setup moduleDir) (fun stages => c.making (heldBy stages))
      fun _ => c.holding [] := by
  intro device hdevice log
  have hstart : AllBare c ({ device } : Building σ) :=
    ⟨hdevice, (fun _ _ _ hst => nomatch hst), rfl⟩
  have hend := ends_buildFiles c setup moduleDir (stageFiles setup.files moduleDir) hstart log
  unfold buildStages
  dsimp only
  by_cases hfiles : (stageFiles setup.files moduleDir).isEmpty = true
  · rw [if_pos hfiles]
    exact c.holding_of_making hdevice
  · rw [if_neg hfiles]
    rcases hb : buildFiles setup moduleDir (stageFiles setup.files moduleDir) { device } log
      with ⟨⟨e | u, b⟩, log'⟩
    · rw [hb] at hend
      have hheld : c.holding (heldBy b.stages ++ []) b.device := by
        rw [List.append_nil]
        exact c.holding_of_making hend
      show c.holding [] (releaseStages b.stages b.device)
      rw [releaseStages_eq]
      exact c.holding_deleteAll _ hheld
    · rw [hb] at hend
      exact hend

end AudioShader
