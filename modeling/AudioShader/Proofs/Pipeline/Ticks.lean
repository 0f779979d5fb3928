/-
# Ticks that share results

A tick that runs each chain once draws what the executor draws in which nothing
is shared: each piece of it is shadowed by the same piece of that executor, from
states that are aligned to states that are.

Key definitions: `StatesRelation`, `Paired`.
Key theorems: `shadows_uploadAudio`, `shadows_fillBinding`, `shadows_drawStages`.
-/
import AudioShader.Proofs.Pipeline.Sharing
import AudioShader.Proofs.Pipeline.Unshared
import AudioShader.Proofs.Shadow

namespace AudioShader

open AudioShader.Action (Shadows)

variable {σ α : Type}

/-- A relation between shared states, with the results of a tick, and states that
are not shared. -/
abbrev StatesRelation := StateStore Float32 → ChainMemo SourceKind Float32 →
  (BindingId → StateStore Float32) → Prop

/-- A drawing and one that shares nothing, on the same device and with states
that `R` relates. -/
def Paired (R : StatesRelation) (d : Drawing σ) (q : Unshared.Drawing σ) : Prop :=
  d.device = q.device ∧ R d.store d.memo q.states

/-- The backend does not touch states. -/
theorem shadows_onBackend {R : StatesRelation} (ordinal : Nat) (a : Action σ BackendError α) :
    Shadows (Paired R) (onBackend ordinal a) (Unshared.onBackend ordinal a) (Paired R) := by
  refine Shadows.mapError _ (Shadows.within (Shadows.refl a) (fun _ _ h => h.1) ?_)
  rintro d q device _ ⟨-, hR⟩ rfl
  exact ⟨rfl, hR⟩

/-! ### What a chain does -/

section Upload

variable {t : TickInput} {b : UniformBinding} {input result : List Float32} {log log' : Log}

theorem runOn_apply {a : Running Float32 Unit} {d : Drawing σ}
    {p : Except TransformError Unit × Work Float32} (ha : a.run ⟨input, d.store⟩ = p) (log : Log) :
    runOn input a d log =
      (match p.1 with
        | .ok () => pure p.2.buffer
        | .error e => throw (.transform e) : Action (Drawing σ) RenderError (List Float32))
        { d with store := p.2.store } log := by
  subst ha
  rfl

/-- What a part of a chain leaves are the states and the result. -/
theorem runOn_ok {a : Running Float32 Unit} {d d' : Drawing σ}
    (h : runOn input a d log = ((.ok result, d'), log')) :
    log' = log ∧ ∃ s', Succeeds a ⟨input, d.store⟩ ⟨result, s'⟩ ∧ d' = { d with store := s' } := by
  rcases ha : a.run ⟨input, d.store⟩ with ⟨e | u, w⟩
  · rw [runOn_apply ha] at h
    cases h
  · rw [runOn_apply ha] at h
    cases h
    exact ⟨rfl, w.store, ha, rfl⟩

theorem chainResult_apply (t : TickInput) (b : UniformBinding) (input : List Float32)
    (d : Drawing σ) (log : Log) : chainResult t b input d log =
      (match d.memo.known? b.key with
        | some result => pure result
        | none => do
          let result ← runOn input (b.chain.run t.settings.params b.id)
          modify fun d => { d with memo := d.memo.put b.source.kind b.chain result }
          return result : Action (Drawing σ) RenderError (List Float32)) d log := rfl

/-- The result of a chain is known, or the chain is run and its result noted. -/
theorem chainResult_ok {d d' : Drawing σ}
    (h : chainResult t b input d log = ((.ok result, d'), log')) :
    log' = log ∧
      ((d.memo.known? b.key = some result ∧ d' = d) ∨
        (d.memo.known? b.key = none ∧ ∃ s',
          Succeeds (b.chain.run t.settings.params b.id) ⟨input, d.store⟩ ⟨result, s'⟩ ∧
          d' = { d with store := s', memo := d.memo.put b.source.kind b.chain result })) := by
  rw [chainResult_apply] at h
  cases hk : d.memo.known? b.key with
  | some known =>
    rw [hk] at h
    cases h
    exact ⟨rfl, .inl ⟨rfl, rfl⟩⟩
  | none =>
    rw [hk] at h
    dsimp only at h
    rw [Action.bind_apply] at h
    rcases hon : runOn input (b.chain.run t.settings.params b.id) d log with ⟨⟨e | r, d₁⟩, log₁⟩
    · rw [hon] at h
      cases h
    · rw [hon] at h
      obtain ⟨rfl, s', hrun, rfl⟩ := runOn_ok hon
      cases h
      exact ⟨rfl, .inr ⟨rfl, s', hrun, rfl⟩⟩

variable [GraphicsBackend σ] {ordinal : Nat} {texture : TextureId}

theorem Unshared.uploadAudio_apply {q : Unshared.Drawing σ}
    {p : Except TransformError Unit × Work Float32}
    (h : (b.chain.run t.settings.params b.id).run ⟨input, q.states b.id⟩ = p) (log : Log) :
    Unshared.uploadAudio t ordinal b texture input q log =
      (match p.1 with
        | .error error => throw (.transform error)
        | .ok () => do
          set { q with states := Function.update q.states b.id p.2.store }
          Unshared.onBackend ordinal (GraphicsBackend.upload texture p.2.buffer) :
        Action (Unshared.Drawing σ) RenderError Unit) q log := by
  subst h
  rfl

/-- On its own, a binding uploads what its chain gives on its states. -/
theorem Unshared.uploadAudio_eq {q : Unshared.Drawing σ} {own : StateStore Float32}
    (h : Succeeds (b.chain.run t.settings.params b.id) ⟨input, q.states b.id⟩ ⟨result, own⟩)
    (log : Log) :
    Unshared.uploadAudio t ordinal b texture input q log =
      Unshared.onBackend ordinal (GraphicsBackend.upload texture result)
        { q with states := Function.update q.states b.id own } log :=
  Unshared.uploadAudio_apply h log

theorem uploadAudio_of_isEmpty (hcpu : b.mode = .cpu) (hempty : b.chain.isEmpty = true) :
    (uploadAudio t ordinal b texture input : Action (Drawing σ) RenderError Unit) =
      onBackend ordinal (GraphicsBackend.upload texture input) := by
  unfold uploadAudio
  rw [hcpu, hempty]
  rfl

theorem uploadAudio_of_steps (hcpu : b.mode = .cpu) (hempty : b.chain.isEmpty = false) :
    (uploadAudio t ordinal b texture input : Action (Drawing σ) RenderError Unit) =
      chainResult t b input >>= fun result =>
        onBackend ordinal (GraphicsBackend.upload texture result) := by
  unfold uploadAudio
  rw [hcpu, hempty]
  rfl

theorem succeeds_of_isEmpty (h : b.chain.isEmpty = true) (s : StateStore Float32) :
    Succeeds (b.chain.run t.settings.params b.id) ⟨input, s⟩ ⟨input, s⟩ := by
  have hsteps : b.chain.steps = [] := List.isEmpty_iff.1 h
  rw [Chain.run_eq, hsteps]
  rfl

end Upload

/-! ### When nothing is heard -/

namespace UniformBinding

variable {b : UniformBinding}

theorem heard?_of_isEmpty (h : b.chain.isEmpty = true) : b.heard? = none := by
  unfold heard?
  split
  · rw [if_pos h]
  · rfl

theorem heard?_of_texture (h : b.texture = none) : b.heard? = none := by
  unfold heard?
  split
  · next htex =>
    rw [h] at htex
    cases htex
  · rfl

theorem heard?_of_kind (h : b.source.kind.isAudio = false) : b.heard? = none := by
  unfold heard?
  split
  · next hkind _ =>
    rw [hkind] at h
    cases h
  · rfl

theorem heard?_eq_some {channel : Channel} {texture : TextureId}
    (hkind : b.source.kind = .audio channel) (htex : b.texture = some texture)
    (hchain : b.chain.isEmpty = false) : b.heard? = some channel := by
  unfold heard?
  rw [hkind, htex, hchain]
  rfl

end UniformBinding

/-! ### The pieces of a tick -/

section Pieces

variable [GraphicsBackend σ] {t : TickInput} {all : List UniformBinding} {s₀ : StateStore Float32}
  {done rest : List UniformBinding} {b : UniformBinding} {previous : Option TextureId}

/-- Audio is uploaded alike. -/
theorem shadows_uploadAudio (hids : (all.map (·.id)).Nodup) (hcpu : b.mode = .cpu)
    (hr : t.refresh = true) {channel : Channel} (hkind : b.source.kind = .audio channel)
    {texture : TextureId} (htex : b.texture = some texture) (ordinal : Nat) :
    Shadows (Paired (Aligned t all s₀ done (b :: rest)))
      (uploadAudio t ordinal b texture (t.channel channel) : Action (Drawing σ) RenderError Unit)
      (Unshared.uploadAudio t ordinal b texture (t.channel channel))
      (Paired (Aligned t all s₀ (done ++ [b]) rest)) := by
  rintro d q log u d' log' ⟨hdev, hal⟩ h
  cases hempty : b.chain.isEmpty with
  | true =>
    rw [uploadAudio_of_isEmpty hcpu hempty] at h
    rw [Unshared.uploadAudio_eq (succeeds_of_isEmpty hempty _), Function.update_eq_self]
    have hidle := hal.idle (.inr (UniformBinding.heard?_of_isEmpty hempty))
    exact shadows_onBackend ordinal _ ⟨hdev, hidle⟩ h
  | false =>
    have hb := UniformBinding.heard?_eq_some hkind htex hempty
    rw [uploadAudio_of_steps hcpu hempty, Action.bind_apply] at h
    rcases hc : chainResult t b (t.channel channel) d log with ⟨⟨e | result, d₁⟩, log₁⟩
    · rw [hc] at h
      cases h
    · rw [hc] at h
      obtain ⟨rfl, ⟨hk, rfl⟩ | ⟨hk, s', hrun, rfl⟩⟩ := chainResult_ok hc
      · obtain ⟨own, hown, hal'⟩ := hal.reuse hids hr hb hk
        rw [Unshared.uploadAudio_eq hown]
        exact shadows_onBackend ordinal _ ⟨hdev, hal'⟩ h
      · obtain ⟨own, hown, hal'⟩ := hal.eval hids hr hb hk hrun
        have hpaired : Paired (Aligned t all s₀ (done ++ [b]) rest)
            { d with store := s', memo := d.memo.put b.source.kind b.chain result }
            { q with states := Function.update q.states b.id own } := ⟨hdev, hal'⟩
        rw [Unshared.uploadAudio_eq hown]
        exact shadows_onBackend ordinal _ hpaired h

omit [GraphicsBackend σ] in
theorem shadows_idle (hidle : t.refresh = false ∨ b.heard? = none) (x : α) :
    Shadows (Paired (Aligned t all s₀ done (b :: rest))) (pure x : Action (Drawing σ) RenderError α)
      (pure x) (Paired (Aligned t all s₀ (done ++ [b]) rest)) :=
  (Shadows.pure x).weaken (fun _ _ h => h) fun _ _ h => ⟨h.1, h.2.idle hidle⟩

theorem shadows_bindingValue? (hids : (all.map (·.id)).Nodup) (hcpu : b.mode = .cpu) (ordinal : Nat) :
    Shadows (Paired (Aligned t all s₀ done (b :: rest)))
      (bindingValue? t ordinal previous b : Action (Drawing σ) RenderError (Option UniformValue))
      (Unshared.bindingValue? t ordinal previous b)
      (Paired (Aligned t all s₀ (done ++ [b]) rest)) := by
  unfold bindingValue? Unshared.bindingValue?
  cases hkind : b.source.kind with
  | audio channel =>
    cases htex : b.texture with
    | none => exact shadows_idle (.inr (UniformBinding.heard?_of_texture htex)) _
    | some texture =>
      cases hr : t.refresh with
      | false => exact shadows_idle (.inl hr) _
      | true => exact (shadows_uploadAudio hids hcpu hr hkind htex ordinal).bind fun _ => .pure _
  | _ => exact shadows_idle (.inr (UniformBinding.heard?_of_kind (by rw [hkind]; rfl))) _

theorem shadows_fillBinding (hids : (all.map (·.id)).Nodup) (hcpu : ∀ b ∈ all, b.mode = .cpu)
    (ordinal : Nat) (b : UniformBinding) (done rest : List UniformBinding) :
    Shadows (Paired (Aligned t all s₀ done (b :: rest)))
      (fillBinding t ordinal previous b : Action (Drawing σ) RenderError Unit)
      (Unshared.fillBinding t ordinal previous b)
      (Paired (Aligned t all s₀ (done ++ [b]) rest)) := by
  intro d q log u d' log' hP
  have hb : b.mode = .cpu := hcpu b hP.2.mem_all
  refine Shadows.bind (shadows_bindingValue? hids hb ordinal) (fun value? => ?_) hP
  rcases value? with _ | value
  · exact .pure ()
  · rcases b.location with _ | location
    · exact .pure ()
    · exact shadows_onBackend ordinal _

theorem shadows_fillBindings (hids : (all.map (·.id)).Nodup) (hcpu : ∀ b ∈ all, b.mode = .cpu)
    (ordinal : Nat) (bs done rest : List UniformBinding) :
    Shadows (Paired (Aligned t all s₀ done (bs ++ rest)))
      (bs.forM (fillBinding t ordinal previous) : Action (Drawing σ) RenderError Unit)
      (bs.forM (Unshared.fillBinding t ordinal previous))
      (Paired (Aligned t all s₀ (done ++ bs) rest)) :=
  Shadows.forM (P := fun done rest => Paired (Aligned t all s₀ done rest))
    (shadows_fillBinding hids hcpu ordinal) bs done rest

theorem shadows_fillExternals {R : StatesRelation} (ordinal : Nat)
    (externals : List (Nat × UniformLocation)) :
    Shadows (Paired R) (externals.forM (fillExternal t ordinal) : Action (Drawing σ) RenderError Unit)
      (externals.forM (Unshared.fillExternal t ordinal)) (Paired R) := by
  refine Shadows.forM (P := fun _ _ => Paired R) (fun external _ _ => ?_) externals [] []
  unfold fillExternal Unshared.fillExternal
  rcases t.externals[external.1]? with _ | value
  · exact .pure ()
  · exact shadows_onBackend ordinal _

theorem shadows_drawStage (hids : (all.map (·.id)).Nodup) (hcpu : ∀ b ∈ all, b.mode = .cpu)
    (st : ShaderStage) (done rest : List UniformBinding) :
    Shadows (Paired (Aligned t all s₀ done (st.bindings ++ rest)))
      (drawStage t previous st : Action (Drawing σ) RenderError Unit)
      (Unshared.drawStage t previous st)
      (Paired (Aligned t all s₀ (done ++ st.bindings) rest)) := by
  have hfilled : Shadows (Paired (Aligned t all s₀ done (st.bindings ++ rest)))
      (do
        onBackend st.ordinal (GraphicsBackend.useProgram st.program)
        st.bindings.forM (fillBinding t st.ordinal previous)
        st.externals.forM (fillExternal t st.ordinal)
        onBackend st.ordinal GraphicsBackend.draw : Action (Drawing σ) RenderError Unit)
      (do
        Unshared.onBackend st.ordinal (GraphicsBackend.useProgram st.program)
        st.bindings.forM (Unshared.fillBinding t st.ordinal previous)
        st.externals.forM (Unshared.fillExternal t st.ordinal)
        Unshared.onBackend st.ordinal GraphicsBackend.draw)
      (Paired (Aligned t all s₀ (done ++ st.bindings) rest)) := by
    refine Shadows.bind (shadows_onBackend st.ordinal _) fun _ => ?_
    refine Shadows.bind (shadows_fillBindings hids hcpu st.ordinal st.bindings done rest) fun _ => ?_
    refine Shadows.bind (shadows_fillExternals st.ordinal st.externals) fun _ => ?_
    exact shadows_onBackend st.ordinal _
  refine Shadows.bind (shadows_onBackend st.ordinal _) fun _ => ?_
  cases t.settings.background with
  | none => exact hfilled
  | some color => exact Shadows.bind (shadows_onBackend st.ordinal _) fun _ => hfilled

/-- Each stage goes on from the bindings that those before it have filled. -/
theorem shadows_drawStages (hids : (all.map (·.id)).Nodup) (hcpu : ∀ b ∈ all, b.mode = .cpu) :
    ∀ (stages : List ShaderStage) (previous : Option TextureId) (done : List UniformBinding),
      Shadows (Paired (Aligned t all s₀ done (stages.flatMap (·.bindings))))
        (drawStages t previous stages : Action (Drawing σ) RenderError Unit)
        (Unshared.drawStages t previous stages)
        (Paired (Aligned t all s₀ (done ++ stages.flatMap (·.bindings)) []))
  | [], previous, done => by
    rw [List.flatMap_nil, List.append_nil]
    exact .pure ()
  | st :: stages, previous, done => by
    rw [List.flatMap_cons, ← List.append_assoc]
    exact (shadows_drawStage hids hcpu st done _).bind fun _ =>
      shadows_drawStages hids hcpu stages st.output (done ++ st.bindings)

end Pieces
end AudioShader
