/-
# Sharing states is as good as having one's own

Bindings that ask for the same chain on the same source share the states of the
first of them. A binding with states of its own would have the same ones: before
and after every tick its states are those of the first binding that asks for the
same, and within a tick running its chain on them gives what the memo knows.

Key definitions: `leader?`, `Aligned`.
Key theorems: `Aligned.idle`, `Aligned.reuse`, `Aligned.eval`.
-/
import AudioShader.Proofs.Pipeline.Trace

namespace AudioShader

/-- The first binding that asks for what a binding asks for. -/
def leader? (all : List UniformBinding) (b : UniformBinding) : Option UniformBinding :=
  all.find? fun c => c.heard?.isSome && c.key = b.key

theorem leader?_congr {all : List UniformBinding} {b c : UniformBinding} (h : b.key = c.key) :
    leader? all b = leader? all c := by
  rw [leader?, leader?, h]

theorem key_of_leader? {all : List UniformBinding} {b ℓ : UniformBinding}
    (h : leader? all b = some ℓ) : ℓ ∈ all ∧ ℓ.key = b.key := by
  have hp := List.find?_some h
  rw [Bool.and_eq_true, decide_eq_true_eq] at hp
  exact ⟨List.mem_of_find?_eq_some h, hp.2⟩

theorem exists_leader {all : List UniformBinding} {b : UniformBinding} (hb : b ∈ all)
    (hh : b.heard?.isSome = true) : ∃ ℓ, leader? all b = some ℓ := by
  rw [← Option.isSome_iff_exists, leader?, List.find?_isSome]
  exact ⟨b, hb, by simp [hh]⟩

/-- The bindings `done` of a tick are filled, those of `rest` are to come. The
states of each binding that is filled are those of its leader. A binding that is
to come gives what the memo knows and then comes to the states of its leader; if
the memo knows nothing, its states are still those of its leader. -/
structure Aligned (t : TickInput) (all : List UniformBinding) (s₀ : StateStore Float32)
    (done rest : List UniformBinding) (s : StateStore Float32)
    (m : ChainMemo SourceKind Float32) (states : BindingId → StateStore Float32) : Prop where
  split : all = done ++ rest
  trace : ∃ evals, Evaluates t s₀ done evals s m
  filled : ∀ b ∈ done, b.heard?.isSome = true → ∀ ℓ, leader? all b = some ℓ →
    (states b.id).view b.id = s.view ℓ.id
  unknown : ∀ b ∈ rest, b.heard?.isSome = true → m.known? b.key = none →
    ∀ ℓ, leader? all b = some ℓ → (states b.id).view b.id = s.view ℓ.id
  known : ∀ b ∈ rest, ∀ channel, b.heard? = some channel → ∀ result, m.known? b.key = some result →
    ∀ ℓ, leader? all b = some ℓ →
      ran? t.settings.params 0 b.chain.steps ((states b.id).view b.id) (t.channel channel) =
        some (s.view ℓ.id, result)

namespace Aligned

variable {t : TickInput} {all done rest : List UniformBinding} {s₀ s : StateStore Float32}
  {m : ChainMemo SourceKind Float32} {states : BindingId → StateStore Float32} {b : UniformBinding}

/-- Nothing is known at the start of a tick. -/
theorem start (h : ∀ b ∈ all, b.heard?.isSome = true → ∀ ℓ, leader? all b = some ℓ →
    (states b.id).view b.id = s₀.view ℓ.id) : Aligned t all s₀ [] all s₀ {} states where
  split := rfl
  trace := ⟨[], .start⟩
  filled b hb := by cases hb
  unknown b hb hh _ := h b hb hh
  known b _ channel _ result hk := by
    rw [ChainMemo.known?_empty] at hk
    cases hk

/-- A binding for which no chain is run changes nothing. -/
theorem idle (h : Aligned t all s₀ done (b :: rest) s m states)
    (hidle : t.refresh = false ∨ b.heard? = none) :
    Aligned t all s₀ (done ++ [b]) rest s m states where
  split := by rw [h.split, List.append_assoc, List.singleton_append]
  trace := by
    obtain ⟨evals, htrace⟩ := h.trace
    exact ⟨evals, .idle htrace hidle⟩
  filled c hc hh ℓ hℓ := by
    rcases List.mem_append.1 hc with hc | hc
    · exact h.filled c hc hh ℓ hℓ
    · rw [List.mem_singleton.1 hc] at hh hℓ ⊢
      rcases hidle with hidle | hidle
      · -- a tick that does not upload evaluates nothing
        obtain ⟨evals, htrace⟩ := h.trace
        refine h.unknown b (List.mem_cons_self ..) hh ?_ ℓ hℓ
        rw [htrace.known?_eq_none, htrace.mem_iff, hidle]
        exact fun hm => Bool.false_ne_true hm.1
      · rw [hidle] at hh
        cases hh
  unknown c hc := h.unknown c (List.mem_cons_of_mem _ hc)
  known c hc := h.known c (List.mem_cons_of_mem _ hc)

section Ids

variable (hids : (all.map (·.id)).Nodup)
include hids

/-- Bindings that are filled before or after a binding have other numbers. -/
theorem id_ne (h : Aligned t all s₀ done (b :: rest) s m states) {c : UniformBinding}
    (hc : c ∈ done ∨ c ∈ rest) : c.id ≠ b.id := by
  rw [h.split, List.map_append, List.map_cons, List.nodup_append] at hids
  obtain ⟨-, hback, hfront⟩ := hids
  rw [List.nodup_cons] at hback
  rcases hc with hc | hc
  · exact hfront c.id (List.mem_map_of_mem hc) b.id (List.mem_cons_self ..)
  · intro he
    exact hback.1 (List.mem_map.2 ⟨c, hc, he⟩)

omit hids in
theorem mem_all (h : Aligned t all s₀ done (b :: rest) s m states) : b ∈ all := by
  rw [h.split]
  exact List.mem_append_right _ (List.mem_cons_self ..)

/-- The states of all other bindings stay when a binding runs on its own ones. -/
theorem update_other (h : Aligned t all s₀ done (b :: rest) s m states)
    (own : StateStore Float32) {c : UniformBinding} (hc : c ∈ done ∨ c ∈ rest) :
    Function.update states b.id own c.id = states c.id :=
  Function.update_of_ne (h.id_ne hids hc) _ _

/-- If the memo knows what a binding asks for, its own states give the same, and
come to be those of its leader. -/
theorem reuse (h : Aligned t all s₀ done (b :: rest) s m states) (hr : t.refresh = true)
    {channel : Channel} (hb : b.heard? = some channel) {result : List Float32}
    (hk : m.known? b.key = some result) : ∃ own,
      Succeeds (b.chain.run t.settings.params b.id) ⟨t.channel channel, states b.id⟩ ⟨result, own⟩ ∧
      Aligned t all s₀ (done ++ [b]) rest s m (Function.update states b.id own) := by
  have hh : b.heard?.isSome = true := by rw [hb]; rfl
  obtain ⟨ℓ, hℓ⟩ := exists_leader h.mem_all hh
  have hran := h.known b (List.mem_cons_self ..) channel hb result hk ℓ hℓ
  obtain ⟨own, hown, hview⟩ := succeeds_of_view hran
  refine ⟨own, by rw [Chain.run_eq]; exact hown, ?_, ?_, ?_, ?_, ?_⟩
  · rw [h.split, List.append_assoc, List.singleton_append]
  · obtain ⟨evals, htrace⟩ := h.trace
    exact ⟨evals, .reuse htrace hr hb hk⟩
  · intro c hc hch ℓ' hℓ'
    rcases List.mem_append.1 hc with hc | hc
    · rw [h.update_other hids own (.inl hc)]
      exact h.filled c hc hch ℓ' hℓ'
    · rw [List.mem_singleton.1 hc] at hℓ' ⊢
      rw [hℓ] at hℓ'
      cases hℓ'
      rw [Function.update_self, hview]
  · intro c hc
    rw [h.update_other hids own (.inr hc)]
    exact h.unknown c (List.mem_cons_of_mem _ hc)
  · intro c hc
    rw [h.update_other hids own (.inr hc)]
    exact h.known c (List.mem_cons_of_mem _ hc)

omit hids in
/-- The first binding that asks for something unknown is its own leader. -/
theorem leader_self (h : Aligned t all s₀ done (b :: rest) s m states) (hr : t.refresh = true)
    (hh : b.heard?.isSome = true) (hk : m.known? b.key = none) :
    (∀ c ∈ done, c.heard?.isSome = true → c.key ≠ b.key) ∧ leader? all b = some b := by
  obtain ⟨evals, htrace⟩ := h.trace
  have hfirst : ∀ c ∈ done, c.heard?.isSome = true → c.key ≠ b.key := by
    intro c hc hch he
    exact (htrace.known?_eq_none _).1 hk ((htrace.mem_iff _).2 ⟨hr, c, hc, hch, he⟩)
  refine ⟨hfirst, ?_⟩
  have hnone : done.find? (fun c => c.heard?.isSome && decide (c.key = b.key)) = none := by
    rw [List.find?_eq_none]
    intro c hc hp
    rw [Bool.and_eq_true, decide_eq_true_eq] at hp
    exact hfirst c hc hp.1 hp.2
  rw [leader?, h.split, List.find?_append, hnone, List.find?_cons_of_pos (by simp [hh])]
  rfl

/-- What an evaluation for a binding leaves as the states of other leaders. -/
theorem view_leader (h : Aligned t all s₀ done (b :: rest) s m states) {s' : StateStore Float32}
    (hothers : ∀ id, id ≠ b.id → s'.view id = s.view id) {c ℓ : UniformBinding}
    (hℓ : leader? all c = some ℓ) (hne : c.key ≠ b.key) : s'.view ℓ.id = s.view ℓ.id := by
  obtain ⟨hmem, hkey⟩ := key_of_leader? hℓ
  refine hothers ℓ.id fun he => hne ?_
  have hsame : ℓ = b := List.inj_on_of_nodup_map hids hmem h.mem_all he
  rw [← hkey, hsame]

/-- If the memo knows nothing of what a binding asks for, the binding is its own
leader, and its own states give what the evaluation gives. -/
theorem eval (h : Aligned t all s₀ done (b :: rest) s m states) (hr : t.refresh = true)
    {channel : Channel} (hb : b.heard? = some channel) (hk : m.known? b.key = none)
    {result : List Float32} {s' : StateStore Float32}
    (hrun : Succeeds (b.chain.run t.settings.params b.id) ⟨t.channel channel, s⟩ ⟨result, s'⟩) :
    ∃ own,
      Succeeds (b.chain.run t.settings.params b.id) ⟨t.channel channel, states b.id⟩ ⟨result, own⟩ ∧
      Aligned t all s₀ (done ++ [b]) rest s' (m.put b.source.kind b.chain result)
        (Function.update states b.id own) := by
  have hh : b.heard?.isSome = true := by rw [hb]; rfl
  obtain ⟨hfirst, hself⟩ := h.leader_self hr hh hk
  have hstates := h.unknown b (List.mem_cons_self ..) hh hk b hself
  have hput := fun key => m.known?_put b.key key result
  rw [UniformBinding.key] at hput
  have hrun' := hrun
  rw [Chain.run_eq] at hrun'
  obtain ⟨hran, hothers⟩ := view_of_succeeds hrun'
  have hran' := hran
  rw [← hstates] at hran'
  obtain ⟨own, hown, hview⟩ := succeeds_of_view hran'
  refine ⟨own, by rw [Chain.run_eq]; exact hown, ?_, ?_, ?_, ?_, ?_⟩
  · rw [h.split, List.append_assoc, List.singleton_append]
  · obtain ⟨evals, htrace⟩ := h.trace
    exact ⟨_, .eval htrace hr hb hk hrun⟩
  · intro c hc hch ℓ hℓ
    rcases List.mem_append.1 hc with hc | hc
    · rw [h.update_other hids own (.inl hc), h.view_leader hids hothers hℓ (hfirst c hc hch)]
      exact h.filled c hc hch ℓ hℓ
    · rw [List.mem_singleton.1 hc] at hℓ ⊢
      rw [hself] at hℓ
      cases hℓ
      rw [Function.update_self, hview]
  · intro c hc hch hck ℓ hℓ
    rw [hput] at hck
    split at hck
    · cases hck
    · next hne =>
      rw [h.update_other hids own (.inr hc), h.view_leader hids hothers hℓ hne]
      exact h.unknown c (List.mem_cons_of_mem _ hc) hch hck ℓ hℓ
  · intro c hc channel' hch r hck ℓ hℓ
    rw [hput] at hck
    rw [h.update_other hids own (.inr hc)]
    split at hck
    · next he =>
      -- the same chain, on the same channel, from the states of the same leader
      cases hck
      have he : c.key = b.key := he
      have hchh : c.heard?.isSome = true := by rw [hch]; rfl
      rw [leader?_congr he, hself] at hℓ
      cases hℓ
      have hstates' := h.unknown c (List.mem_cons_of_mem _ hc) hchh (by rw [he]; exact hk) b
        (by rw [leader?_congr he, hself])
      have hchain : c.chain = b.chain := congrArg Prod.snd he
      have hkind : c.source.kind = b.source.kind := congrArg Prod.fst he
      rw [UniformBinding.kind_of_heard? hch, UniformBinding.kind_of_heard? hb] at hkind
      cases hkind
      rw [hstates', hchain]
      exact hran
    · next hne =>
      rw [h.view_leader hids hothers hℓ hne]
      exact h.known c (List.mem_cons_of_mem _ hc) channel' hch r hck ℓ hℓ

end Ids

end Aligned
end AudioShader
