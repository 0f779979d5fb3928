/-
# Which chains a tick evaluates

Going over the bindings of a pipeline in order, a tick evaluates a chain only if
the memo does not know what it gives on its source; what it gives is noted. So
each pair of a source and a chain is evaluated at most once, and exactly the
pairs that some binding asks for are.

Key definitions: `UniformBinding.heard?`, `UniformBinding.key`, `Evaluates`.
Key theorems: `Evaluates.nodup`, `Evaluates.size_eq`, `Evaluates.mem_iff`.
-/
import Mathlib.Data.List.Nodup
import AudioShader.Pipeline.Tick
import AudioShader.Proofs.Signal.View

namespace AudioShader

/-- The bindings of all stages, in the order in which they are filled. -/
def Pipeline.bindings (p : Pipeline) : List UniformBinding := p.stages.flatMap (·.bindings)

namespace UniformBinding

/-- The channel that the chain of a binding is run on; none if nothing is
uploaded for the binding or its chain is empty. -/
def heard? (b : UniformBinding) : Option Channel :=
  match b.source.kind, b.texture with
  | .audio channel, some _ => if b.chain.isEmpty then none else some channel
  | _, _ => none

/-- What the memo knows a binding by. -/
def key (b : UniformBinding) : SourceKind × Chain := (b.source.kind, b.chain)

theorem kind_of_heard? {b : UniformBinding} {channel : Channel} (h : b.heard? = some channel) :
    b.source.kind = .audio channel := by
  unfold heard? at h
  split at h
  · next c _ hkind _ =>
    split at h
    · cases h
    · cases h
      exact hkind
  · cases h

end UniformBinding

/-- What the memo knows of a pair of a source and a chain. -/
def ChainMemo.known? (m : ChainMemo SourceKind Float32) (key : SourceKind × Chain) :
    Option (List Float32) :=
  m.get? key.1 key.2

theorem ChainMemo.known?_put (m : ChainMemo SourceKind Float32) (key k : SourceKind × Chain)
    (result : List Float32) :
    (m.put key.1 key.2 result).known? k = if k = key then some result else m.known? k :=
  Registry.get?_put m.results key k result

theorem ChainMemo.known?_empty (key : SourceKind × Chain) :
    ({} : ChainMemo SourceKind Float32).known? key = none := rfl

/-- A tick goes over bindings, from the states `s₀` and without results: the
pairs whose chains it evaluates, in order, and the states and the memo then. -/
inductive Evaluates (t : TickInput) (s₀ : StateStore Float32) : List UniformBinding →
    List (SourceKind × Chain) → StateStore Float32 → ChainMemo SourceKind Float32 → Prop
  | start : Evaluates t s₀ [] [] s₀ {}
  /-- No chain is asked for. -/
  | idle {done evals s m} {b : UniformBinding} (before : Evaluates t s₀ done evals s m)
    (h : t.refresh = false ∨ b.heard? = none) : Evaluates t s₀ (done ++ [b]) evals s m
  /-- The result is known. -/
  | reuse {done evals s m} {b : UniformBinding} {channel : Channel} {result : List Float32}
    (before : Evaluates t s₀ done evals s m) (hr : t.refresh = true) (hb : b.heard? = some channel)
    (known : m.known? b.key = some result) : Evaluates t s₀ (done ++ [b]) evals s m
  /-- The chain is run on the channel, and its result noted. -/
  | eval {done evals s s' m} {b : UniformBinding} {channel : Channel} {result : List Float32}
    (before : Evaluates t s₀ done evals s m) (hr : t.refresh = true) (hb : b.heard? = some channel)
    (unknown : m.known? b.key = none)
    (run : Succeeds (b.chain.run t.settings.params b.id) ⟨t.channel channel, s⟩ ⟨result, s'⟩) :
    Evaluates t s₀ (done ++ [b]) (evals ++ [b.key]) s' (m.put b.source.kind b.chain result)

namespace Evaluates

variable {t : TickInput} {s₀ s : StateStore Float32} {done : List UniformBinding}
  {evals : List (SourceKind × Chain)} {m : ChainMemo SourceKind Float32}

/-- The memo knows what was evaluated. -/
theorem known_iff (h : Evaluates t s₀ done evals s m) (key : SourceKind × Chain) :
    (m.known? key).isSome = true ↔ key ∈ evals := by
  induction h with
  | start => simp [ChainMemo.known?_empty]
  | idle _ _ ih => exact ih
  | reuse _ _ _ _ ih => exact ih
  | @eval done evals s s' m b channel result _ _ _ _ _ ih =>
    have hput := m.known?_put b.key key result
    rw [UniformBinding.key] at hput
    rw [hput, List.mem_append, List.mem_singleton, ← ih]
    by_cases hk : key = (b.source.kind, b.chain)
    · rw [if_pos hk]
      exact ⟨fun _ => .inr hk, fun _ => rfl⟩
    · rw [if_neg hk]
      exact ⟨.inl, fun h => h.resolve_right hk⟩

theorem known?_eq_none (h : Evaluates t s₀ done evals s m) (key : SourceKind × Chain) :
    m.known? key = none ↔ key ∉ evals := by
  rw [← h.known_iff, Bool.not_eq_true, Option.isSome_eq_false_iff, Option.isNone_iff_eq_none]

/-- No pair is evaluated twice. -/
theorem nodup (h : Evaluates t s₀ done evals s m) : evals.Nodup := by
  induction h with
  | start => exact List.nodup_nil
  | idle _ _ ih => exact ih
  | reuse _ _ _ _ ih => exact ih
  | @eval done evals s s' m b channel result hbefore _ _ hunknown _ ih =>
    rw [← List.concat_eq_append]
    exact ih.concat ((hbefore.known?_eq_none _).1 hunknown)

/-- The memo has a result for each evaluation. -/
theorem size_eq (h : Evaluates t s₀ done evals s m) : m.size = evals.length := by
  induction h with
  | start => rfl
  | idle _ _ ih => exact ih
  | reuse _ _ _ _ ih => exact ih
  | eval _ _ _ hunknown _ ih =>
    rw [List.length_append, List.length_singleton, ← ih]
    exact Registry.size_put_of_absent _ _ _ hunknown

/-- What is asked for by some of more bindings. -/
theorem exists_asked_concat (done : List UniformBinding) (b : UniformBinding)
    (key : SourceKind × Chain) :
    (∃ c ∈ done ++ [b], c.heard?.isSome = true ∧ c.key = key) ↔
      (∃ c ∈ done, c.heard?.isSome = true ∧ c.key = key) ∨ b.heard?.isSome = true ∧ b.key = key := by
  simp only [List.mem_append, List.mem_singleton, or_and_right, exists_or, exists_eq_left]

/-- Evaluated is what some binding asks for. -/
theorem mem_iff (h : Evaluates t s₀ done evals s m) (key : SourceKind × Chain) :
    key ∈ evals ↔ t.refresh = true ∧ ∃ b ∈ done, b.heard?.isSome = true ∧ b.key = key := by
  induction h with
  | start => simp
  | idle _ hidle ih =>
    rw [ih, exists_asked_concat]
    rcases hidle with hidle | hidle <;> simp [hidle]
  | @reuse done evals s m b channel result hbefore hr hb hknown ih =>
    rw [ih, exists_asked_concat]
    constructor
    · exact fun ⟨hr, h⟩ => ⟨hr, .inl h⟩
    · rintro ⟨hr, h | ⟨-, rfl⟩⟩
      · exact ⟨hr, h⟩
      · refine ih.1 ((hbefore.known_iff _).1 ?_)
        rw [hknown]
        rfl
  | @eval done evals s s' m b channel result _ hr hb _ _ ih =>
    rw [List.mem_append, List.mem_singleton, ih, exists_asked_concat]
    constructor
    · rintro (⟨hr, h⟩ | rfl)
      · exact ⟨hr, .inl h⟩
      · exact ⟨hr, .inr ⟨by rw [hb]; rfl, rfl⟩⟩
    · rintro ⟨hr, h | ⟨-, hk⟩⟩
      · exact .inl ⟨hr, h⟩
      · exact .inr hk.symm

end Evaluates
end AudioShader
