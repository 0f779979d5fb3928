/-
# Keys of registries, and views of their values

Often only a part of the values matters, or the keys alone. A registry seen
through a function of its values keeps its keys, and each operation on it is
seen as the same operation.

Key definitions: `Registry.map`.
Key theorems: `Registry.map_put`, `Registry.map_put_self`, `Registry.keys_put_of_absent`,
`Registry.keys_erase`.
-/
import Mathlib.Data.List.Perm.Basic
import AudioShader.Registry

namespace AudioShader

variable {κ β γ : Type}

namespace Registry

/-- The registry with a function applied to its values. -/
def map (f : β → γ) (r : Registry κ β) : Registry κ γ where
  entries := r.entries.map fun e => (e.1, f e.2)
  nodup := by
    rw [List.map_map]
    exact r.nodup

@[simp] theorem keys_map (f : β → γ) (r : Registry κ β) : (r.map f).keys = r.keys := by
  rw [keys, map, List.map_map]
  rfl

@[simp] theorem size_map (f : β → γ) (r : Registry κ β) : (r.map f).size = r.size := List.length_map _

theorem size_eq_length_keys (r : Registry κ β) : r.size = r.keys.length := (List.length_map _).symm

theorem nodup_keys (r : Registry κ β) : r.keys.Nodup := r.nodup

variable [DecidableEq κ]

@[simp] theorem get?_map (f : β → γ) (r : Registry κ β) (k : κ) :
    (r.map f).get? k = (r.get? k).map f := by
  rw [get?, get?, map, List.find?_map, Option.map_map, Option.map_map]
  rfl

theorem isSome_get?_iff {r : Registry κ β} {k : κ} : (r.get? k).isSome ↔ k ∈ r.keys := by
  rw [← not_iff_not, ← r.get?_eq_none_iff k, Option.not_isSome_iff_eq_none]

theorem exists_get?_of_mem_keys {r : Registry κ β} {k : κ} (h : k ∈ r.keys) :
    ∃ v, r.get? k = some v := Option.isSome_iff_exists.1 (isSome_get?_iff.2 h)

theorem mem_keys_of_get? {r : Registry κ β} {k : κ} {v : β} (h : r.get? k = some v) : k ∈ r.keys :=
  isSome_get?_iff.1 (by rw [h]; rfl)

theorem putPair_map (f : β → γ) (k : κ) (v : β) : ∀ es : List (κ × β),
    (putPair k v es).map (fun e => (e.1, f e.2)) = putPair k (f v) (es.map fun e => (e.1, f e.2))
  | [] => rfl
  | (k', v') :: rest => by
    rw [putPair, List.map_cons, putPair]
    split
    · rfl
    · rw [List.map_cons, putPair_map f k v rest]

theorem map_put (f : β → γ) (r : Registry κ β) (k : κ) (v : β) :
    (r.put k v).map f = (r.map f).put k (f v) := ext (putPair_map f k v r.entries)

theorem putPair_self {k : κ} {v : β} : ∀ {es : List (κ × β)},
    (es.find? fun e => e.1 = k).map (·.2) = some v → putPair k v es = es
  | [], h => by cases h
  | (k', v') :: rest, h => by
    rw [putPair]
    split
    · next hk =>
      rw [List.find?_cons_of_pos (by simpa using hk)] at h
      cases h
      rw [hk]
    · next hk =>
      rw [List.find?_cons_of_neg (by simpa using hk)] at h
      rw [putPair_self h]

/-- To put what is there already changes nothing. -/
theorem put_self {r : Registry κ β} {k : κ} {v : β} (h : r.get? k = some v) : r.put k v = r :=
  ext (putPair_self h)

/-- A change of a value that the view does not show. -/
theorem map_put_self (f : β → γ) {r : Registry κ β} {k : κ} {v v' : β} (h : r.get? k = some v)
    (hf : f v' = f v) : (r.put k v').map f = r.map f := by
  rw [map_put, hf]
  exact put_self (by rw [get?_map, h]; rfl)

theorem map_erase (f : β → γ) (r : Registry κ β) (k : κ) :
    (r.erase k).map f = (r.map f).erase k := by
  refine ext ?_
  show (r.entries.filter _).map _ = (r.entries.map _).filter _
  rw [List.filter_map]
  rfl

theorem putPair_of_absent (k : κ) (v : β) : ∀ {es : List (κ × β)}, k ∉ es.map (·.1) →
    putPair k v es = es ++ [(k, v)]
  | [], _ => rfl
  | (k', v') :: rest, h => by
    rw [List.map_cons, List.mem_cons, not_or] at h
    rw [putPair, if_neg (Ne.symm h.1), putPair_of_absent k v h.2]
    rfl

/-- A new key stands behind the others. -/
theorem keys_put_of_absent {r : Registry κ β} {k : κ} (v : β) (h : k ∉ r.keys) :
    (r.put k v).keys = r.keys ++ [k] := by
  show (putPair k v r.entries).map (·.1) = _
  rw [putPair_of_absent k v h, List.map_append]
  rfl

theorem keys_erase (r : Registry κ β) (k : κ) : (r.erase k).keys = r.keys.filter (· ≠ k) := by
  show ((r.entries.filter _).map _) = (r.entries.map _).filter _
  rw [List.filter_map]
  rfl

theorem keys_put_perm {r : Registry κ β} {k : κ} (v : β) (hk : k ∉ r.keys) {ks : List κ}
    (h : r.keys.Perm ks) : (r.put k v).keys.Perm (k :: ks) := by
  rw [keys_put_of_absent v hk]
  exact (List.perm_append_singleton ..).trans (h.cons k)

theorem mem_keys_put {r : Registry κ β} {k x : κ} {v : β} :
    x ∈ (r.put k v).keys ↔ x = k ∨ x ∈ r.keys := mem_keys_putPair k v r.entries x

theorem mem_of_mem_keys_erase {r : Registry κ β} {k x : κ} (h : x ∈ (r.erase k).keys) :
    x ∈ r.keys := by
  rw [keys_erase] at h
  exact List.mem_of_mem_filter h

theorem mem_keys_erase_of_ne {r : Registry κ β} {k x : κ} (hx : x ≠ k) (h : x ∈ r.keys) :
    x ∈ (r.erase k).keys := by
  rw [keys_erase]
  exact List.mem_filter.2 ⟨h, by simpa using hx⟩

theorem get?_put_cases {r : Registry κ β} {k x : κ} {v w : β} (h : (r.put k v).get? x = some w) :
    x = k ∧ w = v ∨ x ≠ k ∧ r.get? x = some w := by
  rw [get?_put] at h
  split at h
  · next hx => exact .inl ⟨hx, (Option.some.inj h).symm⟩
  · next hx => exact .inr ⟨hx, h⟩

theorem get?_of_get?_erase {r : Registry κ β} {k x : κ} {w : β} (h : (r.erase k).get? x = some w) :
    x ≠ k ∧ r.get? x = some w := by
  have hx : x ≠ k := by
    rintro rfl
    rw [get?_erase_self] at h
    cases h
  exact ⟨hx, (get?_erase_ne r hx).symm.trans h⟩

/-- The keys that are left when the first of some is taken out. -/
theorem keys_erase_perm {r : Registry κ β} {k : κ} {ks : List κ} (h : r.keys.Perm (k :: ks)) :
    (r.erase k).keys.Perm ks := by
  have hnodup : (k :: ks).Nodup := h.nodup_iff.1 r.nodup_keys
  have hks : ks.filter (· ≠ k) = ks := by
    rw [List.filter_eq_self]
    intro x hx
    have : x ≠ k := fun heq => (List.nodup_cons.1 hnodup).1 (heq ▸ hx)
    simpa using this
  rw [keys_erase]
  refine (h.filter _).trans ?_
  rw [List.filter_cons_of_neg (by simp), hks]

end Registry
end AudioShader
