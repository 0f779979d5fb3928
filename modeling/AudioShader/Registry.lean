/-
# Registries

A registry keeps at most one value for a key, in the order in which the keys
first came. It is what states, programs, textures and remembered results are
kept in.

Key definitions: `Registry`, `Registry.get?`, `Registry.put`, `Registry.erase`,
`Registry.filter`.
Key theorems: `Registry.get?_put_self`, `Registry.get?_put_ne`,
`Registry.get?_erase_self`, `Registry.get?_erase_ne`, `Registry.size_put_of_absent`.
-/

namespace AudioShader

/-- Replaces the value of a key in a list of pairs, or adds the pair at the end. -/
def putPair {κ β : Type} [DecidableEq κ] (k : κ) (v : β) : List (κ × β) → List (κ × β)
  | [] => [(k, v)]
  | (k', v') :: rest => if k' = k then (k, v) :: rest else (k', v') :: putPair k v rest

section Pairs

variable {κ β : Type} [DecidableEq κ]

theorem mem_keys_putPair (k : κ) (v : β) : ∀ (es : List (κ × β)) (x : κ),
    x ∈ (putPair k v es).map (·.1) ↔ x = k ∨ x ∈ es.map (·.1)
  | [], x => by simp [putPair]
  | (k', v') :: rest, x => by
    unfold putPair
    split
    · next h => subst h; simp
    · simp only [List.map_cons, List.mem_cons, mem_keys_putPair k v rest x]
      constructor
      · rintro (h | h | h) <;> simp [h]
      · rintro (h | h | h) <;> simp [h]

theorem nodup_putPair (k : κ) (v : β) : ∀ es : List (κ × β),
    (es.map (·.1)).Nodup → ((putPair k v es).map (·.1)).Nodup
  | [], _ => by simp [putPair]
  | (k', v') :: rest, h => by
    simp only [List.map_cons, List.nodup_cons] at h
    unfold putPair
    split
    · next hk => subst hk; simpa using h
    · next hk =>
      simp only [List.map_cons, List.nodup_cons, mem_keys_putPair]
      refine ⟨?_, nodup_putPair k v rest h.2⟩
      rintro (hc | hc)
      · exact hk hc
      · exact h.1 hc

end Pairs

/-- Values by key, in the order in which the keys first came. -/
structure Registry (κ β : Type) where
  entries : List (κ × β) := []
  nodup : (entries.map (·.1)).Nodup := by simp

namespace Registry

variable {κ β : Type}

theorem ext {r s : Registry κ β} (h : r.entries = s.entries) : r = s := by
  cases r; cases s; cases h; rfl

/-- The registry of no keys. -/
def empty : Registry κ β := {}

def size (r : Registry κ β) : Nat := r.entries.length

def isEmpty (r : Registry κ β) : Bool := r.entries.isEmpty

def keys (r : Registry κ β) : List κ := r.entries.map (·.1)

/-- The entries whose key passes a test. -/
def filter (p : κ → Bool) (r : Registry κ β) : Registry κ β where
  entries := r.entries.filter fun e => p e.1
  nodup := (r.nodup.sublist ((List.filter_sublist (l := r.entries)).map _))

variable [DecidableEq κ]

/-- The value of a key. -/
def get? (r : Registry κ β) (k : κ) : Option β := (r.entries.find? fun e => e.1 = k).map (·.2)

def contains (r : Registry κ β) (k : κ) : Bool := (r.get? k).isSome

/-- Sets the value of a key. -/
def put (r : Registry κ β) (k : κ) (v : β) : Registry κ β where
  entries := putPair k v r.entries
  nodup := nodup_putPair k v r.entries r.nodup

/-- Takes a key out. -/
def erase (r : Registry κ β) (k : κ) : Registry κ β := r.filter fun k' => k' ≠ k

/-! ### What each operation does to the values -/

@[simp] theorem get?_empty (k : κ) : (empty : Registry κ β).get? k = none := rfl

theorem find?_putPair_self (k : κ) (v : β) : ∀ es : List (κ × β),
    (putPair k v es).find? (fun e => e.1 = k) = some (k, v)
  | [] => by simp [putPair]
  | (k', v') :: rest => by
    unfold putPair
    split
    · simp
    · next h => simp [h, find?_putPair_self k v rest]

theorem find?_putPair_ne {k x : κ} (v : β) (hx : x ≠ k) : ∀ es : List (κ × β),
    (putPair k v es).find? (fun e => e.1 = x) = es.find? (fun e => e.1 = x)
  | [] => by simp [putPair, hx.symm]
  | (k', v') :: rest => by
    unfold putPair
    split
    · next h => subst h; simp [hx.symm]
    · by_cases hk : k' = x
      · simp [hk]
      · simp [hk, find?_putPair_ne v hx rest]

@[simp] theorem get?_put_self (r : Registry κ β) (k : κ) (v : β) : (r.put k v).get? k = some v := by
  simp [get?, put, find?_putPair_self]

theorem get?_put_ne (r : Registry κ β) {k x : κ} (v : β) (hx : x ≠ k) :
    (r.put k v).get? x = r.get? x := by
  simp [get?, put, find?_putPair_ne v hx]

theorem get?_put (r : Registry κ β) (k x : κ) (v : β) :
    (r.put k v).get? x = if x = k then some v else r.get? x := by
  split
  · next h => subst h; simp
  · next h => exact get?_put_ne r v h

theorem find?_filter_key (p : κ → Bool) (k : κ) : ∀ es : List (κ × β),
    (es.filter fun e => p e.1).find? (fun e => e.1 = k) =
      if p k then es.find? (fun e => e.1 = k) else none
  | [] => by simp
  | (k', v') :: rest => by
    have ih := find?_filter_key p k rest
    by_cases hp : p k' = true
    · by_cases hk : k' = k
      · subst hk; simp [hp]
      · simp [hp, hk, ih]
    · by_cases hk : k' = k
      · subst hk; simp [hp, ih]
      · simp [hp, hk, ih]

theorem get?_filter (r : Registry κ β) (p : κ → Bool) (k : κ) :
    (r.filter p).get? k = if p k then r.get? k else none := by
  simp only [get?, filter, find?_filter_key]
  split <;> rfl

@[simp] theorem get?_erase_self (r : Registry κ β) (k : κ) : (r.erase k).get? k = none := by
  simp [erase, get?_filter]

theorem get?_erase_ne (r : Registry κ β) {k x : κ} (hx : x ≠ k) :
    (r.erase k).get? x = r.get? x := by
  simp [erase, get?_filter, hx]

theorem length_putPair_of_absent (k : κ) (v : β) : ∀ es : List (κ × β),
    k ∉ es.map (·.1) → (putPair k v es).length = es.length + 1
  | [], _ => by simp [putPair]
  | (k', v') :: rest, h => by
    simp only [List.map_cons, List.mem_cons, not_or] at h
    simp [putPair, Ne.symm h.1, length_putPair_of_absent k v rest h.2]

theorem get?_eq_none_iff (r : Registry κ β) (k : κ) : r.get? k = none ↔ k ∉ r.keys := by
  simp only [get?, keys, Option.map_eq_none_iff, List.find?_eq_none, List.mem_map, not_exists,
    not_and, decide_eq_true_eq]

/-- A new key makes the registry one larger. -/
theorem size_put_of_absent (r : Registry κ β) (k : κ) (v : β) (h : r.get? k = none) :
    (r.put k v).size = r.size + 1 :=
  length_putPair_of_absent k v r.entries ((get?_eq_none_iff r k).1 h)

end Registry
end AudioShader
