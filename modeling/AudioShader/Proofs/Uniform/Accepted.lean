/-
# Values from outside have their types

A text that is decoded for a type gives a value that fits the type. So the value
of each declaration fits the type it was declared with, at first and after every
update that is accepted.

Key definitions: `ExternalValues.Typed`.
Key theorems: `fits_of_decodeValue`, `ExternalValues.typed_ofBinds`,
`ExternalValues.Typed.set`.
-/
import AudioShader.Uniform.External

namespace AudioShader

/-- The components that are read are as many as are wanted. -/
theorem length_of_readComponents {want : Nat} {s : String} {xs : List Float32}
    (h : readComponents want s = .ok xs) : xs.length = want := by
  have hrest : ∀ (isColor : Bool) (read : Except DecodeFault (List Float32)),
      (do
        let found ← read
        if found.length = want ∨ (isColor = true ∧ want < found.length) then return found.take want
        else throw (.components want found.length) : Except DecodeFault _) = .ok xs →
      xs.length = want := by
    intro isColor read hread
    cases read with
    | error fault => cases hread
    | ok found =>
      simp only [bind, Except.bind] at hread
      split at hread
      · cases hread
        rw [List.length_take]
        omega
      · cases hread
  unfold readComponents at h
  dsimp only at h
  split at h
  · exact hrest _ _ h
  · exact hrest _ _ h

theorem fits_vectorOf {t : BindType} (ht : t = .vec2 ∨ t = .vec3 ∨ t = .vec4) {xs : List Float32}
    (h : xs.length = t.components) : (vectorOf xs).fits (.ofBind t) = true := by
  rcases ht with rfl | rfl | rfl
  · match xs, h with
    | [_, _], _ => rfl
  · match xs, h with
    | [_, _, _], _ => rfl
  · match xs, h with
    | [_, _, _, _], _ => rfl

theorem fits_zeroOf (t : BindType) : (zeroOf t).fits (.ofBind t) = true :=
  UniformValue.fits_of_zero? (zero?_ofBind t)

theorem fits_of_readValue {t : BindType} {s : String} {v : UniformValue}
    (h : readValue t s = .ok v) : v.fits (.ofBind t) = true := by
  have hvector : t = .vec2 ∨ t = .vec3 ∨ t = .vec4 →
      (readComponents t.components s).map vectorOf = .ok v → v.fits (.ofBind t) = true := by
    intro ht hv
    cases hc : readComponents t.components s with
    | error e =>
      rw [hc] at hv
      cases hv
    | ok xs =>
      rw [hc] at hv
      cases hv
      exact fits_vectorOf ht (length_of_readComponents hc)
  cases t with
  | float =>
    unfold readValue at h
    dsimp only at h
    split at h
    · cases h
      rfl
    · cases h
  | int =>
    unfold readValue at h
    dsimp only at h
    split at h
    · cases h
      rfl
    · cases h
  | bool =>
    unfold readValue at h
    dsimp only at h
    cases hb : readBool s with
    | error e =>
      rw [hb] at h
      cases h
    | ok b =>
      rw [hb] at h
      cases h
      rfl
  | vec2 => exact hvector (.inl rfl) h
  | vec3 => exact hvector (.inr (.inl rfl)) h
  | vec4 => exact hvector (.inr (.inr rfl)) h

/-- A value that is decoded for a type fits it. -/
theorem fits_of_decodeValue {name text : String} {t : BindType} {v : UniformValue}
    (h : decodeValue name t text = .ok v) : v.fits (.ofBind t) = true := by
  unfold decodeValue at h
  split at h
  · next hv =>
    cases h
    exact fits_of_readValue hv
  · cases h

namespace ExternalValues

/-- Each value fits the type of its declaration. -/
structure Typed (binds : List BindDecl) (e : ExternalValues) : Prop where
  types : e.slots.map (·.type) = binds.map (·.type)
  fits : ∀ s ∈ e.slots, s.value.fits (.ofBind s.type) = true

theorem type_of_slotOf {b : BindDecl} {s : Slot} (h : slotOf b = .ok s) :
    s.type = b.type ∧ s.value.fits (.ofBind s.type) = true := by
  unfold slotOf at h
  split at h
  · next text _ =>
    cases hv : decodeValue b.name b.type text with
    | error e =>
      rw [hv] at h
      cases h
    | ok v =>
      rw [hv] at h
      cases h
      exact ⟨rfl, fits_of_decodeValue hv⟩
  · cases h
    exact ⟨rfl, fits_zeroOf b.type⟩

theorem typed_of_mapM : ∀ {binds : List BindDecl} {slots : List Slot},
    binds.mapM slotOf = .ok slots → Typed binds ⟨slots⟩
  | [], slots, h => by
    cases h
    exact ⟨rfl, fun s hs => nomatch hs⟩
  | b :: binds, slots, h => by
    rw [List.mapM_cons] at h
    cases hs : slotOf b with
    | error e =>
      rw [hs] at h
      cases h
    | ok s =>
      cases hrest : binds.mapM slotOf with
      | error e =>
        rw [hs, hrest] at h
        cases h
      | ok rest =>
        rw [hs, hrest] at h
        cases h
        obtain ⟨htype, hfits⟩ := type_of_slotOf hs
        obtain ⟨htypes, hall⟩ := typed_of_mapM hrest
        exact ⟨by simp only [List.map_cons, htype, htypes], List.forall_mem_cons.2 ⟨hfits, hall⟩⟩

/-- The first values of declarations have their types. -/
theorem typed_ofBinds {binds : List BindDecl} {e : ExternalValues} (h : ofBinds binds = .ok e) :
    Typed binds e := by
  unfold ofBinds at h
  cases hslots : binds.mapM slotOf with
  | error error =>
    rw [hslots] at h
    cases h
  | ok slots =>
    rw [hslots] at h
    cases h
    exact typed_of_mapM hslots

theorem map_type_replace (name : String) (value : UniformValue) : ∀ slots : List Slot,
    (replace name value slots).map (·.type) = slots.map (·.type)
  | [] => rfl
  | s :: ss => by
    rw [replace]
    split
    · rfl
    · rw [List.map_cons, List.map_cons, map_type_replace name value ss]

/-- Of the slots only the first one of the name gets the value. -/
theorem mem_replace {name : String} {value : UniformValue} : ∀ {slots : List Slot} {s : Slot},
    s ∈ replace name value slots → s ∈ slots ∨
      ∃ s', slots.find? (fun x => x.name == name) = some s' ∧ s = { s' with value }
  | [], s, h => .inl h
  | x :: xs, s, h => by
    rw [replace] at h
    split at h
    · next hx =>
      rcases List.mem_cons.1 h with rfl | h
      · exact .inr ⟨x, List.find?_cons_of_pos (by simpa using hx), rfl⟩
      · exact .inl (List.mem_cons_of_mem _ h)
    · next hx =>
      rcases List.mem_cons.1 h with rfl | h
      · exact .inl (List.mem_cons_self ..)
      · rw [List.find?_cons_of_neg (by simpa using hx)]
        exact (mem_replace h).imp_left (List.mem_cons_of_mem _)

/-- An update that is accepted leaves all values with their types. -/
theorem Typed.set {binds : List BindDecl} {e e' : ExternalValues} (h : Typed binds e)
    {name text : String} (hset : e.set name text = .ok e') : Typed binds e' := by
  unfold ExternalValues.set at hset
  split at hset
  · cases hset
  · next slot hslot =>
    cases hv : decodeValue name slot.type text with
    | error error =>
      rw [hv] at hset
      cases hset
    | ok value =>
      rw [hv] at hset
      cases hset
      refine ⟨(map_type_replace name value e.slots).trans h.types, fun s hs => ?_⟩
      rcases mem_replace hs with hs | ⟨s', hs', rfl⟩
      · exact h.fits s hs
      · cases hslot.symm.trans hs'
        exact fits_of_decodeValue hv

/-- The value at the place of a declaration fits its type. -/
theorem Typed.fits_getElem? {binds : List BindDecl} {e : ExternalValues} (h : Typed binds e)
    {i : Nat} {d : BindDecl} (hd : binds[i]? = some d) {v : UniformValue}
    (hv : e.values[i]? = some v) : v.fits (.ofBind d.type) = true := by
  rw [values, List.getElem?_map, Option.map_eq_some_iff] at hv
  obtain ⟨s, hs, rfl⟩ := hv
  have htype := congrArg (fun types => types[i]?) h.types
  simp only [List.getElem?_map, hs, hd, Option.map_some, Option.some.injEq] at htype
  rw [← htype]
  exact h.fits s (List.mem_of_getElem? hs)

end ExternalValues
end AudioShader
