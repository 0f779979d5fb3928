/-
# Each name has the value that was accepted for it last

An update names a declaration and brings a text. It is accepted if there is such
a declaration and the text decodes for its type; then it changes the slot of the
declaration and no other one. So after any updates the slots are told by the
declarations: each holds what was accepted last for its name, or its first value.

Key definitions: `BindDecl.accepted?`, `BindDecl.latest`, `ExternalValues.offer`,
`ExternalValues.Holds`.
Key theorems: `BindDecl.fits_latest`, `ExternalValues.set_cases`,
`ExternalValues.holds_ofBinds`, `ExternalValues.Holds.offer`.
-/
import Mathlib.Data.List.Nodup
import AudioShader.Proofs.Uniform.Accepted

namespace AudioShader

/-! ### What a name has -/

/-- An update of a value: a name and a text. -/
abbrev Update := String × String

namespace BindDecl

/-- What an update gives to a declaration, if it is for it and its text decodes. -/
def accepted? (d : BindDecl) (u : Update) : Option UniformValue :=
  if u.1 = d.name then (decodeValue d.name d.type u.2).toOption else none

/-- The value of a declaration before all updates. -/
def initial (d : BindDecl) : UniformValue :=
  (d.value.bind fun text => (decodeValue d.name d.type text).toOption).getD (zeroOf d.type)

/-- What was accepted last for a declaration, or its first value. -/
def latest (d : BindDecl) (updates : List Update) : UniformValue :=
  (updates.filterMap d.accepted?).getLast?.getD d.initial

theorem latest_concat (d : BindDecl) (updates : List Update) (u : Update) :
    d.latest (updates ++ [u]) = (d.accepted? u).getD (d.latest updates) := by
  rw [latest, List.filterMap_append, List.filterMap_cons]
  cases d.accepted? u with
  | none => rw [List.filterMap_nil, List.append_nil, latest, Option.getD_none]
  | some v => rw [List.filterMap_nil, List.getLast?_concat, Option.getD_some, Option.getD_some]

theorem fits_of_toOption_decodeValue {name text : String} {type : BindType} {v : UniformValue}
    (h : (decodeValue name type text).toOption = some v) : v.fits (.ofBind type) = true := by
  cases hdecode : decodeValue name type text with
  | error e =>
    rw [hdecode] at h
    cases h
  | ok w =>
    rw [hdecode] at h
    cases h
    exact fits_of_decodeValue hdecode

theorem fits_accepted? {d : BindDecl} {u : Update} {v : UniformValue} (h : d.accepted? u = some v) :
    v.fits (.ofBind d.type) = true := by
  unfold accepted? at h
  split at h
  · exact fits_of_toOption_decodeValue h
  · cases h

theorem fits_initial (d : BindDecl) : d.initial.fits (.ofBind d.type) = true := by
  rw [initial]
  cases hfirst : d.value.bind fun text => (decodeValue d.name d.type text).toOption with
  | none => exact fits_zeroOf d.type
  | some v =>
    obtain ⟨text, -, hdecode⟩ := Option.bind_eq_some_iff.1 hfirst
    exact fits_of_toOption_decodeValue hdecode

/-- **What a declaration has fits its type**, whatever updates came. -/
theorem fits_latest (d : BindDecl) (updates : List Update) :
    (d.latest updates).fits (.ofBind d.type) = true := by
  rw [latest]
  cases hlast : (updates.filterMap d.accepted?).getLast? with
  | none => exact d.fits_initial
  | some v =>
    obtain ⟨u, -, hu⟩ := List.mem_filterMap.1 (List.mem_of_getLast? hlast)
    exact fits_accepted? hu

/-- The slot of a declaration after updates. -/
def slotAfter (d : BindDecl) (updates : List Update) : Slot := ⟨d.name, d.type, d.latest updates⟩

theorem slotAfter_of_refused {d : BindDecl} {u : Update} (h : d.accepted? u = none)
    (updates : List Update) : d.slotAfter (updates ++ [u]) = d.slotAfter updates := by
  rw [slotAfter, latest_concat, h, Option.getD_none, slotAfter]

theorem slotAfter_of_accepted {d : BindDecl} {u : Update} {value : UniformValue}
    (h : d.accepted? u = some value) (updates : List Update) :
    d.slotAfter (updates ++ [u]) = { d.slotAfter updates with value } := by
  rw [slotAfter, latest_concat, h, Option.getD_some, slotAfter]

theorem accepted?_of_decodeValue {d : BindDecl} {text : String} {value : UniformValue}
    (h : decodeValue d.name d.type text = .ok value) : d.accepted? (d.name, text) = some value := by
  rw [accepted?, if_pos rfl, h]
  rfl

end BindDecl

namespace ExternalValues

/-! ### One update -/

/-- The values behind an update, which stay as they are if it is refused. -/
def offer (e : ExternalValues) (name text : String) : ExternalValues :=
  match e.set name text with
  | .ok e' => e'
  | .error _ => e

/-- To replace the value of the first slot of a name is to change that slot only. -/
theorem replace_eq_set {name : String} (value : UniformValue) : ∀ {slots : List Slot} {slot : Slot},
    slots.find? (fun s => s.name == name) = some slot →
    ∃ j, slots[j]? = some slot ∧ replace name value slots = slots.set j { slot with value }
  | s :: ss, slot, h => by
    rw [replace]
    by_cases hs : s.name = name
    · rw [List.find?_cons_of_pos (by simpa using hs)] at h
      cases h
      exact ⟨0, rfl, by rw [if_pos hs]; rfl⟩
    · rw [List.find?_cons_of_neg (by simpa using hs)] at h
      obtain ⟨j, hj, hreplace⟩ := replace_eq_set value h
      exact ⟨j + 1, hj, by rw [if_neg hs, hreplace]; rfl⟩

/-- An update that is accepted changes one slot, of its name, to what its text
decodes to. -/
theorem set_cases {e e' : ExternalValues} {name text : String} (h : e.set name text = .ok e') :
    ∃ j slot value, e.slots[j]? = some slot ∧ slot.name = name ∧
      decodeValue name slot.type text = .ok value ∧
      e'.slots = e.slots.set j { slot with value } := by
  unfold ExternalValues.set at h
  split at h
  · cases h
  · next slot hslot =>
    cases hdecode : decodeValue name slot.type text with
    | error error =>
      rw [hdecode] at h
      cases h
    | ok value =>
      rw [hdecode] at h
      cases h
      obtain ⟨j, hj, hreplace⟩ := replace_eq_set value hslot
      have hname : slot.name = name := by simpa using List.find?_some hslot
      exact ⟨j, slot, value, hj, hname, hdecode, hreplace⟩

/-- An update that is refused is for no slot, or its text does not decode. -/
theorem decodeValue_of_set_error {e : ExternalValues} {name text : String} {error : ExternalError}
    (h : e.set name text = .error error) {slot : Slot} (hslot : e.slot? name = some slot) :
    (decodeValue name slot.type text).toOption = none := by
  unfold ExternalValues.set at h
  rw [hslot] at h
  dsimp only at h
  cases hdecode : decodeValue name slot.type text with
  | error e => rfl
  | ok value =>
    rw [hdecode] at h
    cases h

/-! ### All updates -/

/-- There is a slot for each declaration, with what it has after updates. -/
def Holds (binds : List BindDecl) (updates : List Update) (e : ExternalValues) : Prop :=
  e.slots = binds.map (·.slotAfter updates)

/-- The first slots hold the first values. -/
theorem slotOf_eq {d : BindDecl} {slot : Slot} (h : slotOf d = .ok slot) : slot = d.slotAfter [] := by
  unfold slotOf at h
  have hlatest : d.latest [] = d.initial := rfl
  rw [BindDecl.slotAfter, hlatest, BindDecl.initial]
  cases hvalue : d.value with
  | none =>
    rw [hvalue] at h
    cases h
    rfl
  | some text =>
    rw [hvalue] at h
    dsimp only at h
    rw [Option.bind_some]
    cases hdecode : decodeValue d.name d.type text with
    | error e =>
      rw [hdecode] at h
      cases h
    | ok v =>
      rw [hdecode] at h
      cases h
      rfl

theorem slots_of_mapM : ∀ {binds : List BindDecl} {slots : List Slot},
    binds.mapM slotOf = .ok slots → slots = binds.map (·.slotAfter [])
  | [], slots, h => by
    cases h
    rfl
  | d :: binds, slots, h => by
    rw [List.mapM_cons] at h
    cases hslot : slotOf d with
    | error e =>
      rw [hslot] at h
      cases h
    | ok slot =>
      cases hrest : binds.mapM slotOf with
      | error e =>
        rw [hslot, hrest] at h
        cases h
      | ok rest =>
        rw [hslot, hrest] at h
        cases h
        rw [slotOf_eq hslot, slots_of_mapM hrest]
        rfl

theorem holds_ofBinds {binds : List BindDecl} {e : ExternalValues} (h : ofBinds binds = .ok e) :
    Holds binds [] e := by
  unfold ofBinds at h
  cases hslots : binds.mapM slotOf with
  | error error =>
    rw [hslots] at h
    cases h
  | ok slots =>
    rw [hslots] at h
    cases h
    exact slots_of_mapM hslots

section Offer

variable {binds : List BindDecl} {updates : List Update} {e : ExternalValues}

/-- The slot of a name is that of the declaration of the name. -/
theorem Holds.slot?_eq (h : Holds binds updates e) (name : String) :
    e.slot? name = (binds.find? fun d => d.name == name).map (·.slotAfter updates) := by
  rw [slot?, h, List.find?_map]
  rfl

/-- A declaration is found by its name. -/
theorem find?_name (hbinds : (binds.map (·.name)).Nodup) {d : BindDecl} (hd : d ∈ binds) :
    (binds.find? fun d' => d'.name == d.name) = some d := by
  cases hfind : binds.find? fun d' => d'.name == d.name with
  | none =>
    have hnone := List.find?_eq_none.1 hfind d hd
    simp at hnone
  | some d' =>
    have hname : d'.name = d.name := by simpa using List.find?_some hfind
    rw [List.inj_on_of_nodup_map hbinds (List.mem_of_find?_eq_some hfind) hd hname]

/-- An update that is accepted for a declaration changes what that one has. -/
theorem slots_of_accepted (hbinds : (binds.map (·.name)).Nodup) {j : Nat} {d : BindDecl}
    (hd : binds[j]? = some d) {text : String} {value : UniformValue}
    (hdecode : decodeValue d.name d.type text = .ok value) :
    (binds.map (·.slotAfter updates)).set j { d.slotAfter updates with value } =
      binds.map (·.slotAfter (updates ++ [(d.name, text)])) := by
  obtain ⟨hlt, -⟩ := List.getElem?_eq_some_iff.1 hd
  refine List.ext_getElem? fun i => ?_
  rw [List.getElem?_set, List.getElem?_map, List.getElem?_map, List.length_map]
  by_cases hi : j = i
  · subst hi
    rw [if_pos rfl, if_pos hlt, hd, Option.map_some,
      BindDecl.slotAfter_of_accepted (BindDecl.accepted?_of_decodeValue hdecode)]
  · rw [if_neg hi]
    cases hd' : binds[i]? with
    | none => rfl
    | some d' =>
      -- the declaration at another place has another name
      have hother : d.name ≠ d'.name := by
        intro hname
        refine hi ((List.getElem?_inj (by rw [List.length_map]; exact hlt) hbinds).1 ?_)
        rw [List.getElem?_map, List.getElem?_map, hd, hd', Option.map_some, Option.map_some, hname]
      have hrefused : d'.accepted? (d.name, text) = none := if_neg hother
      rw [Option.map_some, Option.map_some, BindDecl.slotAfter_of_refused hrefused]

/-- An update that is refused is accepted for no declaration. -/
theorem Holds.accepted?_eq_none (hbinds : (binds.map (·.name)).Nodup) (h : Holds binds updates e)
    {name text : String} {error : ExternalError} (hset : e.set name text = .error error)
    {d : BindDecl} (hd : d ∈ binds) : d.accepted? (name, text) = none := by
  unfold BindDecl.accepted?
  by_cases hname : name = d.name
  · subst hname
    rw [if_pos rfl]
    have hslot := h.slot?_eq d.name
    rw [find?_name hbinds hd, Option.map_some] at hslot
    exact decodeValue_of_set_error hset hslot
  · exact if_neg hname

/-- **Updates are told by the declarations.** Whether or not one more update is
accepted, each slot holds what its declaration has then. -/
theorem Holds.offer (hbinds : (binds.map (·.name)).Nodup) (h : Holds binds updates e)
    (name text : String) : Holds binds (updates ++ [(name, text)]) (e.offer name text) := by
  unfold ExternalValues.offer
  cases hset : e.set name text with
  | error error =>
    have hrefused (d : BindDecl) (hd : d ∈ binds) := h.accepted?_eq_none hbinds hset hd
    exact h.trans (List.map_congr_left fun d hd =>
      (BindDecl.slotAfter_of_refused (hrefused d hd) updates).symm)
  | ok e' =>
    obtain ⟨j, slot, value, hj, hname, hdecode, hslots⟩ := set_cases hset
    have hplace : e.slots[j]? = (binds.map (·.slotAfter updates))[j]? := by rw [h]
    rw [hplace, List.getElem?_map] at hj
    obtain ⟨d, hd, rfl⟩ := Option.map_eq_some_iff.1 hj
    obtain rfl : d.name = name := hname
    refine hslots.trans ?_
    rw [h]
    exact slots_of_accepted hbinds hd hdecode

end Offer

end ExternalValues
end AudioShader
