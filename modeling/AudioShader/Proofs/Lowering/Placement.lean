/-
# Where the members of a block stand

Blocks are laid out by the std140 rules. A value of `n` numbers takes four bytes for each of
them. It stands at a multiple of its size if it is one number or two, and at a multiple of
sixteen otherwise; each member at the least such place behind the one before it.

A layout keeps to the rules while uniforms are added to it: one more keeps them (`Laid.add`),
so all of them do (`laid_ofDeclarations`).

Key definitions: `ValueType.std140Size`, `ValueType.std140Align`, `BlockMember`, `Stacked`,
`SlotLayout.members`, `SlotLayout.samplers`, `SlotLayout.Laid`.
Key theorems: `isLeast_roundUp`, `Stacked.concat`, `Stacked.apart`, `SlotLayout.isLeast_blockSize`,
`SlotLayout.laid_ofDeclarations`.
-/
import Mathlib.Order.Bounds.Basic
import AudioShader.Lowering.Layout

namespace AudioShader

/-! ### The rules -/

namespace ValueType

/-- The numbers that a value consists of; a sampler is no value. -/
def components : ValueType → Nat
  | .float | .int | .bool => 1
  | .vec2 | .ivec2 => 2
  | .vec3 => 3
  | .vec4 => 4
  | .sampler1D | .sampler2D => 0

def std140Size (t : ValueType) : Nat := 4 * t.components

/-- What the offset of a value is a multiple of. -/
def std140Align (t : ValueType) : Nat := if t.components ≤ 2 then 4 * t.components else 16

theorem blockSize_eq (t : ValueType) : t.blockSize = t.std140Size := by cases t <;> rfl

theorem blockAlign_eq {t : ValueType} (h : t.isSampler = false) : t.blockAlign = t.std140Align := by
  cases t with
  | sampler1D | sampler2D => cases h
  | _ => rfl

end ValueType

/-- A member of a block, with its offset in bytes. -/
structure BlockMember where
  type : ValueType
  offset : Nat

namespace BlockMember

/-- The first byte behind a member. -/
def stop (m : BlockMember) : Nat := m.offset + m.type.std140Size

/-- The place of a member behind a number of bytes: the least one that it may have. -/
def Follows (m : BlockMember) (n : Nat) : Prop :=
  IsLeast {offset | m.type.std140Align ∣ offset ∧ n ≤ offset} m.offset

end BlockMember

/-- Members that stand one behind the other from a byte on, and the byte behind the last one. -/
inductive Stacked : Nat → List BlockMember → Nat → Prop
  | nil {n : Nat} : Stacked n [] n
  | cons {n last : Nat} {m : BlockMember} {ms : List BlockMember} (place : m.Follows n)
      (rest : Stacked m.stop ms last) : Stacked n (m :: ms) last

theorem isLeast_roundUp (n : Nat) {align : Nat} (h : 0 < align) :
    IsLeast {offset | align ∣ offset ∧ n ≤ offset} (roundUp n align) := by
  refine ⟨⟨dvd_roundUp n align, le_roundUp n align h⟩, ?_⟩
  rintro _ ⟨⟨k, rfl⟩, hle⟩
  have hlt : (n + align - 1) / align < k + 1 := by
    rw [Nat.div_lt_iff_lt_mul h, Nat.add_mul, Nat.mul_comm k align]
    omega
  calc roundUp n align = align * ((n + align - 1) / align) := Nat.mul_comm ..
    _ ≤ align * k := Nat.mul_le_mul_left _ (Nat.le_of_lt_succ hlt)

/-! ### Members in order -/

namespace Stacked

variable {n last : Nat} {ms : List BlockMember}

/-- One more member behind the last one. -/
theorem concat (h : Stacked n ms last) {m : BlockMember} (hm : m.Follows last) :
    Stacked n (ms ++ [m]) m.stop := by
  induction h with
  | nil => exact .cons hm .nil
  | cons place _ ih => exact .cons place (ih hm)

theorem le (h : Stacked n ms last) : n ≤ last := by
  induction h with
  | nil => exact Nat.le_refl _
  | cons place _ ih => exact (place.1.2.trans (Nat.le_add_right ..)).trans ih

/-- Members stand behind the first byte and end in front of the last one. -/
theorem bounds (h : Stacked n ms last) : ∀ m ∈ ms, n ≤ m.offset ∧ m.stop ≤ last := by
  induction h with
  | nil => exact fun _ hm => nomatch hm
  | cons place rest ih =>
    refine List.forall_mem_cons.2 ⟨⟨place.1.2, rest.le⟩, fun m hm => ?_⟩
    obtain ⟨hstop, hlast⟩ := ih m hm
    exact ⟨(place.1.2.trans (Nat.le_add_right ..)).trans hstop, hlast⟩

/-- The last byte lies behind the first one and all members, and no further. -/
theorem last_le_iff (h : Stacked n ms last) {k : Nat} (hk : n ≤ k) :
    last ≤ k ↔ ∀ m ∈ ms, m.stop ≤ k := by
  refine ⟨fun hlast m hm => (h.bounds m hm).2.trans hlast, fun hstop => ?_⟩
  induction h with
  | nil => exact hk
  | cons _ _ ih =>
    obtain ⟨hm, hms⟩ := List.forall_mem_cons.1 hstop
    exact ih hm hms

theorem aligned (h : Stacked n ms last) : ∀ m ∈ ms, m.type.std140Align ∣ m.offset := by
  induction h with
  | nil => exact fun _ hm => nomatch hm
  | cons place _ ih => exact List.forall_mem_cons.2 ⟨place.1.1, ih⟩

/-- No two members share a byte. -/
theorem apart (h : Stacked n ms last) : ms.Pairwise fun a b => a.stop ≤ b.offset := by
  induction h with
  | nil => exact .nil
  | cons _ rest ih => exact .cons (fun m hm => (rest.bounds m hm).1) ih

/-- Types with the same numbers have the same places. -/
theorem retype {f : ValueType → ValueType} (hf : ∀ t, (f t).components = t.components)
    (h : Stacked n ms last) : Stacked n (ms.map fun m => ⟨f m.type, m.offset⟩) last := by
  induction h with
  | nil => exact .nil
  | cons place _ ih =>
    refine .cons ?_ ?_
    · unfold BlockMember.Follows ValueType.std140Align at *
      simpa only [hf] using place
    · unfold BlockMember.stop ValueType.std140Size at *
      simpa only [hf] using ih

end Stacked

/-! ### Layouts -/

namespace SlotLayout

/-- The uniforms of the block. -/
def members (l : SlotLayout) : List BlockMember :=
  l.slots.filterMap fun s =>
    match s.kind with
    | .block offset => some ⟨s.type, offset⟩
    | .texture _ => none

/-- The indices of the textures. -/
def samplers (l : SlotLayout) : List Nat :=
  l.slots.filterMap fun s =>
    match s.kind with
    | .block _ => none
    | .texture index => some index

/-- The block keeps to the rules, textures are numbered from zero on, and the samplers are
what textures are for. -/
structure Laid (l : SlotLayout) : Prop where
  placed : Stacked 0 l.members l.blockEnd
  numbered : l.samplers = List.range l.textures
  kinds : ∀ s ∈ l.slots, s.type.isSampler = true ↔ ∃ index, s.kind = .texture index

theorem Laid.add {l : SlotLayout} (h : l.Laid) (type : ValueType) (name : String) :
    (l.add type name).Laid := by
  unfold SlotLayout.add
  split
  · next hsampler =>
    refine ⟨?_, ?_, ?_⟩
    · simpa [members] using h.placed
    · rw [List.range_succ, ← h.numbered]
      simp [samplers]
    · simp only [List.forall_mem_append, List.forall_mem_singleton]
      exact ⟨h.kinds, by simp [hsampler]⟩
  · next hplain =>
    have hplain : type.isSampler = false := by simpa using hplain
    have halign := ValueType.blockAlign_eq hplain
    have hnew : BlockMember.Follows ⟨type, roundUp l.blockEnd type.blockAlign⟩ l.blockEnd := by
      unfold BlockMember.Follows
      rw [← halign]
      exact isLeast_roundUp _ type.blockAlign_pos
    refine ⟨?_, ?_, ?_⟩
    · have hstop := h.placed.concat hnew
      rw [BlockMember.stop, ← ValueType.blockSize_eq] at hstop
      simpa [members] using hstop
    · simpa [samplers] using h.numbered
    · simp only [List.forall_mem_append, List.forall_mem_singleton]
      exact ⟨h.kinds, by simp [hplain]⟩

theorem slots_add (l : SlotLayout) (type : ValueType) (name : String) :
    (l.add type name).slots.map (fun s => (s.type, s.name)) =
      l.slots.map (fun s => (s.type, s.name)) ++ [(type, name)] := by
  unfold SlotLayout.add
  split <;> simp

/-- Uniforms that are added keep the rules, and stand in order behind those before them. -/
theorem laid_foldl_add : ∀ (ds : List (ValueType × String)) {l : SlotLayout}, l.Laid →
    (ds.foldl (fun l d => l.add d.1 d.2) l).Laid ∧
      (ds.foldl (fun l d => l.add d.1 d.2) l).slots.map (fun s => (s.type, s.name)) =
        l.slots.map (fun s => (s.type, s.name)) ++ ds
  | [], _, h => ⟨h, (List.append_nil _).symm⟩
  | d :: ds, l, h => by
    obtain ⟨hlaid, hslots⟩ := laid_foldl_add ds (h.add d.1 d.2)
    refine ⟨hlaid, ?_⟩
    rw [List.foldl_cons, hslots, slots_add, List.append_assoc, List.singleton_append]

theorem laid_nil : Laid {} := ⟨.nil, rfl, fun _ h => absurd h List.not_mem_nil⟩

theorem laid_ofDeclarations (ds : List (ValueType × String)) : (ofDeclarations ds).Laid :=
  (laid_foldl_add ds laid_nil).1

/-- The slots have the declared types and names, in the order of the declarations. -/
theorem slots_ofDeclarations (ds : List (ValueType × String)) :
    (ofDeclarations ds).slots.map (fun s => (s.type, s.name)) = ds :=
  (laid_foldl_add ds laid_nil).2

/-- The block takes the least positive multiple of sixteen bytes that holds its members. -/
theorem isLeast_blockSize (l : SlotLayout) :
    IsLeast {n | 0 < n ∧ 16 ∣ n ∧ l.blockEnd ≤ n} l.blockSize := by
  obtain ⟨⟨hdvd, hle⟩, hleast⟩ := isLeast_roundUp l.blockEnd (show 0 < 16 by decide)
  refine ⟨⟨by simp [blockSize], ?_, hle.trans (Nat.le_max_left ..)⟩, ?_⟩
  · rw [blockSize]
    rcases Nat.le_total (roundUp l.blockEnd 16) 16 with h | h
    · exact (Nat.max_eq_right h).symm ▸ Nat.dvd_refl 16
    · exact (Nat.max_eq_left h).symm ▸ hdvd
  · rintro n ⟨hpos, hn, hend⟩
    exact Nat.max_le.2 ⟨hleast ⟨hn, hend⟩, Nat.le_of_dvd hpos hn⟩

end SlotLayout
end AudioShader
