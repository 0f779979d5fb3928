/-
# The block of a lowered fragment

The places of the uniforms and the text of the block are made apart from each other, and agree:
whatever a fragment declares, its block has one member for each uniform that is kept there, in
order, of a type whose place by the rules is the one of the slot (`emitsBlock_lowerFragment`,
`SlotLayout.stacked_listed`). Only a block without slots has a member that is no uniform.

Key definitions: `LoweredFragment.LaidOut`, `LoweredFragment.EmitsBlock`.
Key theorems: `laidOut_lowerFragment`, `emitsBlock_lowerFragment`, `block_agrees_with_slots`.
-/
import AudioShader.Proofs.Lowering.Lines
import AudioShader.Proofs.Lowering.Placement

namespace AudioShader

namespace LoweredFragment

/-- The slots of a lowered fragment are what the lines of its source declare, each where the rules
put it. -/
structure LaidOut (t : LoweredFragment) (source : String) : Prop where
  declared : t.layout.slots.map (fun s => (s.type, s.name)) =
    (Text.lines source).filterMap declaredExactly?
  kinds : ∀ s ∈ t.layout.slots, s.type.isSampler = true ↔ ∃ index, s.kind = .texture index
  /-- Each value stands at the least multiple of its alignment behind the one before it. -/
  placed : Stacked 0 t.layout.members t.layout.blockEnd
  aligned : ∀ m ∈ t.layout.members, m.type.std140Align ∣ m.offset
  apart : t.layout.members.Pairwise fun a b => a.stop ≤ b.offset
  sized : IsLeast {n | 0 < n ∧ 16 ∣ n ∧ ∀ m ∈ t.layout.members, m.stop ≤ n} t.layout.blockSize
  numbered : t.layout.samplers = List.range t.layout.textures
  bound : t.layout.bindings.Nodup

/-- The text of a lowered fragment is its source with a block of the listed members put in, and
with the bindings behind it. -/
def EmitsBlock (t : LoweredFragment) (source : String) (listed : List (ValueType × String)) : Prop :=
  ∃ added ls' : List (List Char),
    Text.splitLines t.source.toList = ls'.map (· ++ ['\n']) ∧
    KeepsLines Qualified added (Text.lines source) ls' ∧
    DeclaresBlock added listed t.layout.bindings

end LoweredFragment

namespace SlotLayout

variable {l : SlotLayout} (h : l.Laid)
include h

/-- The block takes no more than its members need. -/
theorem isLeast_blockSize_members :
    IsLeast {n | 0 < n ∧ 16 ∣ n ∧ ∀ m ∈ l.members, m.stop ≤ n} l.blockSize := by
  have hends (n : Nat) : l.blockEnd ≤ n ↔ ∀ m ∈ l.members, m.stop ≤ n :=
    h.placed.last_le_iff (Nat.zero_le n)
  simpa only [hends] using l.isLeast_blockSize

/-- The places of the listed members, by the rules, are those of the slots. -/
theorem stacked_listed : ∃ ms : List BlockMember, ms.map BlockMember.type = l.listed.map Prod.fst ∧
    ms.map BlockMember.offset = l.members.map BlockMember.offset ∧ Stacked 0 ms l.blockEnd := by
  refine ⟨_, ?_, ?_, h.placed.retype ValueType.components_host⟩
  · rw [List.map_map]
    unfold members listed
    induction l.slots with
    | nil => rfl
    | cons s slots ih =>
      rw [List.filterMap_cons, List.filterMap_cons]
      cases s.kind with
      | block offset => exact congrArg (s.type.host :: ·) ih
      | texture index => exact ih
  · rw [List.map_map]
    rfl

end SlotLayout

theorem laid_lowerFragment (source : String) : (lowerFragment source).layout.Laid :=
  SlotLayout.laid_ofDeclarations _

/-- The slots of every fragment stand where the rules put them. -/
theorem laidOut_lowerFragment (source : String) : (lowerFragment source).LaidOut source := by
  have hlaid := laid_lowerFragment source
  exact {
    declared := uniforms_lowerFragment source
    kinds := hlaid.kinds
    placed := hlaid.placed
    aligned := hlaid.placed.aligned
    apart := hlaid.placed.apart
    sized := SlotLayout.isLeast_blockSize_members hlaid
    numbered := hlaid.numbered
    bound := by
      rw [bindings_eq_range hlaid]
      exact List.nodup_range }

/-- The block of every fragment lists the slots that are kept there, in order. -/
theorem emitsBlock_lowerFragment (source : String) :
    (lowerFragment source).EmitsBlock source (lowerFragment source).layout.listedOrUnused :=
  ⟨_, _, splitLines_lowered source, keepsLines_loweredLines source,
    declaresBlock_addedLines fun _ => isNameChar_of_mem_slots⟩

/-- The slots of a fragment and the block in its text agree: the places of the listed members, by
the rules, are those of the slots. -/
theorem block_agrees_with_slots (source : String) :
    (lowerFragment source).LaidOut source ∧
      (lowerFragment source).EmitsBlock source (lowerFragment source).layout.listedOrUnused ∧
      ∃ ms : List BlockMember,
        ms.map BlockMember.type = (lowerFragment source).layout.listed.map Prod.fst ∧
        ms.map BlockMember.offset = (lowerFragment source).layout.members.map BlockMember.offset ∧
        Stacked 0 ms (lowerFragment source).layout.blockEnd :=
  ⟨laidOut_lowerFragment source, emitsBlock_lowerFragment source,
    SlotLayout.stacked_listed (laid_lowerFragment source)⟩

/-- A fragment without uniforms. -/
def bareFragment : String := "void main() {}\n"

/-- The block of a fragment without uniforms is not empty: it has a member that is no slot. -/
theorem not_emitsBlock_listed_bareFragment :
    ¬(lowerFragment bareFragment).EmitsBlock bareFragment (lowerFragment bareFragment).layout.listed := by
  rintro ⟨added, ls', htext, hkeeps, members, definitions, rfl, hmembers, -⟩
  have hlines : Text.lines bareFragment = ["void main() {}".toList] := by decide
  have hlisted : (lowerFragment bareFragment).layout.listed = [] := by decide
  have hthird : (loweredLines bareFragment)[2]? = some "    vec4 _u_unused;".toList := by
    decide
  rw [hlisted, List.map_nil, List.map_eq_nil_iff] at hmembers
  rw [hlines] at hkeeps
  obtain ⟨back, hback, -⟩ := hkeeps.of_no_version (by decide)
  subst hmembers
  rw [← eq_loweredLines htext, hback] at hthird
  exact absurd (Option.some.inj hthird) (by decide)

end AudioShader
