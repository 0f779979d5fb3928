/-
# The lines that declare the slots

What a lowering puts behind the version is read as a compiler reads it: a block with one member
for each slot that is kept there, and behind it two bindings for each texture. A block without
slots has one member that no slot stands for, since there are no empty blocks.

Key definitions: `ValueType.host`, `member?`, `binding?`, `SlotLayout.listed`, `DeclaresBlock`,
`addedLines`.
Key theorems: `member?_memberLine`, `filterMap_binding?`, `declaresBlock_addedLines`,
`lines_of_mem_addedLines`.
-/
import AudioShader.Proofs.Lowering.Declared
import AudioShader.Proofs.Text.Letters

namespace AudioShader

/-! ### Reading declarations -/

/-- What a value of a type is kept as in a block. -/
def ValueType.host (t : ValueType) : ValueType := if t = .bool then .int else t

theorem ValueType.components_host (t : ValueType) : t.host.components = t.components := by
  cases t <;> rfl

/-- The member that a line of a block declares: a type, then a name with a semicolon. -/
def member? (line : List Char) : Option (ValueType × String) :=
  match words line with
  | [type, word] =>
    match word.reverse with
    | ';' :: name => (ValueType.ofName? (String.ofList type)).map fun t => (t, String.ofList name.reverse)
    | _ => none
  | _ => none

/-- What stands in front of the number of a binding. -/
def bindingLead : List Char := "layout(set = 1, binding = ".toList

/-- The binding that a line gives to a texture or a sampler. -/
def binding? (line : List Char) : Option Nat :=
  (Text.after? bindingLead line).map fun rest => Nat.ofDigitChars 10 (rest.takeWhile Char.isDigit) 0

def bindingLine (number : Nat) (what : List Char) : List Char :=
  bindingLead ++ ((toString number).toList ++ ')' :: what)

/-! ### Members -/

def memberLine (type : ValueType) (name : String) : List Char :=
  "    ".toList ++ (type.name.toList ++ ' ' :: ("_u_".toList ++ (name.toList ++ [';'])))

theorem isWord_name (t : ValueType) : IsWord t.name.toList := by
  have hblankless : t.name.toList.all (fun c => !Text.isBlank c) = true := by cases t <;> decide
  exact ⟨by cases t <;> decide, fun c hc => by simpa using List.all_eq_true.1 hblankless c hc⟩

theorem member?_memberLine (type : ValueType) {name : String}
    (h : ∀ c ∈ name.toList, Text.isNameChar c = true) :
    member? (memberLine type name) = some (type, "_u_" ++ name) := by
  have hword : IsWord ("_u_".toList ++ (name.toList ++ [';'])) := by
    have hlead : ∀ c ∈ "_u_".toList, Text.isBlank c = false := by
      simpa using (by decide : "_u_".toList.all (fun c => !Text.isBlank c) = true)
    refine ⟨by simp, ?_⟩
    simp only [List.forall_mem_append, List.forall_mem_singleton]
    exact ⟨hlead, fun c hc => isBlank_eq_false_of_isNameChar (h c hc), by decide⟩
  have hwords : words (memberLine type name) =
      [type.name.toList, "_u_".toList ++ (name.toList ++ [';'])] := by
    have hlead : memberLine type name = ' ' :: ' ' :: ' ' :: ' ' ::
        (type.name.toList ++ ' ' :: ("_u_".toList ++ (name.toList ++ [';']))) := rfl
    rw [hlead, words_cons_blank, words_cons_blank, words_cons_blank, words_cons_blank,
      words_append (isWord_name type), words_singleton hword]
  have hrev : ("_u_".toList ++ (name.toList ++ [';'])).reverse =
      ';' :: ("_u_".toList ++ name.toList).reverse := by
    rw [← List.append_assoc, List.reverse_append]
    rfl
  unfold member?
  rw [hwords]
  dsimp only
  rw [hrev, String.ofList_toList, ValueType.ofName?_name]
  change some (type, String.ofList ("_u_".toList ++ name.toList).reverse.reverse) = _
  rw [List.reverse_reverse, ← String.toList_append, String.ofList_toList]

theorem unbroken_memberLine (type : ValueType) {name : String} (h : '\n' ∉ name.toList) :
    '\n' ∉ memberLine type name := by
  have htype : '\n' ∉ type.name.toList := by cases type <;> decide
  simp only [memberLine, List.mem_append, List.mem_cons, not_or]
  exact ⟨by decide, htype, by decide, by decide, h, by decide, by decide⟩

theorem startsWith_memberLine (type : ValueType) (name : String) :
    Text.startsWith "#line".toList (Text.trimStart (memberLine type name)) = false := by
  cases type <;> rfl

namespace UniformSlot

theorem members_block {s : UniformSlot} {offset : Nat} (h : s.kind = .block offset) :
    s.members.map String.toList = [memberLine s.type.host s.name] := by
  have hname : (if s.type = .bool then ValueType.int.name else s.type.name) = s.type.host.name := by
    unfold ValueType.host
    split <;> rfl
  have hline : ("    " ++ s.type.host.name ++ " _u_" ++ s.name ++ ";").toList =
      memberLine s.type.host s.name := by
    simp only [String.toList_append, List.append_assoc]
    rfl
  simp only [members, h, hname]
  exact congrArg (fun line => [line]) hline

theorem members_texture {s : UniformSlot} {index : Nat} (h : s.kind = .texture index) :
    s.members = [] := by
  simp only [members, h]

/-! ### Definitions -/

/-- What a name stands for, and where it is kept if it is a texture. -/
theorem definitions_block {s : UniformSlot} {offset : Nat} (h : s.kind = .block offset) :
    ∃ value, s.definitions.map String.toList = ["#define ".toList ++ (s.name.toList ++ value)] ∧
      ('\n' ∉ s.name.toList → '\n' ∉ value) := by
  by_cases hbool : s.type = .bool
  · refine ⟨" bool(_stage._u_".toList ++ (s.name.toList ++ ")".toList), ?_, ?_⟩
    · have hline : ("#define " ++ s.name ++ " bool(_stage._u_" ++ s.name ++ ")").toList =
          "#define ".toList ++ (s.name.toList ++
            (" bool(_stage._u_".toList ++ (s.name.toList ++ ")".toList))) := by
        simp only [String.toList_append, List.append_assoc]
      simp only [definitions, h, if_pos hbool]
      exact congrArg (fun line => [line]) hline
    · intro hn
      simp only [List.mem_append, not_or]
      exact ⟨by decide, hn, by decide⟩
  · refine ⟨" _stage._u_".toList ++ s.name.toList, ?_, ?_⟩
    · have hline : ("#define " ++ s.name ++ " _stage._u_" ++ s.name).toList =
          "#define ".toList ++ (s.name.toList ++ (" _stage._u_".toList ++ s.name.toList)) := by
        simp only [String.toList_append, List.append_assoc]
      simp only [definitions, h, if_neg hbool]
      exact congrArg (fun line => [line]) hline
    · intro hn
      simp only [List.mem_append, not_or]
      exact ⟨by decide, hn⟩

theorem definitions_texture {s : UniformSlot} {index : Nat} (h : s.kind = .texture index) :
    ∃ texture sampler value, s.definitions.map String.toList =
        [bindingLine (2 * index) texture, bindingLine (2 * index + 1) sampler,
          "#define ".toList ++ (s.name.toList ++ value)] ∧
      ('\n' ∉ s.name.toList → '\n' ∉ texture ∧ '\n' ∉ sampler ∧ '\n' ∉ value) := by
  have hnames : ∃ texture sampler : String, '\n' ∉ texture.toList ∧ '\n' ∉ sampler.toList ∧
      (if s.type = .sampler1D then ("texture1D", "sampler1D") else ("texture2D", "sampler2D")) =
        (texture, sampler) := by
    split
    · exact ⟨_, _, by decide, by decide, rfl⟩
    · exact ⟨_, _, by decide, by decide, rfl⟩
  obtain ⟨texture, sampler, ht, hs, hpair⟩ := hnames
  refine ⟨" uniform ".toList ++ (texture.toList ++ (" _t_".toList ++ (s.name.toList ++ ";".toList))),
    " uniform sampler _s_".toList ++ (s.name.toList ++ ";".toList),
    " ".toList ++ (sampler.toList ++ ("(_t_".toList ++ (s.name.toList ++ (", _s_".toList ++
      (s.name.toList ++ ")".toList))))), ?_, ?_⟩
  · have hfirst : ("layout(set = 1, binding = " ++ toString (2 * index) ++ ") uniform " ++ texture ++
        " _t_" ++ s.name ++ ";").toList = bindingLine (2 * index) (" uniform ".toList ++
          (texture.toList ++ (" _t_".toList ++ (s.name.toList ++ ";".toList)))) := by
      simp only [String.toList_append, List.append_assoc]
      rfl
    have hsecond : ("layout(set = 1, binding = " ++ toString (2 * index + 1) ++
        ") uniform sampler _s_" ++ s.name ++ ";").toList = bindingLine (2 * index + 1)
          (" uniform sampler _s_".toList ++ (s.name.toList ++ ";".toList)) := by
      simp only [String.toList_append, List.append_assoc]
      rfl
    have hthird : ("#define " ++ s.name ++ " " ++ sampler ++ "(_t_" ++ s.name ++ ", _s_" ++ s.name ++
        ")").toList = "#define ".toList ++ (s.name.toList ++ (" ".toList ++ (sampler.toList ++
          ("(_t_".toList ++ (s.name.toList ++ (", _s_".toList ++ (s.name.toList ++ ")".toList))))))) := by
      simp only [String.toList_append, List.append_assoc]
    rw [← hfirst, ← hsecond, ← hthird]
    unfold definitions
    rw [h]
    dsimp only
    rw [hpair]
    rfl
  · intro hn
    simp only [List.mem_append, not_or]
    exact ⟨⟨by decide, ht, by decide, hn, by decide⟩, ⟨by decide, hn, by decide⟩,
      ⟨by decide, hs, by decide, hn, by decide, hn, by decide⟩⟩

/-- The lines of a slot are on lines of their own, and none of them numbers lines. -/
theorem lines_of_slot {s : UniformSlot} (hn : '\n' ∉ s.name.toList) {line : List Char}
    (h : line ∈ s.members.map String.toList ++ s.definitions.map String.toList) :
    '\n' ∉ line ∧ Text.startsWith "#line".toList (Text.trimStart line) = false := by
  have hdefine (value : List Char) (hvalue : '\n' ∉ value) :
      '\n' ∉ "#define ".toList ++ (s.name.toList ++ value) := by
    simp only [List.mem_append, not_or]
    exact ⟨by decide, hn, hvalue⟩
  have hbinding (number : Nat) (what : List Char) (hwhat : '\n' ∉ what) :
      '\n' ∉ bindingLine number what := by
    simp only [bindingLine, List.mem_append, List.mem_cons, not_or]
    exact ⟨by decide, unbroken_toString number, by decide, hwhat⟩
  cases hkind : s.kind with
  | block offset =>
    obtain ⟨value, hvalue, hunbroken⟩ := definitions_block hkind
    rw [members_block hkind, hvalue] at h
    simp only [List.cons_append, List.nil_append, List.mem_cons, List.not_mem_nil, or_false] at h
    obtain rfl | rfl := h
    · exact ⟨unbroken_memberLine _ hn, startsWith_memberLine _ _⟩
    · exact ⟨hdefine value (hunbroken hn), rfl⟩
  | texture index =>
    obtain ⟨texture, sampler, value, hvalue, hunbroken⟩ := definitions_texture hkind
    obtain ⟨htexture, hsampler, hval⟩ := hunbroken hn
    rw [members_texture hkind, hvalue] at h
    simp only [List.map_nil, List.nil_append, List.mem_cons, List.not_mem_nil, or_false] at h
    obtain rfl | rfl | rfl := h
    · exact ⟨hbinding _ _ htexture, rfl⟩
    · exact ⟨hbinding _ _ hsampler, rfl⟩
    · exact ⟨hdefine value hval, rfl⟩

end UniformSlot

/-! ### All added lines -/

def blockOpening : List Char :=
  "layout(std140, set = 0, binding = 0) uniform StageUniforms \x7b".toList

def blockClosing : List Char := "\x7d _stage;".toList

/-- The lines that a lowering adds for slots. -/
def addedLines (slots : List UniformSlot) : List (List Char) :=
  (declarationLines slots).map String.toList

/-- The lines of a block with the listed members, with the bindings behind it. -/
def DeclaresBlock (added : List (List Char)) (listed : List (ValueType × String))
    (bindings : List Nat) : Prop :=
  ∃ members definitions, added = blockOpening :: (members ++ blockClosing :: definitions) ∧
    members.map member? = listed.map some ∧ definitions.filterMap binding? = bindings

namespace SlotLayout

/-- The members of the block that stand for slots, as a compiler reads them. -/
def listed (l : SlotLayout) : List (ValueType × String) :=
  l.slots.filterMap fun s =>
    match s.kind with
    | .block _ => some (s.type.host, "_u_" ++ s.name)
    | .texture _ => none

/-- The members of the block: those that stand for slots, or one that stands for none. -/
def listedOrUnused (l : SlotLayout) : List (ValueType × String) :=
  if l.listed = [] then [(.vec4, "_u_unused")] else l.listed

/-- The bindings of the textures and of their samplers. -/
def bindings (l : SlotLayout) : List Nat := l.samplers.flatMap fun index => [2 * index, 2 * index + 1]

end SlotLayout

theorem addedLines_eq (slots : List UniformSlot) : ∃ members,
    members = (if slots.flatMap UniformSlot.members = [] then ["    vec4 _u_unused;"]
      else slots.flatMap UniformSlot.members) ∧
    addedLines slots = blockOpening :: (members.map String.toList ++
      blockClosing :: (slots.flatMap UniformSlot.definitions).map String.toList) := by
  refine ⟨_, rfl, ?_⟩
  simp only [addedLines, declarationLines, List.map_cons, List.map_append, List.isEmpty_iff]
  rfl

/-- The members of the slots are read as they are listed. -/
theorem map_member?_members {l : SlotLayout}
    (hnames : ∀ s ∈ l.slots, ∀ c ∈ s.name.toList, Text.isNameChar c = true) :
    ((l.slots.flatMap UniformSlot.members).map String.toList).map member? = l.listed.map some := by
  unfold SlotLayout.listed
  revert hnames
  induction l.slots with
  | nil => exact fun _ => rfl
  | cons s slots ih =>
    intro hnames
    obtain ⟨hs, hslots⟩ := List.forall_mem_cons.1 hnames
    rw [List.flatMap_cons, List.map_append, List.map_append, ih hslots, List.filterMap_cons]
    cases hkind : s.kind with
    | block offset =>
      rw [UniformSlot.members_block hkind, List.map_singleton, member?_memberLine _ hs]
      rfl
    | texture index =>
      rw [UniformSlot.members_texture hkind]
      rfl

theorem binding?_bindingLine (number : Nat) (what : List Char) :
    binding? (bindingLine number what) = some number := by
  have hdigits := (takeWhile_digits (fun c => isDigit_of_mem_toString (n := number) (c := c))
    (c := ')') (by decide) what).1
  rw [binding?, bindingLine, Text.after?_append, Option.map_some, hdigits, toList_toString,
    Nat.ofDigitChars_ten_toDigits]

/-- The textures of the slots are bound one pair behind the other. -/
theorem filterMap_binding? (l : SlotLayout) :
    ((l.slots.flatMap UniformSlot.definitions).map String.toList).filterMap binding? =
      l.bindings := by
  unfold SlotLayout.bindings SlotLayout.samplers
  induction l.slots with
  | nil => rfl
  | cons s slots ih =>
    have hdefine (value : List Char) : binding? ("#define ".toList ++ value) = none := rfl
    rw [List.flatMap_cons, List.map_append, List.filterMap_append, ih, List.filterMap_cons]
    cases hkind : s.kind with
    | block offset =>
      obtain ⟨value, hvalue, -⟩ := UniformSlot.definitions_block hkind
      rw [hvalue, List.filterMap_cons, hdefine]
      rfl
    | texture index =>
      obtain ⟨texture, sampler, value, hvalue, -⟩ := UniformSlot.definitions_texture hkind
      rw [hvalue]
      simp only [List.filterMap_cons, binding?_bindingLine, hdefine, List.filterMap_nil]
      rfl

/-- The bindings are numbered from zero on, none twice. -/
theorem bindings_eq_range {l : SlotLayout} (h : l.Laid) : l.bindings = List.range (2 * l.textures) := by
  rw [SlotLayout.bindings, h.numbered]
  induction l.textures with
  | zero => rfl
  | succ n ih =>
    rw [List.range_succ, List.flatMap_append, ih, Nat.mul_succ, List.range_succ, List.range_succ,
      List.append_assoc]
    rfl

/-- What is added for a layout declares its block and its textures. -/
theorem declaresBlock_addedLines {l : SlotLayout}
    (hnames : ∀ s ∈ l.slots, ∀ c ∈ s.name.toList, Text.isNameChar c = true) :
    DeclaresBlock (addedLines l.slots) l.listedOrUnused l.bindings := by
  obtain ⟨members, hmembers, hadded⟩ := addedLines_eq l.slots
  refine ⟨_, _, hadded, ?_, filterMap_binding? l⟩
  have hread := map_member?_members hnames
  have hnil : l.listed = [] ↔ l.slots.flatMap UniformSlot.members = [] := by
    rw [← List.map_eq_nil_iff (f := some), ← hread, List.map_eq_nil_iff, List.map_eq_nil_iff]
  rw [hmembers, SlotLayout.listedOrUnused]
  by_cases hunused : l.listed = []
  · rw [if_pos (hnil.1 hunused), if_pos hunused]
    decide
  · rw [if_neg fun h => hunused (hnil.2 h), if_neg hunused]
    exact hread

/-- The added lines are on lines of their own, and none of them numbers lines. -/
theorem lines_of_mem_addedLines {slots : List UniformSlot} (hn : ∀ s ∈ slots, '\n' ∉ s.name.toList)
    {line : List Char} (h : line ∈ addedLines slots) :
    '\n' ∉ line ∧ Text.startsWith "#line".toList (Text.trimStart line) = false := by
  obtain ⟨members, hmembers, hadded⟩ := addedLines_eq slots
  rw [hadded] at h
  simp only [List.mem_cons, List.mem_append] at h
  -- the line of a slot, as a member or as a definition
  have hslot (s : UniformSlot) (hs : s ∈ slots)
      (hline : line ∈ s.members.map String.toList ++ s.definitions.map String.toList) :
      '\n' ∉ line ∧ Text.startsWith "#line".toList (Text.trimStart line) = false :=
    UniformSlot.lines_of_slot (hn s hs) hline
  obtain rfl | h | rfl | h := h
  · exact ⟨by decide, rfl⟩
  · rw [hmembers] at h
    split at h
    · rw [List.map_singleton, List.mem_singleton] at h
      subst h
      exact ⟨by decide, rfl⟩
    · obtain ⟨text, htext, rfl⟩ := List.mem_map.1 h
      obtain ⟨s, hs, hmem⟩ := List.mem_flatMap.1 htext
      exact hslot s hs (List.mem_append_left _ (List.mem_map_of_mem hmem))
  · exact ⟨by decide, rfl⟩
  · obtain ⟨text, htext, rfl⟩ := List.mem_map.1 h
    obtain ⟨s, hs, hmem⟩ := List.mem_flatMap.1 htext
    exact hslot s hs (List.mem_append_right _ (List.mem_map_of_mem hmem))

end AudioShader
