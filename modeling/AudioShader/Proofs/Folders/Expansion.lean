/-
# How the variables of a path are expanded

A path is written in segments: literal text, a dollar sign with a name behind it, bare
or in braces, and a dollar sign that names nothing. Every text is written so in exactly
one way, which does not depend on the variables. What stands for the text is what
stands for its segments, one after the other, and the first of them for which nothing
does is the fault.

Key definitions: `Segment`, `Segment.Precedes`, `Reading`, `Environment.segmentText`.
Key theorems: `exists_reading`, `Reading.eq`, `Environment.fillParts_written`,
`expansion_follows_reading`.
-/
import AudioShader.Folders.Expansion
import AudioShader.Proofs.Text.Cuts
import AudioShader.Proofs.Text.Letters
import Mathlib.Data.List.Forall2
import Mathlib.Data.List.TakeWhile

namespace AudioShader

/-! ### Segments -/

/-- What the text of a path is written in. -/
inductive Segment where
  /-- Text without dollar signs. -/
  | literal (text : List Char)
  /-- A dollar sign that names nothing. -/
  | dollar
  | bare (name : List Char)
  | braced (name : List Char)
  /-- A brace behind a dollar sign that is not closed in the text behind it. -/
  | unclosed (text : List Char)

namespace Segment

def written : Segment → List Char
  | .literal text => text
  | .dollar => ['$']
  | .bare name => '$' :: name
  | .braced name => '$' :: '\x7b' :: (name ++ ['\x7d'])
  | .unclosed text => '$' :: '\x7b' :: text

/-- The segment is one, and goes no further, where `rest` follows it. -/
def Precedes (rest : List Char) : Segment → Prop
  | .literal text => text ≠ [] ∧ '$' ∉ text ∧ ∀ c ∈ rest.head?, c = '$'
  | .dollar => ∀ c ∈ rest.head?, c ≠ '\x7b' ∧ Text.isNameChar c = false
  | .bare name => name ≠ [] ∧ (∀ c ∈ name, Text.isNameChar c = true) ∧
      ∀ c ∈ rest.head?, Text.isNameChar c = false
  | .braced name => '\x7d' ∉ name
  | .unclosed text => '\x7d' ∉ text ∧ rest = []

end Segment

/-- A text is read as segments, from left to right. -/
inductive Reading : List Segment → List Char → Prop
  | nil : Reading [] []
  | cons {s segments rest} : s.Precedes rest → Reading segments rest →
      Reading (s :: segments) (s.written ++ rest)

namespace Environment

/-- The value of the variable of a name. -/
def valueOf (env : Environment) (name : List Char) : Except PathFault (List Char) :=
  match env.get? (String.ofList name) with
  | some value => .ok value.toList
  | none => .error (.unset (String.ofList name))

/-- What stands for a segment of the text `input`. -/
def segmentText (env : Environment) (input : String) : Segment → Except PathFault (List Char)
  | .literal text => .ok text
  | .dollar => .ok ['$']
  | .bare name => env.valueOf name
  | .braced [] => .error (.unnamed input)
  | .braced name => env.valueOf name
  | .unclosed _ => .error (.unclosed input)

end Environment

/-! ### One reading -/

/-- The first segment of a text, and what follows it. -/
def cutSegment? : List Char → Option (Segment × List Char)
  | [] => none
  | '$' :: '\x7b' :: cs =>
    match Text.cutAt? ['\x7d'] cs with
    | none => some (.unclosed cs, [])
    | some (name, rest) => some (.braced name, rest)
  | c :: cs =>
    if c ≠ '$' then
      some (.literal ((c :: cs).takeWhile (· != '$')), (c :: cs).dropWhile (· != '$'))
    else if cs.takeWhile Text.isNameChar = [] then some (.dollar, cs)
    else some (.bare (cs.takeWhile Text.isNameChar), cs.dropWhile Text.isNameChar)

theorem cutSegment?_brace (cs : List Char) : cutSegment? ('$' :: '\x7b' :: cs) =
    match Text.cutAt? ['\x7d'] cs with
    | none => some (.unclosed cs, [])
    | some (name, rest) => some (.braced name, rest) := rfl

/-- Where no brace follows a dollar sign the first segment is text or a bare name. -/
theorem cutSegment?_cons {c : Char} {cs : List Char} (h : c = '$' → cs.head? ≠ some '\x7b') :
    cutSegment? (c :: cs) =
      if c ≠ '$' then
        some (.literal ((c :: cs).takeWhile (· != '$')), (c :: cs).dropWhile (· != '$'))
      else if cs.takeWhile Text.isNameChar = [] then some (.dollar, cs)
      else some (.bare (cs.takeWhile Text.isNameChar), cs.dropWhile Text.isNameChar) := by
  rw [cutSegment?.eq_def]
  split
  · rename_i heq
    cases heq
  · rename_i heq
    cases heq
    exact absurd rfl (h rfl)
  · rename_i heq
    cases heq
    rfl

/-- No name begins with a brace. -/
theorem head?_name_append {name : List Char} (hne : name ≠ [])
    (h : ∀ c ∈ name, Text.isNameChar c = true) (rest : List Char) :
    (name ++ rest).head? ≠ some '\x7b' := by
  intro hd
  cases name with
  | nil => exact hne rfl
  | cons c name =>
    have hc := h c List.mem_cons_self
    rw [Option.some.inj hd] at hc
    exact absurd hc (by decide)

/-- A segment is cut off where it is one. -/
theorem cutSegment?_written {s : Segment} {rest : List Char} (h : s.Precedes rest) :
    cutSegment? (s.written ++ rest) = some (s, rest) := by
  cases s with
  | literal text =>
    obtain ⟨hne, hplain, hrest⟩ := h
    cases text with
    | nil => exact absurd rfl hne
    | cons c text =>
      have hc : c ≠ '$' := by
        rintro rfl
        exact hplain List.mem_cons_self
      have hrun : ∀ d ∈ c :: text, (d != '$') = true := by
        intro d hd
        simp only [bne_iff_ne, ne_eq]
        rintro rfl
        exact hplain hd
      have hend : ∀ d ∈ rest.head?, (d != '$') = false := by
        intro d hd
        simp [hrest d hd]
      obtain ⟨htake, hdrop⟩ := Text.takeWhile_run hrun hend
      show cutSegment? (c :: (text ++ rest)) = _
      rw [cutSegment?_cons fun hd => absurd hd hc, if_pos hc, ← List.cons_append, htake, hdrop]
  | dollar =>
    have hbrace : rest.head? ≠ some '\x7b' := fun hd => (h _ hd).1 rfl
    have hrun : ∀ c ∈ ([] : List Char), Text.isNameChar c = true := by simp
    obtain ⟨htake, -⟩ := Text.takeWhile_run hrun fun c hc => (h c hc).2
    show cutSegment? ('$' :: rest) = _
    rw [cutSegment?_cons fun _ => hbrace, if_neg (by simp), if_pos (by simpa using htake)]
  | bare name =>
    obtain ⟨hne, hname, hrest⟩ := h
    obtain ⟨htake, hdrop⟩ := Text.takeWhile_run hname hrest
    have hbrace : (name ++ rest).head? ≠ some '\x7b' := head?_name_append hne hname rest
    show cutSegment? ('$' :: (name ++ rest)) = _
    rw [cutSegment?_cons fun _ => hbrace, if_neg (by simp), htake, hdrop, if_neg hne]
  | braced name =>
    have hcut := Text.cutAt?_singleton h rest
    show cutSegment? ('$' :: '\x7b' :: ((name ++ ['\x7d']) ++ rest)) = _
    rw [List.append_assoc, List.singleton_append, cutSegment?_brace, hcut]
  | unclosed text =>
    obtain ⟨hopen, rfl⟩ := h
    show cutSegment? ('$' :: '\x7b' :: (text ++ [])) = _
    rw [List.append_nil, cutSegment?_brace, Text.cutAt?_singleton_eq_none_iff.2 hopen]

/-- What is cut off is a segment. -/
theorem written_of_cutSegment? {cs rest : List Char} {s : Segment}
    (h : cutSegment? cs = some (s, rest)) : cs = s.written ++ rest ∧ s.Precedes rest := by
  rw [cutSegment?.eq_def] at h
  split at h
  · cases h
  · rename_i cs
    split at h
    · rename_i hnone
      cases h
      exact ⟨(List.append_nil _).symm, Text.cutAt?_singleton_eq_none_iff.1 hnone, rfl⟩
    · rename_i name rest hsome
      cases h
      obtain ⟨hcs, hname⟩ := Text.cutAt?_singleton_eq_some_iff.1 hsome
      refine ⟨?_, hname⟩
      rw [hcs]
      simp [Segment.written]
  · rename_i c cs hbrace
    split at h
    · rename_i hc
      cases h
      have hcs := List.takeWhile_append_dropWhile (p := (· != '$')) (l := c :: cs)
      refine ⟨hcs.symm, ?_, ?_, ?_⟩
      · rw [List.takeWhile_cons_of_pos (by simpa using hc)]
        exact List.cons_ne_nil _ _
      · intro hmem
        simpa using List.mem_takeWhile_imp hmem
      · intro d hd
        simpa using Text.head?_dropWhile _ _ d hd
    · rename_i hc
      obtain rfl : c = '$' := by simpa using hc
      split at h
      · rename_i hnil
        cases h
        refine ⟨rfl, fun d hd => ⟨?_, ?_⟩⟩
        · rintro rfl
          obtain ⟨more, rfl⟩ := List.head?_eq_some_iff.1 hd
          exact hbrace more rfl rfl
        · have hdrop := Text.head?_dropWhile Text.isNameChar rest
          rw [← List.takeWhile_append_dropWhile (p := Text.isNameChar) (l := rest), hnil] at hd
          exact hdrop d hd
      · rename_i hne
        cases h
        refine ⟨?_, hne, fun d hd => List.mem_takeWhile_imp hd, Text.head?_dropWhile _ _⟩
        show '$' :: cs = '$' :: (_ ++ _)
        rw [List.takeWhile_append_dropWhile]

theorem written_ne_nil {s : Segment} {rest : List Char} (h : s.Precedes rest) : s.written ≠ [] := by
  cases s with
  | literal text => exact h.1
  | dollar | bare name | braced name | unclosed text => exact List.cons_ne_nil _ _

theorem cutSegment?_ne_none (c : Char) (cs : List Char) : cutSegment? (c :: cs) ≠ none := by
  rw [cutSegment?.eq_def]
  split
  · rename_i heq
    cases heq
  · split <;> simp
  · split
    · simp
    · split <;> simp

/-- A text is read by cutting off its first segment and reading the rest. -/
theorem Reading.of_cut {cs rest : List Char} {s : Segment} {segments : List Segment}
    (h : cutSegment? cs = some (s, rest)) (hrest : Reading segments rest) :
    Reading (s :: segments) cs := by
  obtain ⟨hcs, hs⟩ := written_of_cutSegment? h
  rw [hcs]
  exact .cons hs hrest

/-- Every text is read. -/
theorem exists_reading (cs : List Char) : ∃ segments, Reading segments cs := by
  cases hcut : cutSegment? cs with
  | none =>
    cases cs with
    | nil => exact ⟨[], .nil⟩
    | cons c cs => exact absurd hcut (cutSegment?_ne_none c cs)
  | some found =>
    obtain ⟨s, rest⟩ := found
    obtain ⟨hcs, hs⟩ := written_of_cutSegment? hcut
    have hlength : rest.length < cs.length := by
      have := List.length_pos_iff.2 (written_ne_nil hs)
      rw [hcs, List.length_append]
      omega
    obtain ⟨segments, hread⟩ := exists_reading rest
    exact ⟨s :: segments, .of_cut hcut hread⟩
termination_by cs.length

/-- No text is read in two ways. -/
theorem Reading.eq {segments others : List Segment} {cs : List Char} (h : Reading segments cs)
    (h' : Reading others cs) : others = segments := by
  induction h generalizing others with
  | nil =>
    generalize hcs : ([] : List Char) = cs at h'
    cases h' with
    | nil => rfl
    | cons hs _ =>
      have := written_ne_nil hs
      simp_all
  | @cons s segments rest hs _ ih =>
    generalize hcs : s.written ++ rest = cs at h'
    cases h' with
    | nil =>
      have := written_ne_nil hs
      simp_all
    | @cons t others rest' ht hrest =>
      have hcut := cutSegment?_written hs
      rw [hcs, cutSegment?_written ht] at hcut
      cases hcut
      rw [ih hrest]

/-! ### The parts of segments -/

/-- Where no brace follows a dollar sign the text goes on with a bare name or a character. -/
theorem pathParts_cons {c : Char} {cs : List Char} (h : c = '$' → cs.head? ≠ some '\x7b') :
    pathParts (c :: cs) =
      if c = '$' ∧ cs.takeWhile Text.isNameChar ≠ [] then
        .named (cs.takeWhile Text.isNameChar) :: pathParts (cs.dropWhile Text.isNameChar)
      else .plain c :: pathParts cs := by
  apply pathParts.eq_3
  intro more hc hcs
  exact h hc (by rw [hcs]; rfl)

theorem pathParts_literal {text : List Char} (h : '$' ∉ text) (rest : List Char) :
    pathParts (text ++ rest) = text.map .plain ++ pathParts rest := by
  induction text with
  | nil => rfl
  | cons c text ih =>
    rw [List.mem_cons, not_or] at h
    have hc : c ≠ '$' := Ne.symm h.1
    rw [List.cons_append, pathParts_cons fun hd => absurd hd hc, if_neg fun hd => hc hd.1, ih h.2]
    rfl

theorem pathParts_dollar {rest : List Char} (h : Segment.dollar.Precedes rest) :
    pathParts ('$' :: rest) = .plain '$' :: pathParts rest := by
  have hbrace : rest.head? ≠ some '\x7b' := fun hd => (h _ hd).1 rfl
  have htake : rest.takeWhile Text.isNameChar = [] := by
    cases rest with
    | nil => rfl
    | cons c rest => exact List.takeWhile_cons_of_neg (by simp [(h c rfl).2])
  rw [pathParts_cons fun _ => hbrace, if_neg fun hd => hd.2 htake]

theorem pathParts_bare {name rest : List Char} (h : (Segment.bare name).Precedes rest) :
    pathParts ('$' :: (name ++ rest)) = .named name :: pathParts rest := by
  obtain ⟨hne, hname, hrest⟩ := h
  obtain ⟨htake, hdrop⟩ := Text.takeWhile_run hname hrest
  have hbrace : (name ++ rest).head? ≠ some '\x7b' := head?_name_append hne hname rest
  rw [pathParts_cons fun _ => hbrace, htake, hdrop, if_pos ⟨rfl, hne⟩]

/-- What braces close in is the name of a part; nothing is read behind braces without one. -/
theorem pathParts_braced {name : List Char} (h : '\x7d' ∉ name) (rest : List Char) :
    pathParts ('$' :: '\x7b' :: (name ++ '\x7d' :: rest)) =
      if name = [] then [.unnamed] else .named name :: pathParts rest := by
  have hcut := Text.cutAt?_singleton h rest
  rw [pathParts.eq_2]
  split
  · rename_i hnone
    rw [hcut] at hnone
    cases hnone
  · rename_i hempty
    rw [hcut] at hempty
    cases hempty
    rfl
  · rename_i hsome
    rw [hcut] at hsome
    cases hsome
    rfl

theorem pathParts_unclosed {text : List Char} (h : '\x7d' ∉ text) :
    pathParts ('$' :: '\x7b' :: text) = [.unclosed] := by
  have hcut := Text.cutAt?_singleton_eq_none_iff.2 h
  rw [pathParts.eq_2]
  split
  · rfl
  · rename_i hsome
    rw [hcut] at hsome
    cases hsome
  · rename_i hsome
    rw [hcut] at hsome
    cases hsome

/-! ### What stands for a text -/

/-- A member of a list behind others is its head, or is behind others in its tail. -/
theorem exists_split_cons {α : Type} {P Q : α → Prop} {a : α} {as : List α} :
    (∃ front x back, a :: as = front ++ x :: back ∧ (∀ y ∈ front, P y) ∧ Q x) ↔
      Q a ∨ P a ∧ ∃ front x back, as = front ++ x :: back ∧ (∀ y ∈ front, P y) ∧ Q x := by
  constructor
  · intro ⟨front, x, back, has, hfront, hx⟩
    cases front with
    | nil =>
      obtain ⟨rfl, rfl⟩ := List.cons.inj has
      exact .inl hx
    | cons b front =>
      obtain ⟨rfl, rfl⟩ := List.cons.inj has
      obtain ⟨ha, hfront⟩ := List.forall_mem_cons.1 hfront
      exact .inr ⟨ha, front, x, back, rfl, hfront, hx⟩
  · intro h
    rcases h with ha | ⟨ha, front, x, back, rfl, hfront, hx⟩
    · exact ⟨[], a, as, rfl, by simp, ha⟩
    · exact ⟨a :: front, x, back, rfl, List.forall_mem_cons.2 ⟨ha, hfront⟩, hx⟩

namespace Environment

variable {env : Environment} {input : String}

theorem fillParts_cons (part : PathPart) (parts : List PathPart) :
    env.fillParts input (part :: parts) =
      (env.fillPart input part).bind fun front => (env.fillParts input parts).map (front ++ ·) := by
  rw [fillParts]
  cases env.fillPart input part with
  | error fault => rfl
  | ok front => cases env.fillParts input parts <;> rfl

theorem fillParts_plain (text : List Char) (parts : List PathPart) :
    env.fillParts input (text.map .plain ++ parts) =
      (env.fillParts input parts).map (text ++ ·) := by
  induction text with
  | nil =>
    rw [List.map_nil, List.nil_append]
    cases env.fillParts input parts <;> rfl
  | cons c text ih =>
    rw [List.map_cons, List.cons_append, fillParts_cons, ih]
    cases env.fillParts input parts <;> rfl

/-- What stands for a text is what stands for its first segment, and then what stands
for the rest of it. -/
theorem fillParts_written {s : Segment} {rest : List Char} (h : s.Precedes rest) :
    env.fillParts input (pathParts (s.written ++ rest)) =
      (env.segmentText input s).bind fun text =>
        (env.fillParts input (pathParts rest)).map (text ++ ·) := by
  cases s with
  | literal text =>
    show env.fillParts input (pathParts (text ++ rest)) = _
    rw [pathParts_literal h.2.1, fillParts_plain]
    rfl
  | dollar =>
    show env.fillParts input (pathParts ('$' :: rest)) = _
    rw [pathParts_dollar h, fillParts_cons]
    rfl
  | bare name =>
    show env.fillParts input (pathParts ('$' :: (name ++ rest))) = _
    rw [pathParts_bare h, fillParts_cons]
    rfl
  | braced name =>
    have hwritten : (Segment.braced name).written ++ rest =
        '$' :: '\x7b' :: (name ++ '\x7d' :: rest) := by simp [Segment.written]
    rw [hwritten, pathParts_braced h]
    cases name with
    | nil => rfl
    | cons c name =>
      rw [if_neg (List.cons_ne_nil _ _), fillParts_cons]
      rfl
  | unclosed text =>
    obtain ⟨hopen, rfl⟩ := h
    show env.fillParts input (pathParts ('$' :: '\x7b' :: (text ++ []))) = _
    rw [List.append_nil, pathParts_unclosed hopen]
    rfl

/-- A text stands for something if all its segments do: for their texts in their order. -/
theorem fillParts_eq_ok_iff {segments : List Segment} {cs output : List Char}
    (h : Reading segments cs) : env.fillParts input (pathParts cs) = .ok output ↔
      ∃ texts, List.Forall₂ (fun s text => env.segmentText input s = .ok text) segments texts ∧
        output = texts.flatten := by
  induction h generalizing output with
  | nil =>
    rw [pathParts.eq_1]
    constructor
    · intro hout
      cases hout
      exact ⟨[], .nil, rfl⟩
    · rintro ⟨texts, htexts, hout⟩
      cases htexts
      rw [hout]
      rfl
  | @cons s segments rest hs _ ih =>
    rw [fillParts_written hs]
    constructor
    · intro hout
      cases hs : env.segmentText input s with
      | error fault =>
        rw [hs] at hout
        cases hout
      | ok text =>
        cases hrest : env.fillParts input (pathParts rest) with
        | error fault =>
          rw [hs, hrest] at hout
          cases hout
        | ok back =>
          rw [hs, hrest] at hout
          obtain ⟨texts, htexts, hback⟩ := ih.1 hrest
          refine ⟨text :: texts, .cons hs htexts, ?_⟩
          rw [List.flatten_cons, ← hback]
          exact (Except.ok.inj hout).symm
    · rintro ⟨texts, htexts, hout⟩
      cases htexts with
      | @cons _ text _ texts hs htexts =>
        rw [hs, hout]
        show (env.fillParts input (pathParts rest)).map (text ++ ·) = _
        rw [ih.2 ⟨texts, htexts, rfl⟩]
        rfl

/-- The first segment that stands for nothing is the fault of a text. -/
theorem fillParts_eq_error_iff {segments : List Segment} {cs : List Char} {fault : PathFault}
    (h : Reading segments cs) : env.fillParts input (pathParts cs) = .error fault ↔
      ∃ front s back, segments = front ++ s :: back ∧
        (∀ u ∈ front, ∃ text, env.segmentText input u = .ok text) ∧
        env.segmentText input s = .error fault := by
  induction h with
  | nil => simp [pathParts.eq_1, fillParts]
  | @cons s segments rest hs _ ih =>
    rw [fillParts_written hs, exists_split_cons]
    cases hs : env.segmentText input s with
    | error other =>
      have hno : ¬∃ text, Except.error other = (Except.ok text : Except PathFault (List Char)) := by simp
      rw [or_iff_left fun hok => hno hok.1]
      rfl
    | ok text =>
      have hyes : ∃ front, Except.ok text = (Except.ok front : Except PathFault (List Char)) := ⟨text, rfl⟩
      rw [or_iff_right (by simp), and_iff_right hyes, ← ih]
      show (env.fillParts input (pathParts rest)).map (text ++ ·) = .error fault ↔ _
      cases env.fillParts input (pathParts rest) <;> simp [Except.map]

theorem fill_eq_ok_iff {segments : List Segment} {output : String}
    (h : Reading segments input.toList) : env.fill input = .ok output ↔
      ∃ texts, List.Forall₂ (fun s text => env.segmentText input s = .ok text) segments texts ∧
        output = String.ofList texts.flatten := by
  have hlist (text : List Char) : String.ofList text = output ↔ text = output.toList :=
    ⟨fun ht => by rw [← ht, String.toList_ofList], fun ht => by rw [ht, String.ofList_toList]⟩
  have hfill : env.fill input = .ok output ↔
      env.fillParts input (pathParts input.toList) = .ok output.toList := by
    rw [fill]
    cases env.fillParts input (pathParts input.toList) <;> simp [Except.map, hlist]
  rw [hfill, fillParts_eq_ok_iff h]
  simp only [← hlist, eq_comm]

theorem fill_eq_error_iff {segments : List Segment} {fault : PathFault}
    (h : Reading segments input.toList) : env.fill input = .error fault ↔
      ∃ front s back, segments = front ++ s :: back ∧
        (∀ u ∈ front, ∃ text, env.segmentText input u = .ok text) ∧
        env.segmentText input s = .error fault := by
  rw [← fillParts_eq_error_iff h, fill]
  cases env.fillParts input (pathParts input.toList) <;> simp [Except.map]

/-- A text without dollar signs stands for itself. -/
theorem fill_of_plain (h : '$' ∉ input.toList) : env.fill input = .ok input := by
  have hparts := pathParts_literal h []
  rw [List.append_nil, pathParts.eq_1] at hparts
  rw [fill, hparts, fillParts_plain]
  show Except.ok (String.ofList (input.toList ++ [])) = _
  rw [List.append_nil, String.ofList_toList]

end Environment

/-- **A path is expanded as it is read.** Every text is written in exactly one way in
segments: literal text, dollar signs that name nothing, names as long as they go, and
braces up to the next closing one. Whatever the variables are, what stands for the text
is what stands for its segments in their order: literal text and lone dollar signs for
themselves, and names for the values of their variables, which are not read again. The
text is refused exactly if one of them stands for nothing, since its brace is not
closed, it has no name or no variable has the name, and the first of these is the
fault. A text without dollar signs stands for itself. -/
theorem expansion_follows_reading (input : String) :
    (∃ segments, Reading segments input.toList ∧
      (∀ others, Reading others input.toList → others = segments) ∧
      ∀ env : Environment,
        (∀ output, env.fill input = .ok output ↔
          ∃ texts, List.Forall₂ (fun s text => env.segmentText input s = .ok text) segments texts ∧
            output = String.ofList texts.flatten) ∧
        ∀ fault, env.fill input = .error fault ↔
          ∃ front s back, segments = front ++ s :: back ∧
            (∀ u ∈ front, ∃ text, env.segmentText input u = .ok text) ∧
            env.segmentText input s = .error fault) ∧
    ('$' ∉ input.toList → ∀ env : Environment, env.fill input = .ok input) := by
  obtain ⟨segments, hread⟩ := exists_reading input.toList
  have hunique : ∀ others, Reading others input.toList → others = segments :=
    fun others hothers => hread.eq hothers
  refine ⟨⟨segments, hread, hunique, fun env => ⟨?_, ?_⟩⟩, ?_⟩
  · exact fun output => Environment.fill_eq_ok_iff hread
  · exact fun fault => Environment.fill_eq_error_iff hread
  · exact fun hplain env => Environment.fill_of_plain hplain

/-- The variables `A` and `A B`, whose values look like references. -/
def dollarVariables : Environment := ⟨[("A", "$B\x7b"), ("A B", "$\x7b")]⟩

/-- Names, braces and lone dollar signs next to each other: values are not read again,
and of two references that stand for nothing the first one is the fault. -/
theorem expansion_dollarVariables :
    dollarVariables.fill "é$A$\x7bA B\x7d$$-$A" = .ok "é$B\x7b$\x7b$$-$B\x7b" ∧
      dollarVariables.fill "$A$C$\x7bA" = .error (.unset "C") ∧
      '$' ∉ "mods/é".toList ∧ dollarVariables.fill "mods/é" = .ok "mods/é" := by
  refine ⟨?_, ?_, by decide, (expansion_follows_reading "mods/é").2 (by decide) dollarVariables⟩
  · obtain ⟨⟨segments, -, hunique, hfill⟩, -⟩ :=
      expansion_follows_reading "é$A$\x7bA B\x7d$$-$A"
    have hread : Reading [.literal ['é'], .bare ['A'], .braced "A B".toList, .dollar, .dollar,
        .literal ['-'], .bare ['A']] "é$A$\x7bA B\x7d$$-$A".toList :=
      .of_cut rfl (.of_cut rfl (.of_cut rfl (.of_cut rfl (.of_cut rfl (.of_cut rfl (.of_cut rfl
        .nil))))))
    obtain rfl := hunique _ hread
    refine ((hfill dollarVariables).1 _).2 ⟨[['é'], "$B\x7b".toList, "$\x7b".toList, ['$'], ['$'],
      ['-'], "$B\x7b".toList], ?_, rfl⟩
    exact .cons rfl (.cons rfl (.cons rfl (.cons rfl (.cons rfl (.cons rfl (.cons rfl .nil))))))
  · obtain ⟨⟨segments, -, hunique, hfill⟩, -⟩ := expansion_follows_reading "$A$C$\x7bA"
    have hread : Reading [.bare ['A'], .bare ['C'], .unclosed ['A']] "$A$C$\x7bA".toList :=
      .of_cut rfl (.of_cut rfl (.of_cut rfl .nil))
    obtain rfl := hunique _ hread
    refine ((hfill dollarVariables).2 _).2 ⟨[.bare ['A']], .bare ['C'], [.unclosed ['A']], rfl, ?_, rfl⟩
    exact List.forall_mem_singleton.2 ⟨"$B\x7b".toList, rfl⟩

end AudioShader
