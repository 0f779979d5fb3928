/-
# One name behind a path

A name without slashes, written behind a path, is one more segment at its end. So
the parts of the two are those of the path and the name itself, unless the name is
idle, and the place they lead to lies right in the place that the path leads to.

Key theorems: `Path.segments_join`, `Path.components_join`, `FileTree.locate_join`.
-/
import AudioShader.Files.Tree
import AudioShader.Proofs.Action
import AudioShader.Proofs.Text.Words

namespace AudioShader

namespace Path

variable {p : Path} {name : String}

theorem isAbsolute_name (h : '/' ∉ name.toList) : isAbsolute ⟨name⟩ = false := by
  rw [Bool.eq_false_iff]
  intro habsolute
  have hhead : name.toList.head? = some '/' := by simpa [isAbsolute] using habsolute
  exact h (List.mem_of_mem_head? hhead)

theorem segments_name (h : '/' ∉ name.toList) : segments ⟨name⟩ = [name] := by
  rw [segments, Text.splitAt_of_not_mem h, List.map_singleton, String.ofList_toList]

/-- Behind no path the name stands alone. -/
theorem join_empty (h : '/' ∉ name.toList) : (⟨""⟩ : Path).join ⟨name⟩ = ⟨name⟩ := by
  rw [join, isAbsolute_name h, if_neg Bool.false_ne_true]
  simp

/-- Behind a path the name is the last segment, in the place of an empty one that is
behind a slash. -/
theorem segments_join (hp : p.text ≠ "") (h : '/' ∉ name.toList) : ∃ front, front ≠ [] ∧
    (p.segments = front ∨ p.segments = front ++ [""]) ∧
      (p.join ⟨name⟩).segments = front ++ [name] := by
  have hne (cs : List Char) : (Text.splitAt '/' cs).map String.ofList ≠ [] :=
    fun hnil => Text.splitAt_ne_nil '/' cs (List.map_eq_nil_iff.1 hnil)
  have hlast (cs w : List Char) (hw : '/' ∉ w) :
      (Text.splitAt '/' (cs ++ '/' :: w)).map String.ofList =
        (Text.splitAt '/' cs).map String.ofList ++ [String.ofList w] := by
    rw [Text.splitAt_concat hw, List.map_append, List.map_singleton]
  unfold join
  rw [isAbsolute_name h, if_neg Bool.false_ne_true]
  by_cases hslash : p.text.toList.getLast? = some '/'
  · obtain ⟨before, hbefore⟩ := List.getLast?_eq_some_iff.1 hslash
    refine ⟨(Text.splitAt '/' before).map String.ofList, hne before, .inr ?_, ?_⟩
    · rw [segments, hbefore]
      exact hlast before [] (by simp)
    · rw [hslash, beq_self_eq_true, Bool.or_true, if_pos rfl, segments, String.toList_append, hbefore,
        List.append_assoc]
      exact (hlast before _ h).trans (by rw [String.ofList_toList])
  · refine ⟨p.segments, hne _, .inl rfl, ?_⟩
    have hend : (p.text.isEmpty || p.text.toList.getLast? == some '/') = false := by
      rw [Bool.or_eq_false_iff, beq_eq_false_iff_ne]
      exact ⟨by simpa using hp, hslash⟩
    rw [hend, if_neg Bool.false_ne_true, segments, String.toList_append, String.toList_append,
      List.append_assoc]
    exact (hlast _ _ h).trans (by rw [String.ofList_toList]; rfl)

/-- The name is the last segment in any case. -/
theorem exists_segments_join (p : Path) (h : '/' ∉ name.toList) :
    ∃ front, (p.join ⟨name⟩).segments = front ++ [name] := by
  by_cases hp : p.text = ""
  · obtain ⟨text⟩ := p
    subst hp
    exact ⟨[], by rw [join_empty h, segments_name h, List.nil_append]⟩
  · obtain ⟨front, -, -, hjoin⟩ := segments_join hp h
    exact ⟨front, hjoin⟩

/-- The path stands in front of the two. -/
theorem exists_text_join (h : '/' ∉ name.toList) :
    ∃ more, (p.join ⟨name⟩).text.toList = p.text.toList ++ more := by
  unfold join
  rw [isAbsolute_name h, if_neg Bool.false_ne_true]
  split
  · exact ⟨name.toList, String.toList_append⟩
  · exact ⟨'/' :: name.toList, by simp⟩

theorem isAbsolute_join (hp : p.text ≠ "") (h : '/' ∉ name.toList) :
    (p.join ⟨name⟩).isAbsolute = p.isAbsolute := by
  obtain ⟨more, hmore⟩ := exists_text_join (p := p) h
  have hne : p.text.toList ≠ [] := fun hnil => hp (String.toList_eq_nil_iff.1 hnil)
  rw [isAbsolute, isAbsolute, hmore, List.head?_append_of_ne_nil _ hne]

/-- The parts of a path by its segments. -/
theorem components_eq {first : String} {rest : List String} (h : p.segments = first :: rest) :
    p.components = (if p.isAbsolute then [.root] else if first = "" then []
      else if first = "." then [.here] else [component first]) ++
        (rest.filter fun s => !isIdle s).map component := by
  unfold components
  rw [h]
  dsimp only
  split
  · rfl
  · split
    · rfl
    · split <;> rfl

/-- A name behind a path adds itself to the parts, unless it is idle. -/
theorem components_join (hp : p.text ≠ "") (h : '/' ∉ name.toList) :
    (p.join ⟨name⟩).components = p.components ++ (if isIdle name then [] else [component name]) := by
  obtain ⟨front, hne, hsegments, hjoin⟩ := segments_join hp h
  obtain ⟨first, rest, rfl⟩ := List.exists_cons_of_ne_nil hne
  have hbody (xs : List String) : ((xs ++ [name]).filter fun s => !isIdle s).map component =
      (xs.filter fun s => !isIdle s).map component ++
        (if isIdle name then [] else [component name]) := by
    by_cases hidle : isIdle name = true <;> simp [hidle]
  rw [components_eq hjoin, isAbsolute_join hp h]
  rcases hsegments with hsegments | hsegments
  · rw [components_eq hsegments, List.append_assoc]
    exact congrArg _ (hbody rest)
  · rw [components_eq hsegments, List.append_assoc]
    -- the empty segment behind the slash is idle
    have hempty : ((rest ++ [""]).filter fun s => !isIdle s) = rest.filter fun s => !isIdle s := by
      simp [isIdle]
    exact congrArg _ ((hbody rest).trans (by rw [← hempty]; rfl))

theorem components_join_name (p : Path) (h : '/' ∉ name.toList) (hidle : isIdle name = false) :
    (p.join ⟨name⟩).components = p.components ++ [component name] := by
  by_cases hp : p.text = ""
  · obtain ⟨text⟩ := p
    subst hp
    have hname : name ≠ "" ∧ name ≠ "." := by simpa [isIdle] using hidle
    have hempty : components ⟨""⟩ = [] := rfl
    rw [join_empty h, components_eq (segments_name h), isAbsolute_name h, hempty]
    simp [hname.1, hname.2]
  · rw [components_join hp h, hidle]
    simp

/-- An idle name behind a path is no part of its own. -/
theorem components_join_idle (p : Path) (h : '/' ∉ name.toList) (hidle : isIdle name = true)
    (s : String) : (p.join ⟨name⟩).components ≠ p.components ++ [.name s] := by
  by_cases hp : p.text = ""
  · obtain ⟨text⟩ := p
    subst hp
    have hname : name = "" ∨ name = "." := by simpa [isIdle] using hidle
    rw [join_empty h]
    rcases hname with rfl | rfl
    · have hempty : components ⟨""⟩ = [] := rfl
      simp [hempty]
    · have hhere : components ⟨"."⟩ = [.here] := rfl
      have hempty : components ⟨""⟩ = [] := rfl
      simp [hhere, hempty]
  · rw [components_join hp h, if_pos hidle]
    simp

end Path

namespace FileTree

variable {t : FileTree} {p : Path} {name : String}

/-- A step through a name leads from a folder to what has this name in it. -/
theorem step_eq_ok {place end' : Place} (hidle : Path.isIdle name = false) (hup : name ≠ "..")
    (h : t.step name place = .ok end') : ∃ names, place = .inside names ∧
      t.hasFolder names = true ∧ end' = .inside (names ++ [name]) := by
  cases place with
  | above => simp [step, hidle, hup] at h
  | inside names =>
    unfold step at h
    dsimp only at h
    rw [hidle] at h
    simp only [hup, Bool.false_eq_true, if_false] at h
    split at h
    · cases h
    · next hfolder =>
      split at h
      · cases h
        exact ⟨names, rfl, by simpa using hfolder, rfl⟩
      · cases h

/-- A look-up comes to its end by a step through the last segment. -/
theorem exists_step_of_locate {place : Place} {front : List String}
    (hsegments : p.segments = front ++ [name]) (h : t.locate p = .ok place) :
    ¬p.text.toList.contains '\x00' = true ∧ ∃ before,
      front.foldlM (fun place segment => t.step segment place)
        (if p.isAbsolute then Place.above else .inside []) = .ok before ∧
      t.step name before = .ok place := by
  unfold locate at h
  by_cases hnul : p.text.toList.contains '\x00' = true
  · rw [if_pos hnul] at h
    cases h
  · rw [if_neg hnul] at h
    refine ⟨hnul, ?_⟩
    split at h
    · cases h
    · rw [hsegments, List.foldlM_append] at h
      obtain ⟨before, hfront, hlast⟩ := ok_of_bind h
      rw [List.foldlM_cons] at hlast
      obtain ⟨place', hstep, hend⟩ := ok_of_bind hlast
      cases hend
      exact ⟨before, hfront, hstep⟩

/-- What a name leads to behind a path lies right in the folder of the path. -/
theorem locate_join {place : Place} (hp : p.text ≠ "") (h : '/' ∉ name.toList)
    (hidle : Path.isIdle name = false) (hup : name ≠ "..")
    (hlocate : t.locate (p.join ⟨name⟩) = .ok place) :
    ∃ names, t.locate p = .ok (.inside names) ∧ place = .inside (names ++ [name]) := by
  obtain ⟨front, -, hsegments, hjoin⟩ := Path.segments_join hp h
  obtain ⟨more, hmore⟩ := Path.exists_text_join (p := p) h
  obtain ⟨hnul, before, hfront, hstep⟩ := exists_step_of_locate hjoin hlocate
  obtain ⟨names, rfl, hfolder, rfl⟩ := step_eq_ok hidle hup hstep
  have hnul' : ¬p.text.toList.contains '\x00' = true := by
    intro hmem
    rw [List.contains_iff_mem] at hnul hmem
    exact hnul (hmore ▸ List.mem_append_left more hmem)
  rw [Path.isAbsolute_join hp h] at hfront
  refine ⟨names, ?_, rfl⟩
  unfold locate
  rw [if_neg hnul', if_neg (by simpa using hp)]
  rcases hsegments with hsegments | hsegments
  · rw [hsegments]
    exact hfront
  · have hslash : t.step "" (.inside names) = .ok (.inside names) := by
      simp [step, hfolder, Path.isIdle]
    rw [hsegments, List.foldlM_append, hfront]
    exact congrArg (· >>= Except.ok) hslash

end FileTree
end AudioShader
