/-
# The files of a module are the longest run of numbers

The stages of a module are the files `1.frag`, `2.frag` and so on up to the
first number that is missing. A look-up in a tree with finitely many files finds
only so many of them, so the bound on the numbers that are tried cuts none off.

Key definitions: `FileTree.RunsTo`.
Key theorems: `FileTree.exists_of_isFile_join`, `stageFiles_eq`.
-/
import Mathlib.Data.List.Nodup
import Mathlib.Data.List.Perm.Subperm
import AudioShader.Proofs.Files.Join
import AudioShader.Proofs.Text.Words
import AudioShader.Stage.Build

namespace AudioShader

namespace FileTree

variable {t : FileTree}

/-- A name behind a path is the name of the file that the path leads to. -/
theorem exists_of_isFile_join {p : Path} {name : String} (hslash : '/' ∉ name.toList)
    (hidle : Path.isIdle name = false) (hup : name ≠ "..") (h : t.isFile (p.join ⟨name⟩) = true) :
    ∃ f ∈ t.files, f.1.getLast? = some name := by
  unfold isFile at h
  split at h
  · next names hlocate =>
    obtain ⟨bytes, hbytes⟩ := Option.isSome_iff_exists.1 h
    obtain ⟨f, hf, -⟩ := Option.map_eq_some_iff.1 hbytes
    refine ⟨f, List.mem_of_find?_eq_some hf, ?_⟩
    have hnames : f.1 = names := by simpa using List.find?_some hf
    rw [hnames]
    obtain ⟨front, hfront⟩ := p.exists_segments_join hslash
    obtain ⟨-, place, -, hstep⟩ := exists_step_of_locate hfront hlocate
    obtain ⟨before, -, -, hplaces⟩ := step_eq_ok hidle hup hstep
    cases hplaces
    exact List.getLast?_concat
  · cases h

/-! ### The run of stage files -/

/-- A folder has the stage files from 1 to `n`, and not the next one. -/
structure RunsTo (t : FileTree) (dir : Path) (n : Nat) : Prop where
  files : ∀ i < n, t.isFile (stageFile dir (i + 1)) = true
  ends : t.isFile (stageFile dir (n + 1)) = false

/-- The name of the file of a stage. -/
def stageName (ordinal : Nat) : String := s!"{ordinal}.frag"

theorem toList_stageName (k : Nat) : (stageName k).toList = (toString k).toList ++ ".frag".toList := by
  rw [stageName, String.toList_append]
  rfl

theorem stageName_injective : Function.Injective stageName := by
  intro j k h
  have hlist := congrArg String.toList h
  rw [toList_stageName, toList_stageName, List.append_left_inj, toList_toString, toList_toString] at hlist
  have hvalue := congrArg (Nat.ofDigitChars 10 · 0) hlist
  simpa [Nat.ofDigitChars_ten_toDigits] using hvalue

/-- The file of a stage that is there is listed under the name of the stage. -/
theorem exists_of_isFile_stageFile {dir : Path} {k : Nat} (h : t.isFile (stageFile dir k) = true) :
    stageName k ∈ t.files.filterMap fun f => f.1.getLast? := by
  have hchars (c : Char) (hc : c ∈ (stageName k).toList) : c.isDigit = true ∨ c ∈ ".frag".toList := by
    rw [toList_stageName] at hc
    exact (List.mem_append.1 hc).imp_left isDigit_of_mem_toString
  have hslash : '/' ∉ (stageName k).toList := by
    intro hc
    rcases hchars _ hc with hdigit | hmem
    · exact absurd hdigit (by decide)
    · exact absurd hmem (by decide)
  have hletter : 'f' ∈ (stageName k).toList := by
    rw [toList_stageName]
    exact List.mem_append_right _ (by decide)
  have hne (s : String) (hs : 'f' ∉ s.toList) : stageName k ≠ s := fun heq => hs (heq ▸ hletter)
  have hidle : Path.isIdle (stageName k) = false := by
    rw [Path.isIdle, Bool.or_eq_false_iff, beq_eq_false_iff_ne, beq_eq_false_iff_ne]
    exact ⟨hne "" (by decide), hne "." (by decide)⟩
  obtain ⟨f, hf, hname⟩ := exists_of_isFile_join hslash hidle (hne ".." (by decide)) h
  exact List.mem_filterMap.2 ⟨f, hf, hname⟩

/-- A folder has no more stage files than there are files. -/
theorem le_of_isFile_stageFile {dir : Path} {n : Nat}
    (h : ∀ i < n, t.isFile (stageFile dir (i + 1)) = true) : n ≤ t.files.length := by
  have hnodup : ((List.range n).map fun i => stageName (i + 1)).Nodup :=
    List.nodup_range.map fun _ _ h => Nat.succ.inj (stageName_injective h)
  have hsub : ((List.range n).map fun i => stageName (i + 1)) ⊆
      t.files.filterMap fun f => f.1.getLast? := by
    intro name hname
    obtain ⟨i, hi, rfl⟩ := List.mem_map.1 hname
    exact exists_of_isFile_stageFile (h i (List.mem_range.1 hi))
  calc n = ((List.range n).map fun i => stageName (i + 1)).length := by simp
    _ ≤ (t.files.filterMap fun f => f.1.getLast?).length := (hnodup.subperm hsub).length_le
    _ ≤ t.files.length := List.length_filterMap_le ..

end FileTree

/-- The numbers from the first on that pass a test, up to one that does not or to
the bound. -/
theorem takeWhile_map_range {α : Type} (f : Nat → α) (p : α → Bool) : ∀ most : Nat, ∃ n ≤ most,
    ((List.range most).map f).takeWhile p = (List.range n).map f ∧
      (∀ i < n, p (f i) = true) ∧ (n < most → p (f n) = false)
  | 0 => ⟨0, Nat.le_refl 0, rfl, nofun, nofun⟩
  | most + 1 => by
    obtain ⟨n, hn, htake, hpass, hstop⟩ := takeWhile_map_range f p most
    rw [List.range_succ, List.map_append, List.takeWhile_append, htake]
    simp only [List.length_map, List.length_range]
    by_cases hmost : n = most
    · subst hmost
      rw [if_pos rfl]
      by_cases hlast : p (f n) = true
      · refine ⟨n + 1, Nat.le_refl _, by simp [hlast, List.range_succ], fun i hi => ?_, by omega⟩
        rcases Nat.lt_or_eq_of_le (Nat.le_of_lt_succ hi) with hi | rfl
        · exact hpass i hi
        · exact hlast
      · exact ⟨n, Nat.le_succ n, by simp [hlast], hpass, fun _ => by simpa using hlast⟩
    · rw [if_neg hmost]
      exact ⟨n, Nat.le_succ_of_le hn, rfl, hpass, fun _ => hstop (by omega)⟩

/-- **The stage files are the longest run.** -/
theorem stageFiles_eq (t : FileTree) (dir : Path) : ∃ n, t.RunsTo dir n ∧
    stageFiles t dir = (List.range n).map fun i => stageFile dir (i + 1) := by
  obtain ⟨n, hn, htake, hfiles, hstop⟩ :=
    takeWhile_map_range (fun i => stageFile dir (i + 1)) t.isFile t.files.length
  refine ⟨n, ⟨hfiles, ?_⟩, htake⟩
  rcases Nat.lt_or_eq_of_le hn with hlt | heq
  · exact hstop hlt
  · rw [Bool.eq_false_iff]
    intro hnext
    -- all numbers that were tried are files, so one more would be one too many
    have hall : ∀ i < n + 1, t.isFile (stageFile dir (i + 1)) = true := by
      intro i hi
      rcases Nat.lt_or_eq_of_le (Nat.le_of_lt_succ hi) with hi | rfl
      · exact hfiles i hi
      · exact hnext
    have hle := FileTree.le_of_isFile_stageFile hall
    omega

end AudioShader
