/-
# Settings stay valid

A request that changes a setting checks its argument first, so settings that
chains can be run with are never changed to ones that they cannot. This holds of
all settings that loading comes to: in front of the first request, behind each
line of the requests and of the entry file with what it includes, and behind a
request that is refused. So the check that ends loading always passes.

Key definitions: `PipelineSettings.Valid`, `Loading`.
Key theorems: `valid_of_change`, `maintains_settingsRequests`, `check_of_valid`,
`valid_throughout_loading`.
-/
import AudioShader.Proofs.Number.Quotient
import AudioShader.Proofs.Source.Walk
import AudioShader.Proofs.Stage.Sources
import AudioShader.Settings.Load

namespace AudioShader

/-! ### Valid settings -/

/-- Settings that a pipeline can be run with. -/
structure PipelineSettings.Valid (s : PipelineSettings) : Prop where
  frameRate : 1 ≤ s.frameRate
  sampleRate : 1 ≤ s.sampleRate ∧ s.sampleRate < UInt32.size
  sampleSize : 1 ≤ s.sampleSize ∧ s.sampleSize < UInt32.size
  bufferSize : 2 ≤ s.bufferSize ∧ ∃ k, s.bufferSize = 2 ^ k
  avgFrames : 1 ≤ s.avgFrames
  glslVersion : 1 ≤ s.glslVersion
  uniformLimit : 1 ≤ s.uniformLimit

theorem isBufferLength_iff {n : Nat} : isBufferLength n = true ↔ 2 ≤ n ∧ ∃ k, n = 2 ^ k := by
  constructor
  · intro h
    rw [isBufferLength, Bool.and_eq_true, decide_eq_true_eq, beq_iff_eq] at h
    exact ⟨h.1, n.log2, h.2.symm⟩
  · rintro ⟨htwo, k, rfl⟩
    rw [isBufferLength, Nat.log2_two_pow, Bool.and_eq_true, decide_eq_true_eq, beq_iff_eq]
    exact ⟨htwo, rfl⟩

/-- The settings where nothing is set. -/
theorem valid_default : ({} : PipelineSettings).Valid where
  frameRate := by decide
  sampleRate := by decide
  sampleSize := by decide
  bufferSize := ⟨by decide, 11, rfl⟩
  avgFrames := by decide
  glslVersion := by decide
  uniformLimit := by decide

/-- The transforms can be run with valid settings. -/
theorem check_of_valid {s : PipelineSettings} (h : s.Valid) : s.params.check = .ok () := by
  obtain ⟨hrate, hrate'⟩ := h.sampleRate
  obtain ⟨hsize, hsize'⟩ := h.sampleSize
  have hlength : isBufferLength s.params.bufferLen = true := isBufferLength_iff.2 h.bufferSize
  have hnormal : IsNormal (-56) 10 s.params.updateRate :=
    isNormal_div (by omega) hrate' (by omega) hsize'
  have hframes : s.params.avgFrames ≠ 0 := Nat.ne_of_gt h.avgFrames
  unfold TransformParams.check
  rw [hlength, hnormal.isFinite, decide_eq_true hnormal.pos]
  simp only [Bool.not_true, Bool.and_self, Bool.false_eq_true, if_false, hframes]

/-! ### Requests -/

theorem bounds_of_positive {what : String} {n : Int} {v : Nat} (h : positive what n = .ok v) :
    1 ≤ v ∧ v < UInt32.size := by
  unfold positive at h
  split at h
  · next hn =>
    cases h
    omega
  · cases h

theorem pow_of_bufferLength {n v : Nat} (h : bufferLength n = .ok v) :
    2 ≤ v ∧ ∃ k, v = 2 ^ k := by
  unfold bufferLength at h
  split at h
  · next hn =>
    cases h
    exact isBufferLength_iff.1 hn
  · cases h

section Change

variable {args : List Arg} {s : PipelineSettings} {change : PipelineSettings → PipelineSettings}

/-- A change by a value that is made of the argument. -/
theorem valid_of_made {α : Type} {made : Except SettingFault α}
    {put : α → PipelineSettings → PipelineSettings} (h : (do return put (← made)) = .ok change)
    (hput : ∀ v, made = .ok v → (put v s).Valid) : (change s).Valid := by
  obtain ⟨v, hv, h⟩ := ok_of_bind h
  cases h
  exact hput v hv

/-- A change by a number of at least one. -/
theorem valid_of_number {what : String} {put : Nat → PipelineSettings → PipelineSettings}
    (h : (do return put (← positive what (← intArg args))) = .ok change)
    (hput : ∀ v, 1 ≤ v ∧ v < UInt32.size → (put v s).Valid) : (change s).Valid := by
  obtain ⟨n, -, h⟩ := ok_of_bind h
  exact valid_of_made h fun v hv => hput v (bounds_of_positive hv)

/-- What a request changes leaves valid settings valid. -/
theorem valid_of_change {setting : Setting} (h : setting.change args = .ok change) (hs : s.Valid) :
    (change s).Valid := by
  cases setting with
  | module =>
    obtain ⟨text, -, h⟩ := ok_of_bind h
    exact valid_of_made h fun _ _ => { hs with }
  | frameRate => exact valid_of_number h fun _ hv => { hs with frameRate := hv.1 }
  | interpolate => exact valid_of_made h fun _ _ => { hs with }
  | sampleRate => exact valid_of_number h fun _ hv => { hs with sampleRate := hv }
  | sampleSize => exact valid_of_number h fun _ hv => { hs with sampleSize := hv }
  | bufferSize =>
    obtain ⟨n, -, h⟩ := ok_of_bind h
    obtain ⟨v, -, h⟩ := ok_of_bind h
    exact valid_of_made h fun _ hv => { hs with bufferSize := pow_of_bufferLength hv }
  | gravityStep => exact valid_of_made h fun _ _ => { hs with }
  | avgFrames => exact valid_of_number h fun _ hv => { hs with avgFrames := hv.1 }
  | avgWindow => exact valid_of_made h fun _ _ => { hs with }
  | fftScale => exact valid_of_made h fun _ _ => { hs with }
  | fftCutoff => exact valid_of_made h fun _ _ => { hs with }
  | smoothFactor => exact valid_of_made h fun _ _ => { hs with }
  | smoothDistance =>
    obtain ⟨x, -, h⟩ := ok_of_bind h
    exact valid_of_made h fun _ _ => { hs with }
  | accelFft => exact valid_of_made h fun _ _ => { hs with }
  | background =>
    obtain ⟨text, -, h⟩ := ok_of_bind h
    exact valid_of_made h fun _ _ => { hs with }
  | glslVersion => exact valid_of_number h fun _ hv => { hs with glslVersion := hv.1 }
  | uniformLimit => exact valid_of_number h fun _ hv => { hs with uniformLimit := hv.1 }

end Change

/-- The requests of a configuration leave valid settings valid, also where they
are refused. -/
theorem maintains_settingsRequests : settingsRequests.Maintains PipelineSettings.Valid := by
  intro name request hget args s out s' h hs
  obtain ⟨setting, -, rfl⟩ := List.mem_map.1 (RequestTable.mem_of_get?_ofList hget)
  change setting.handler args s = (out, s') at h
  unfold Setting.handler at h
  cases hchange : setting.change args with
  | error fault =>
    rw [hchange] at h
    cases h
    exact hs
  | ok change =>
    rw [hchange] at h
    cases h
    exact valid_of_change hchange hs

/-! ### Loading -/

/-- What a configuration is processed with. -/
def settingsSetup (files : FileTree) : Setup PipelineSettings := { files, requests := settingsRequests }

/-- The unit that the requests of a run file make. -/
def requestUnit (folders : AppFolders) (requests : List String) : SourceUnit :=
  folders.equip (.ofText ⟨"<requests>"⟩ (requestLines requests))

/-- Settings that loading comes to, whether it goes on from them or not. -/
inductive Loading (files : FileTree) (run : RunConfig) (folders : AppFolders) : PipelineSettings → Prop
  | start : Loading files run folders {}
  | request {s} : run.requests ≠ [] →
      (settingsSetup files).Sees (requestUnit folders run.requests) {} s → Loading files run folders s
  | entry {log log' s₀ path unit s} :
      applyRequests files folders run.requests {} log = (.ok s₀, log') →
      (folders.entryCandidates run.entryPath).find? files.isFile = some path →
      SourceUnit.ofFile files path = .ok unit →
      (settingsSetup files).Sees (folders.equip unit) s₀ s → Loading files run folders s

/-- Processing a configuration comes to the settings that it leaves, however it
ends. -/
theorem sees_configure (files : FileTree) (unit : SourceUnit) (s : PipelineSettings) :
    Action.Ends (fun t => t = s) (configure files unit)
      (fun _ => (settingsSetup files).Sees unit s) fun _ => (settingsSetup files).Sees unit s := by
  intro t ht log
  rw [ht]
  have hsees := sees_process (settingsSetup files) unit s log
  change (settingsSetup files).Sees unit s (configure files unit s log).1.2 at hsees
  rcases hr : configure files unit s log with ⟨⟨e | x, s'⟩, log'⟩
  · rw [hr] at hsees
    exact hsees
  · rw [hr] at hsees
    exact hsees

theorem ends_configureFrom (files : FileTree) (s : PipelineSettings) (unit : SourceUnit) :
    Logged.Ends (configureFrom files s unit) ((settingsSetup files).Sees unit s)
      fun e => ∃ cause, e = .source cause := by
  refine Logged.Ends.bind (Q := fun r => (settingsSetup files).Sees unit s r.2) ?_ fun _ h => .pure h
  refine Logged.Ends.mapError (Logged.Ends.of_from? ?_)
  exact (sees_configure files unit s).weaken (fun _ h => h) (fun _ _ h => h) fun e _ _ => ⟨e, rfl⟩

section Loading

variable {files : FileTree} {run : RunConfig} {folders : AppFolders}

/-- The requests of a run file leave the settings where nothing is set if there
are none, and others that processing them comes to. -/
theorem ends_applyRequests (files : FileTree) (run : RunConfig) (folders : AppFolders) :
    Logged.Ends (applyRequests files folders run.requests {})
    (fun s => s = {} ∨ run.requests ≠ [] ∧
      (settingsSetup files).Sees (requestUnit folders run.requests) {} s)
    fun e => ∃ cause, e = .source cause := by
  unfold applyRequests
  split
  · exact .pure (.inl rfl)
  · next hne =>
    refine Logged.Ends.bind (ends_configureFrom _ _ _) fun s hs => ?_
    refine Logged.Ends.bind (Q := fun _ => True) (.record trivial) fun _ _ => ?_
    exact .pure (.inr ⟨by simpa using hne, hs⟩)

theorem ends_findFirst (candidates : List Path) (test : Path → Bool) (error : LoadError) :
    Logged.Ends (findFirst candidates test error) (fun path => candidates.find? test = some path)
      fun e => e = error := by
  unfold findFirst
  split
  · next path hfind => exact .pure hfind
  · exact .throw rfl

/-- What the default settings have, and processing a configuration leaves, all settings
have that loading comes to. -/
theorem Loading.keeps {I : PipelineSettings → Prop} (hstart : I {})
    (hI : ∀ {unit s s'}, (settingsSetup files).Sees unit s s' → I s → I s') {s : PipelineSettings}
    (h : Loading files run folders s) : I s := by
  cases h with
  | start => exact hstart
  | request _ hsees => exact hI hsees hstart
  | @entry _ _ s₀ _ _ _ happly _ _ hsees =>
    have hbefore : I s₀ := by
      rcases (ends_applyRequests _ _ _).ok happly with rfl | ⟨-, hsees₀⟩
      · exact hstart
      · exact hI hsees₀ hstart
    exact hI hsees hbefore

/-- All settings that loading comes to are valid. -/
theorem Loading.valid {s : PipelineSettings} (h : Loading files run folders s) : s.Valid :=
  h.keeps valid_default fun hsees => hsees.keeps maintains_settingsRequests

/-- Loading gives settings that it comes to, and does not fail for what the
transforms are run with. -/
theorem ends_loadSettings : Logged.Ends (loadSettings files run folders)
    (fun loaded => Loading files run folders loaded.settings) fun e => ∀ fault, e ≠ .params fault := by
  have happly : Logged.Ends (applyRequests files folders run.requests {})
      (fun s => ∃ log log', applyRequests files folders run.requests {} log = (.ok s, log'))
      fun e => ∀ fault, e ≠ .params fault := by
    intro log
    have hend := ends_applyRequests files run folders log
    rcases hr : applyRequests files folders run.requests {} log with ⟨e | s, log'⟩
    · rw [hr] at hend
      obtain ⟨cause, rfl⟩ := hend
      rintro fault ⟨⟩
    · exact ⟨log, log', hr⟩
  refine happly.bind fun s₀ hs₀ => ?_
  obtain ⟨log, log', hs₀⟩ := hs₀
  refine Logged.Ends.bind ((ends_findFirst _ _ _).weaken (fun _ h => h) ?_) fun path hpath => ?_
  · rintro _ rfl fault ⟨⟩
  cases hunit : SourceUnit.ofFile files path with
  | error e =>
    refine Logged.Ends.bind (Q := fun _ => False) (.throw ?_) fun _ h => h.elim
    rintro fault ⟨⟩
  | ok unit =>
    refine Logged.Ends.bind (Q := fun u => u = folders.equip unit) (.pure rfl) fun _ hu => ?_
    subst hu
    refine Logged.Ends.bind ((ends_configureFrom _ _ _).weaken (fun _ h => h) ?_) fun s hs => ?_
    · rintro _ ⟨cause, rfl⟩ fault ⟨⟩
    have hloading : Loading files run folders s := .entry hs₀ hpath hunit hs
    rw [check_of_valid hloading.valid]
    refine Logged.Ends.bind ((ends_findFirst _ _ _).weaken (fun _ h => h) ?_) fun dir _ => ?_
    · rintro _ rfl fault ⟨⟩
    refine Logged.Ends.bind (Q := fun _ => True) (.record trivial) fun _ _ => ?_
    exact .pure hloading

/-- **Loaded settings are always valid.** All settings that loading comes to,
behind any line of the requests of a run file and of the entry file with what it
includes, and behind a request that is refused, have positive rates, sizes,
counts and versions and buffers of a power of two, so the transforms can be run
with them: loading never fails for that, and what it gives is one of them. -/
theorem valid_throughout_loading (files : FileTree) (run : RunConfig) (folders : AppFolders) :
    (∀ s, Loading files run folders s → s.Valid ∧ s.params.check = .ok ()) ∧
    ∀ log, (∀ fault log', loadSettings files run folders log ≠ (.error (.params fault), log')) ∧
      ∀ loaded log', loadSettings files run folders log = (.ok loaded, log') →
        Loading files run folders loaded.settings := by
  refine ⟨fun s hs => ⟨hs.valid, check_of_valid hs.valid⟩, fun log => ⟨?_, ?_⟩⟩
  · intro fault log' h
    exact ends_loadSettings.error h fault rfl
  · intro loaded log' h
    exact ends_loadSettings.ok h

end Loading

/-- An entry file, and the folder of the module that is shown. -/
def etcFiles : FileTree where
  files := [(["etc", "rc.glsl"], "#request setframerate 30\n".toUTF8)]
  folders := [["etc", "bars"]]

def etcFolders : AppFolders := ⟨⟨"etc"⟩, ⟨"usr"⟩⟩

/-- The second request is refused. -/
def refusedRun : RunConfig := { requests := ["setbufsize 512", "setavgframes 0"] }

theorem valid_etcFiles :
    (∃ s, Loading etcFiles refusedRun etcFolders s ∧ s.bufferSize = 512 ∧ s.Valid) ∧
      (loadSettings etcFiles refusedRun etcFolders #[]).1.isOk = false ∧
      ∃ loaded log, loadSettings etcFiles {} etcFolders #[] = (.ok loaded, log) ∧
        loaded.settings.frameRate = 30 ∧ loaded.settings.Valid := by
  obtain ⟨hvalid, -⟩ := valid_throughout_loading etcFiles refusedRun etcFolders
  obtain ⟨hvalid', hloads⟩ := valid_throughout_loading etcFiles {} etcFolders
  have hsees := sees_process (settingsSetup etcFiles) (requestUnit etcFolders refusedRun.requests) {} #[]
  have hloading := @Loading.request etcFiles refusedRun etcFolders _ (by decide) hsees
  refine ⟨⟨_, hloading, by decide +kernel, (hvalid _ hloading).1⟩, by decide +kernel, ?_⟩
  have hrate : (loadSettings etcFiles {} etcFolders #[]).1.toOption.map (·.settings.frameRate) =
      some 30 := by decide +kernel
  rcases hr : loadSettings etcFiles {} etcFolders #[] with ⟨e | loaded, log⟩
  · rw [hr] at hrate
    cases hrate
  · rw [hr] at hrate
    exact ⟨loaded, log, rfl, Option.some.inj hrate, (hvalid' _ ((hloads #[]).2 loaded log hr)).1⟩

end AudioShader
