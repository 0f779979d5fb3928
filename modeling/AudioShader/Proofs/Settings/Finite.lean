/-
# Which numbers among the settings are finite

A request for a number takes a finite one of double precision and keeps it in single
precision. So what is kept is always a number, and it is infinite exactly where the
last request for it that was accepted has a number that single precision cannot hold.

Key definitions: `FloatSetting`, `withinSingle`, `FloatSetting.Told`, `FloatsTold`.
Key theorems: `isFinite_of_coerce`, `told_of_makes`, `told_of_walk`, `sees_narrowed`,
`Loading.isNaN`, `floats_follow_narrowed_requests`, `not_floats_always_finite`.
-/
import AudioShader.Proofs.Number.Narrowing
import AudioShader.Proofs.Source.Typed

namespace AudioShader

/-- The settings that are numbers with a fraction. -/
inductive FloatSetting where
  | gravityStep
  | fftScale
  | fftCutoff
  | smoothFactor
  | smoothDistance
  deriving DecidableEq

namespace FloatSetting

def setting : FloatSetting → Setting
  | .gravityStep => .gravityStep
  | .fftScale => .fftScale
  | .fftCutoff => .fftCutoff
  | .smoothFactor => .smoothFactor
  | .smoothDistance => .smoothDistance

/-- What the settings hold for it. -/
def get (s : PipelineSettings) : FloatSetting → Float32
  | .gravityStep => s.gravityStep
  | .fftScale => s.fftScale
  | .fftCutoff => s.fftCutoff
  | .smoothFactor => s.smoothFactor
  | .smoothDistance => s.smoothDistance

theorem signature_setting (k : FloatSetting) : k.setting.signature = "f" := by cases k <;> rfl

theorem get_eq_of_setting {s s' : PipelineSettings} {k : FloatSetting}
    (h : k.setting.get s' = k.setting.get s) : k.get s' = k.get s := by
  cases k <;> exact h

/-- The number of a request is narrowed. -/
theorem get_of_read {s' : PipelineSettings} {k : FloatSetting} {x : Float}
    (h : k.setting.read [.float x] = .ok (k.setting.get s')) : k.get s' = narrow x := by
  cases k with
  | smoothDistance =>
    change distance (narrow x) = .ok s'.smoothDistance at h
    unfold distance at h
    split at h
    · cases h
    · exact (Except.ok.inj h).symm
  | gravityStep | fftScale | fftCutoff | smoothFactor => exact (Except.ok.inj h).symm

end FloatSetting

/-- The argument is a number that single precision can hold. -/
def withinSingle : List Arg → Bool
  | [.float x] => -singleLimit < x && x < singleLimit
  | _ => false

namespace FloatSetting

/-- What the settings `s'` behind accepted calls hold for a number: the one of the
last call for it, narrowed, or what the settings `s` in front of them hold. -/
def Told (k : FloatSetting) (s s' : PipelineSettings) : Option (List Arg) → Prop
  | none => k.get s' = k.get s
  | some args => ∃ x : Float, args = [.float x] ∧ x.isFinite = true ∧ k.get s' = narrow x ∧
      (k.get s').isNaN = false ∧ (k.get s').isFinite = withinSingle args

end FloatSetting

/-! ### Arguments of accepted calls -/

/-- A word that is read as a number is a finite one. -/
theorem isFinite_of_coerce {t : Token} {x : Float} (h : t.coerce .float = some (.float x)) :
    x.isFinite = true := by
  unfold Token.coerce at h
  split at h
  · cases h
  · obtain ⟨y, hy, heq⟩ := Option.map_eq_some_iff.1 h
    cases heq
    exact (Option.filter_eq_some_iff.1 hy).2

/-- Arguments that fit the signature of a number are one finite number. -/
theorem eq_float_of_typed {tokens : List Token} {args : List Arg} (h : Typed "f" tokens args) :
    ∃ x, args = [.float x] ∧ x.isFinite = true := by
  have htypes : args.map (fun a => some a.type) = [some .float] := h.types
  match args, htypes, h.words with
  | [.float x], _, .cons hword _ => exact ⟨x, rfl, isFinite_of_coerce hword.1⟩

theorem mem_of_lastArgs {name : String} {args : List Arg} : ∀ {calls : List Call},
    lastArgs name calls = some args → ∃ call ∈ calls, call.request = name ∧ call.args = args
  | [], h => nomatch h
  | call :: calls, h => by
    rw [lastArgs] at h
    rcases Option.or_eq_some_iff.1 h with hlater | ⟨-, hthis⟩
    · obtain ⟨call', hmem, hname, hargs⟩ := mem_of_lastArgs hlater
      exact ⟨call', List.mem_cons_of_mem _ hmem, hname, hargs⟩
    · split at hthis
      · next hname => exact ⟨call, List.mem_cons_self .., hname, Option.some.inj hthis⟩
      · cases hthis

/-- The calls that a line makes for a number have one finite number. -/
theorem eq_float_of_calls {setup : Setup PipelineSettings} (hrequests : setup.requests = settingsRequests)
    {v : Visit} {call : Call} (h : v.Calls setup call) {k : FloatSetting}
    (hname : call.request = k.setting.name) : ∃ x, call.args = [.float x] ∧ x.isFinite = true := by
  obtain ⟨-, tokens, request, -, hget, hargs⟩ := h
  rw [hrequests] at hget
  obtain ⟨j, hj, rfl⟩ := setting_of_get? hget
  obtain rfl := Setting.eq_of_name_eq (hj.trans hname)
  have hsignature : Typed "f" tokens call.args := by
    rw [← k.signature_setting]
    exact hargs
  exact eq_float_of_typed hsignature

/-! ### Runs -/

section Runs

variable {s s' : PipelineSettings} {made calls : List Call}

/-- What numbers the settings hold behind calls that are accepted. -/
theorem told_of_makes (h : settingsRequests.Makes s made s') (k : FloatSetting)
    (hfloat : ∀ call ∈ made, call.request = k.setting.name →
      ∃ x, call.args = [.float x] ∧ x.isFinite = true) :
    k.Told s s' (lastArgs k.setting.name made) := by
  have hholds := holds_of_makes h k.setting
  cases hlast : lastArgs k.setting.name made with
  | none =>
    rw [hlast] at hholds
    exact FloatSetting.get_eq_of_setting hholds
  | some args =>
    obtain ⟨call, hmem, hname, rfl⟩ := mem_of_lastArgs hlast
    obtain ⟨x, hargs, hx⟩ := hfloat call hmem hname
    rw [hlast, hargs] at hholds
    have hget : k.get s' = narrow x := FloatSetting.get_of_read hholds
    rw [hargs]
    refine ⟨x, rfl, hx, hget, ?_, ?_⟩
    · rw [hget]
      exact isNaN_narrow hx
    · rw [hget, Bool.eq_iff_iff, withinSingle, Bool.and_eq_true, decide_eq_true_iff,
        decide_eq_true_iff]
      exact isFinite_narrow_iff hx

/-- The settings behind calls hold numbers that are told by those of the calls that
are accepted. -/
def FloatsTold (s : PipelineSettings) (calls : List Call) (s' : PipelineSettings) : Prop :=
  ∀ k : FloatSetting, k.Told s s' (lastArgs k.setting.name (settingsRequests.attempt calls s).1)

/-- The numbers are finite behind calls if those of the accepted ones are within the
limits. -/
theorem FloatsTold.isFinite (h : FloatsTold s calls s')
    (hs : ∀ k : FloatSetting, (k.get s).isFinite = true)
    (hwithin : ∀ call ∈ (settingsRequests.attempt calls s).1, ∀ k : FloatSetting,
      call.request = k.setting.name → withinSingle call.args = true)
    (k : FloatSetting) : (k.get s').isFinite = true := by
  have htold := h k
  cases hlast : lastArgs k.setting.name (settingsRequests.attempt calls s).1 with
  | none =>
    rw [hlast] at htold
    exact (congrArg Float32.isFinite htold).trans (hs k)
  | some args =>
    rw [hlast] at htold
    obtain ⟨x, -, -, -, -, hfinite⟩ := htold
    obtain ⟨call, hmem, hname, rfl⟩ := mem_of_lastArgs hlast
    exact hfinite.trans (hwithin call hmem k hname)

/-- Numbers stay numbers. -/
theorem FloatsTold.isNaN (h : FloatsTold s calls s')
    (hs : ∀ k : FloatSetting, (k.get s).isNaN = false) (k : FloatSetting) :
    (k.get s').isNaN = false := by
  have htold := h k
  cases hlast : lastArgs k.setting.name (settingsRequests.attempt calls s).1 with
  | none =>
    rw [hlast] at htold
    exact (congrArg Float32.isNaN htold).trans (hs k)
  | some args =>
    rw [hlast] at htold
    obtain ⟨x, -, -, -, hnumber, -⟩ := htold
    exact hnumber

variable {setup : Setup PipelineSettings} {root : SourceUnit} {vs : List Visit} {ps : List Piece}

theorem told_of_walk (hrequests : setup.requests = settingsRequests)
    {out : Except SourceError Unit} (h : Walk setup s vs calls ps out s') :
    FloatsTold s calls s' := by
  have hmakes := RequestTable.makes_attempt refusalsKeep_settingsRequests calls s
  have hend := h.attempt_snd
  rw [hrequests] at hend
  rw [hend] at hmakes
  intro k
  refine told_of_makes hmakes k fun call hcall hname => ?_
  obtain ⟨v, -, hcalls⟩ := h.called ((settingsRequests.attempt_sublist calls s).subset hcall)
  exact eq_float_of_calls hrequests hcalls hname

theorem told_of_sees (hrequests : setup.requests = settingsRequests)
    (h : setup.Sees root s s') : ∃ calls, FloatsTold s calls s' := by
  obtain ⟨seen, more, calls, ps, out, -, hwalk⟩ := h
  exact ⟨calls, told_of_walk hrequests hwalk⟩

/-- Behind the line with an accepted request the setting is the narrowed number. -/
theorem sees_narrowed (hrequests : setup.requests = settingsRequests)
    {out : Except SourceError Unit} (h : Walk setup s (setup.visits root) calls ps out s')
    {call : Call} (hcall : call ∈ (settingsRequests.attempt calls s).1) {k : FloatSetting}
    (hname : call.request = k.setting.name) :
    ∃ s₂, setup.Sees root s s₂ ∧ (k.get s₂).isFinite = withinSingle call.args := by
  rw [← hrequests] at hcall
  obtain ⟨passed, v, more, calls₁, ps₁, s₁, ps₂, s₂, hvisits, hpassed, hpasses⟩ :=
    h.passes_accepted hcall
  have hline : Walk setup s₁ [v] ([call] ++ []) (ps₂ ++ []) (.ok ()) s₂ := .pass hpasses .done
  have hmakes := hpasses.makes
  rw [hrequests] at hmakes
  have hfloat := eq_float_of_calls hrequests (hpasses.called (List.mem_singleton_self call)) hname
  have htold := told_of_makes hmakes k fun call' hcall' _ => by
    rwa [List.mem_singleton.1 hcall']
  rw [lastArgs, if_pos hname] at htold
  obtain ⟨x, -, -, -, -, hfinite⟩ := htold
  refine ⟨s₂, ⟨passed ++ [v], more, _, _, _, ?_, hpassed.append hline⟩, hfinite⟩
  rw [hvisits, List.append_assoc]
  rfl

end Runs

theorem isFinite_default (k : FloatSetting) : (k.get {}).isFinite = true := by
  cases k <;> decide +kernel

theorem isNaN_default (k : FloatSetting) : (k.get {}).isNaN = false := by
  cases k <;> decide +kernel

/-- All settings that loading comes to hold numbers. -/
theorem Loading.isNaN {files : FileTree} {run : RunConfig} {folders : AppFolders}
    {s : PipelineSettings} (h : Loading files run folders s) (k : FloatSetting) :
    (k.get s).isNaN = false := by
  refine h.keeps (I := fun s => ∀ k, (FloatSetting.get s k).isNaN = false) isNaN_default ?_ k
  intro unit s s' hsees hs
  obtain ⟨calls, htold⟩ := told_of_sees rfl hsees
  exact htold.isNaN hs

/-- **The numbers of the settings are narrowed numbers of the last requests.** At
every point of a run each of them is what it was in front of the run, or the finite
number of double precision that the last accepted request for it has, narrowed: so it
is a number, and finite exactly if that one lies between the limits of single
precision. Where they are finite in front of the run, they stay so at every point of it
exactly if the numbers of all accepted requests lie between these limits. -/
theorem floats_follow_narrowed_requests (setup : Setup PipelineSettings)
    (hrequests : setup.requests = settingsRequests) (root : SourceUnit) (s : PipelineSettings)
    (log log' : Log) (out : Except SourceError ProcessedSource) (r : Run PipelineSettings)
    (hrun : process setup root { context := s } log = ((out, r), log')) :
    FloatsTold s r.calls.toList r.context ∧
    (∀ s', setup.Sees root s s' → ∃ calls, calls <+: r.calls.toList ∧ FloatsTold s calls s') ∧
    ((∀ k : FloatSetting, (k.get s).isFinite = true) →
      ((∀ s', setup.Sees root s s' → ∀ k : FloatSetting, (k.get s').isFinite = true) ↔
        ∀ call ∈ (settingsRequests.attempt r.calls.toList s).1, ∀ k : FloatSetting,
          call.request = k.setting.name → withinSingle call.args = true)) := by
  obtain ⟨ps, hwalk, -⟩ := walk_of_process hrun
  have hpoints : ∀ s', setup.Sees root s s' →
      ∃ calls, calls <+: r.calls.toList ∧ FloatsTold s calls s' := by
    rintro s' ⟨seen, more, calls, ps', out', hvisits, hseen⟩
    rw [hvisits] at hwalk
    exact ⟨calls, hseen.calls_prefix hwalk, told_of_walk hrequests hseen⟩
  refine ⟨told_of_walk hrequests hwalk, hpoints, fun hs => ⟨?_, ?_⟩⟩
  · intro hfinite call hcall k hname
    obtain ⟨s', hsees, hnarrowed⟩ := sees_narrowed hrequests hwalk hcall hname
    exact hnarrowed.symm.trans (hfinite s' hsees k)
  · intro hwithin s' hsees
    obtain ⟨calls, ⟨later, hcalls⟩, htold⟩ := hpoints s' hsees
    refine htold.isFinite hs fun call hcall => hwithin call ?_
    rw [← hcalls, RequestTable.attempt_append]
    exact List.mem_append_left _ hcall

/-- A finite number of double precision that single precision cannot hold. -/
def hugeUnit : SourceUnit := .ofText ⟨"rc.glsl"⟩ "#request setgravitystep 1e39\n"

/-- The number is accepted, and then the setting is infinite. -/
theorem not_floats_always_finite : ¬∀ (files : FileTree) root s',
    (settingsSetup files).Sees root {} s' → ∀ k : FloatSetting, (k.get s').isFinite = true := by
  intro h
  have hsees := sees_process (settingsSetup {}) hugeUnit {} #[]
  have hfinite := h {} hugeUnit _ hsees .gravityStep
  have hinfinite : (FloatSetting.gravityStep.get
      (process (settingsSetup {}) hugeUnit { context := {} } #[]).1.2.context).isFinite = false := by
    decide +kernel
  rw [hinfinite] at hfinite
  cases hfinite

/-- Two numbers that are near the limits. -/
def largeUnit : SourceUnit :=
  .ofText ⟨"rc.glsl"⟩ "#request setfftscale 1e38\n#request setgravitystep -3.4e38\n"

theorem floats_of_largeUnit :
    (process (settingsSetup {}) largeUnit { context := {} } #[]).1.2.calls.toList.length = 2 ∧
      ∀ s', (settingsSetup {}).Sees largeUnit {} s' →
        ∀ k : FloatSetting, (k.get s').isFinite = true := by
  obtain ⟨-, -, hall⟩ := floats_follow_narrowed_requests (settingsSetup {}) rfl largeUnit {}
    #[] _ _ _ rfl
  refine ⟨by decide +kernel, (hall isFinite_default).2 ?_⟩
  have hwithin : ∀ call ∈ (settingsRequests.attempt
      (process (settingsSetup {}) largeUnit { context := {} } #[]).1.2.calls.toList {}).1,
      withinSingle call.args = true := by decide +kernel
  exact fun call hcall _ _ => hwithin call hcall

end AudioShader
