/-
# Requests for different settings do not touch each other

Each setting is a place in the settings, and its request reads a value for that
place from the arguments, whatever the settings are, and puts it there. So what
requests come to is told by the last arguments for each of them: they may be
reordered, and of two for one setting the later one counts. A request that is
refused changes nothing, and what is processed leaves the settings that its
accepted requests lead to.

Key definitions: `Setting.Value`, `Setting.get`, `Setting.put`, `Setting.read`,
`Setting.Holds`, `lastArgs`.
Key theorems: `Setting.change_eq`, `Setting.get_put_of_ne`, `holds_of_makes`,
`settings_follow_last_requests`.
-/
import AudioShader.Proofs.Settings.Valid
import AudioShader.Proofs.Source.Accepted

namespace AudioShader

namespace Setting

/-! ### Settings as places -/

/-- What a setting holds. -/
def Value : Setting → Type
  | .module => String
  | .frameRate | .sampleRate | .sampleSize | .bufferSize | .avgFrames | .glslVersion
  | .uniformLimit => Nat
  | .interpolate | .avgWindow | .accelFft => Bool
  | .gravityStep | .fftScale | .fftCutoff | .smoothFactor | .smoothDistance => Float32
  | .background => Option Color

/-- What the settings hold for one of them. -/
def get (s : PipelineSettings) : (k : Setting) → k.Value
  | .module => s.module
  | .frameRate => s.frameRate
  | .interpolate => s.interpolate
  | .sampleRate => s.sampleRate
  | .sampleSize => s.sampleSize
  | .bufferSize => s.bufferSize
  | .gravityStep => s.gravityStep
  | .avgFrames => s.avgFrames
  | .avgWindow => s.avgWindow
  | .fftScale => s.fftScale
  | .fftCutoff => s.fftCutoff
  | .smoothFactor => s.smoothFactor
  | .smoothDistance => s.smoothDistance
  | .accelFft => s.accelFft
  | .background => s.background
  | .glslVersion => s.glslVersion
  | .uniformLimit => s.uniformLimit

/-- The settings with another value for one of them. -/
def put (s : PipelineSettings) : (k : Setting) → k.Value → PipelineSettings
  | .module, v => { s with module := v }
  | .frameRate, v => { s with frameRate := v }
  | .interpolate, v => { s with interpolate := v }
  | .sampleRate, v => { s with sampleRate := v }
  | .sampleSize, v => { s with sampleSize := v }
  | .bufferSize, v => { s with bufferSize := v }
  | .gravityStep, v => { s with gravityStep := v }
  | .avgFrames, v => { s with avgFrames := v }
  | .avgWindow, v => { s with avgWindow := v }
  | .fftScale, v => { s with fftScale := v }
  | .fftCutoff, v => { s with fftCutoff := v }
  | .smoothFactor, v => { s with smoothFactor := v }
  | .smoothDistance, v => { s with smoothDistance := v }
  | .accelFft, v => { s with accelFft := v }
  | .background, v => { s with background := v }
  | .glslVersion, v => { s with glslVersion := v }
  | .uniformLimit, v => { s with uniformLimit := v }

theorem get_put_self (s : PipelineSettings) (k : Setting) (v : k.Value) : get (put s k v) k = v := by
  cases k <;> rfl

theorem get_put_of_ne (s : PipelineSettings) {j k : Setting} (h : j ≠ k) (v : k.Value) :
    get (put s k v) j = get s j := by
  cases k <;> cases j <;> first | rfl | exact absurd rfl h

/-- Settings that hold the same for each of them are the same. -/
theorem ext_get {s t : PipelineSettings} (h : ∀ k, get s k = get t k) : s = t := by
  cases s
  cases t
  rw [PipelineSettings.mk.injEq]
  exact ⟨h .module, h .frameRate, h .interpolate, h .sampleRate, h .sampleSize, h .bufferSize,
    h .gravityStep, h .avgFrames, h .avgWindow, h .fftScale, h .fftCutoff, h .smoothFactor,
    h .smoothDistance, h .accelFft, h .background, h .glslVersion, h .uniformLimit⟩

/-! ### What a request puts -/

/-- The value that a request reads from its arguments. -/
def read (args : List Arg) : (k : Setting) → Except SettingFault k.Value
  | .module => textArg args >>= moduleName
  | .frameRate => intArg args >>= positive "frame rate"
  | .interpolate => boolArg args
  | .sampleRate => intArg args >>= positive "sample rate"
  | .sampleSize => intArg args >>= positive "sample size"
  | .bufferSize => intArg args >>= positive "buffer size" >>= bufferLength
  | .gravityStep => numberArg args
  | .avgFrames => intArg args >>= positive "average frame count"
  | .avgWindow => boolArg args
  | .fftScale => numberArg args
  | .fftCutoff => numberArg args
  | .smoothFactor => numberArg args
  | .smoothDistance => numberArg args >>= distance
  | .accelFft => boolArg args
  | .background => some <$> (textArg args >>= readColor)
  | .glslVersion => intArg args >>= positive "GLSL version"
  | .uniformLimit => intArg args >>= positive "uniform limit"

section Made

variable {ε α β γ : Type}

theorem map_made (a : Except ε α) (f : α → γ) : (do return f (← a)) = f <$> a := by
  cases a <;> rfl

theorem map_bind_made (a : Except ε α) (b : α → Except ε β) (f : β → γ) :
    (do return f (← b (← a))) = f <$> (a >>= b) := by
  cases a with
  | error e => rfl
  | ok x => exact map_made (b x) f

end Made

/-- A request puts the value that it reads. -/
theorem change_eq (k : Setting) (args : List Arg) :
    k.change args = (fun v s => put s k v) <$> k.read args :=
  match k with
  | .module => map_bind_made (textArg args) moduleName _
  | .frameRate => map_bind_made (intArg args) (positive "frame rate") _
  | .sampleRate => map_bind_made (intArg args) (positive "sample rate") _
  | .sampleSize => map_bind_made (intArg args) (positive "sample size") _
  | .avgFrames => map_bind_made (intArg args) (positive "average frame count") _
  | .glslVersion => map_bind_made (intArg args) (positive "GLSL version") _
  | .uniformLimit => map_bind_made (intArg args) (positive "uniform limit") _
  | .smoothDistance => map_bind_made (numberArg args) distance _
  | .interpolate | .avgWindow | .accelFft => map_made (boolArg args) _
  | .gravityStep | .fftScale | .fftCutoff | .smoothFactor => map_made (numberArg args) _
  | .bufferSize => by
    refine Eq.trans ?_ (map_bind_made (intArg args >>= positive "buffer size") bufferLength _)
    exact (bind_assoc (intArg args) (positive "buffer size") _).symm
  | .background => by
    have hread : read args .background = some <$> (textArg args >>= readColor) := rfl
    refine (map_bind_made (textArg args) readColor _).trans ?_
    rw [hread]
    cases textArg args >>= readColor <;> rfl

section Handler

variable {k : Setting} {args : List Arg} {s s' : PipelineSettings}

/-- A request that is accepted puts the value that it reads. -/
theorem put_of_handler (h : k.handler args s = (.ok (), s')) :
    ∃ v, k.read args = .ok v ∧ s' = put s k v := by
  unfold handler at h
  rw [change_eq] at h
  rcases hread : k.read args with fault | v
  · rw [hread] at h
    cases h
  · rw [hread] at h
    cases h
    exact ⟨v, rfl, rfl⟩

/-- A request that is refused leaves the settings as they are. -/
theorem eq_of_handler_refuses {reason : String} (h : k.handler args s = (.error reason, s')) :
    s' = s := by
  unfold handler at h
  rcases hchange : k.change args with fault | change
  · rw [hchange] at h
    cases h
    rfl
  · rw [hchange] at h
    cases h

end Handler

theorem mem_all (k : Setting) : k ∈ all := by cases k <;> decide

/-- No two settings have requests of one name. -/
theorem eq_of_name_eq {j k : Setting} (h : j.name = k.name) : j = k :=
  List.inj_on_of_nodup_map (by decide : (all.map name).Nodup) (mem_all j) (mem_all k) h

end Setting

/-- The requests of a configuration are those of the settings. -/
theorem setting_of_get? {name : String} {request : Request PipelineSettings}
    (h : settingsRequests.get? name = some request) :
    ∃ k : Setting, k.name = name ∧ k.request = request := by
  obtain ⟨k, -, rfl⟩ := List.mem_map.1 (RequestTable.mem_of_get?_ofList h)
  exact ⟨k, RequestTable.name_of_get? h, rfl⟩

/-- Each setting has its request in a configuration. -/
theorem get?_settingsRequests (k : Setting) : settingsRequests.get? k.name = some k.request := by
  have hfound : ∀ k ∈ Setting.all, (settingsRequests.get? k.name).isSome = true := by decide +kernel
  obtain ⟨request, hget⟩ := Option.isSome_iff_exists.1 (hfound k (Setting.mem_all k))
  obtain ⟨j, hname, rfl⟩ := setting_of_get? hget
  rw [hget, Setting.eq_of_name_eq hname]

/-! ### Requests that are accepted -/

/-- The arguments of the last call for a name. -/
def lastArgs (name : String) : List Call → Option (List Arg)
  | [] => none
  | call :: calls => (lastArgs name calls).or (if call.request = name then some call.args else none)

section Settings

variable {s s' s₁ s₂ : PipelineSettings} {calls calls' : List Call}

/-- What the settings `s'` behind calls hold for a setting: what the arguments of
the last call for it read as, or what the settings `s` in front of them hold. -/
def Setting.Holds (k : Setting) (s s' : PipelineSettings) : Option (List Arg) → Prop
  | none => k.get s' = k.get s
  | some args => k.read args = .ok (k.get s')

/-- Of the calls for a setting the last one counts, and no other call does. -/
theorem holds_of_makes (h : settingsRequests.Makes s calls s') (k : Setting) :
    k.Holds s s' (lastArgs k.name calls) := by
  induction h with
  | none => exact rfl
  | @call s s₁ s' call calls request hget hcall hrest ih =>
    obtain ⟨j, hname, rfl⟩ := setting_of_get? hget
    obtain ⟨v, hread, rfl⟩ := Setting.put_of_handler hcall
    cases hlast : lastArgs k.name calls with
    | some args =>
      rw [hlast] at ih
      rw [lastArgs, hlast, Option.some_or]
      exact ih
    | none =>
      rw [hlast] at ih
      rw [lastArgs, hlast, Option.none_or]
      have hget' : k.get s' = k.get (j.put s v) := ih
      by_cases hjk : j = k
      · subst hjk
        rw [if_pos hname.symm]
        change j.read call.args = .ok (j.get s')
        rw [hread, hget', Setting.get_put_self]
      · rw [if_neg fun heq => hjk (Setting.eq_of_name_eq (hname.trans heq))]
        exact hget'.trans (Setting.get_put_of_ne s (Ne.symm hjk) v)

/-- What is held behind calls is one value. -/
theorem Setting.Holds.unique {k : Setting} {last : Option (List Arg)} (h₁ : k.Holds s s₁ last)
    (h₂ : k.Holds s s₂ last) : k.get s₁ = k.get s₂ := by
  cases last with
  | none => exact Eq.trans h₁ (Eq.symm h₂)
  | some args => exact Except.ok.inj (Eq.trans (Eq.symm h₁) h₂)

/-- The requests of a configuration that are refused leave the settings as they are. -/
theorem refusalsKeep_settingsRequests : settingsRequests.RefusalsKeep := by
  intro name request hget args s reason s' hcall
  obtain ⟨k, -, rfl⟩ := setting_of_get? hget
  exact Setting.eq_of_handler_refuses hcall

/-- A line that is not passed leaves the settings as they are. -/
theorem Visit.Stops.settings {files : FileTree} {v : Visit} {e : SourceError}
    (h : v.Stops (settingsSetup files) s e calls s') : s' = s ∧ calls.length ≤ 1 :=
  h.keeps_context refusalsKeep_settingsRequests

/-- **Requests for different settings do not touch each other.** Calls that are
accepted, in two sequences that agree for each name on the last arguments, lead
from the same settings to the same settings; a call that is refused leaves the
settings as they were; and what is processed leaves the settings that its accepted
calls lead to, where the last call is the only one that may be refused, and then
processing fails. -/
theorem settings_follow_last_requests :
    (∀ s calls calls' s₁ s₂, settingsRequests.Makes s calls s₁ → settingsRequests.Makes s calls' s₂ →
      (∀ name, lastArgs name calls = lastArgs name calls') → s₁ = s₂) ∧
    (∀ name request, settingsRequests.get? name = some request → ∀ args s reason s',
      request.handler args s = (.error reason, s') → s' = s) ∧
    ∀ files unit s log out r log', process (settingsSetup files) unit { context := s } log =
        ((out, r), log') →
      ∃ made refused, r.calls.toList = made ++ refused ∧ settingsRequests.Makes s made r.context ∧
        refused.length ≤ 1 ∧ (out.isOk = true → refused = []) := by
  refine ⟨?_, ?_, ?_⟩
  · intro s calls calls' s₁ s₂ h₁ h₂ hlast
    refine Setting.ext_get fun k => ?_
    have hholds := holds_of_makes h₂ k
    rw [← hlast k.name] at hholds
    exact (holds_of_makes h₁ k).unique hholds
  · intro name request hget args s reason s' hcall
    obtain ⟨k, -, rfl⟩ := setting_of_get? hget
    exact Setting.eq_of_handler_refuses hcall
  · intro files unit s log out r log' hrun
    have hend := walks_process (settingsSetup files) unit s rfl log
    rw [hrun] at hend
    cases out with
    | ok source =>
      obtain ⟨-, ps, -, hwalk⟩ := hend
      exact ⟨_, [], (List.append_nil _).symm, hwalk.makes, Nat.zero_le 1, fun _ => rfl⟩
    | error e =>
      obtain ⟨ps, hwalk⟩ := hend
      obtain ⟨passed, v, more, made, ps', s₁, refused, -, hpassed, hstop, hcalls⟩ := hwalk.stops
      obtain ⟨hsettings, hone⟩ := hstop.settings
      rw [← hsettings] at hpassed
      exact ⟨made, refused, hcalls, hpassed.makes, hone, fun hok => nomatch hok⟩

/-- A call at a line of a configuration. -/
def callAt (line : Nat) (request : String) (arg : Arg) : Call := ⟨⟨⟨"rc.glsl"⟩, line⟩, request, [arg]⟩

/-- The frame rate is set twice. -/
def twiceSet : List Call :=
  [callAt 1 "setframerate" (.int 30), callAt 2 "setavgwindow" (.bool false),
    callAt 3 "setframerate" (.int 75)]

def onceSet : List Call :=
  [callAt 1 "setframerate" (.int 75), callAt 2 "setavgwindow" (.bool false)]

theorem makes_twiceSet (s : PipelineSettings) :
    settingsRequests.Makes s twiceSet { s with frameRate := 75, avgWindow := false } :=
  .call (get?_settingsRequests .frameRate) rfl <| .call (get?_settingsRequests .avgWindow) rfl <|
    .call (get?_settingsRequests .frameRate) rfl .none

theorem makes_onceSet (s : PipelineSettings) :
    settingsRequests.Makes s onceSet { s with frameRate := 75, avgWindow := false } :=
  .call (get?_settingsRequests .frameRate) rfl <| .call (get?_settingsRequests .avgWindow) rfl .none

theorem lastArgs_twiceSet (name : String) : lastArgs name twiceSet = lastArgs name onceSet := by
  by_cases hrate : "setframerate" = name
  · subst hrate
    simp [twiceSet, onceSet, callAt, lastArgs]
  · simp [twiceSet, onceSet, callAt, lastArgs, hrate]

theorem refuses_avgFrames (s : PipelineSettings) : Setting.avgFrames.request.handler [.int 0] s =
    (.error (SettingFault.notPositive "average frame count" 0).message, s) := rfl

theorem twiceSet_leaves_onceSet :
    (∃ s₁ s₂, settingsRequests.Makes {} twiceSet s₁ ∧ settingsRequests.Makes {} onceSet s₂ ∧
        s₁ = s₂ ∧ s₁.frameRate = 75) ∧
      (∃ reason s', Setting.avgFrames.request.handler [.int 0] {} = (.error reason, s') ∧ s' = {}) ∧
      ∃ r : Run PipelineSettings, ∃ made refused, r.calls.toList = made ++ refused ∧
        settingsRequests.Makes {} made r.context ∧ r.context.bufferSize = 512 := by
  obtain ⟨hsame, hrefused, hrun⟩ := settings_follow_last_requests
  refine ⟨⟨_, _, makes_twiceSet {}, makes_onceSet {}, ?_, rfl⟩, ⟨_, _, refuses_avgFrames {}, ?_⟩, ?_⟩
  · exact hsame {} _ _ _ _ (makes_twiceSet {}) (makes_onceSet {}) lastArgs_twiceSet
  · exact hrefused _ _ (get?_settingsRequests .avgFrames) _ _ _ _ (refuses_avgFrames {})
  · obtain ⟨made, refused, hcalls, hmakes, -⟩ :=
      hrun etcFiles (requestUnit etcFolders refusedRun.requests) {} #[] _ _ _ rfl
    exact ⟨_, made, refused, hcalls, hmakes, by decide +kernel⟩

end Settings

end AudioShader
