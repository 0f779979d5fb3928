/-
# Handlers are called with arguments that fit

A handler is only called with the values that its signature declares: one for each
letter, of the type that the letter stands for, and text where the word was quoted.
So the handlers of settings and of stages never lack an argument: where they refuse
one, it is for its value.

Key definitions: `Typed`, `Visit.Calls`, `SettingFault.AboutValue`.
Key theorems: `typed_of_coerceArgs`, `Walk.called`, `Walk.rejects`, `handlers_called_typed`.
-/
import AudioShader.Proofs.Settings.Independent

namespace AudioShader

/-! ### Words that fit -/

/-- Values that fit a signature: each has the type of its letter, and is what its
word reads as. A quoted word is text. -/
structure Typed (signature : String) (tokens : List Token) (args : List Arg) : Prop where
  types : args.map (fun a => some a.type) = signature.toList.map ArgType.ofCode?
  words : List.Forall₂ (fun t a => t.coerce a.type = some a ∧ (t.quoted = true → a = .text t.text))
    tokens args

theorem Token.eq_text_of_coerce {t : Token} {type : ArgType} {a : Arg} (h : t.coerce type = some a)
    (hquoted : t.quoted = true) : a = .text t.text := by
  unfold Token.coerce at h
  rw [if_pos hquoted] at h
  split at h
  · exact (Option.some.inj h).symm
  · cases h

theorem typed_of_coerceEach : ∀ {index : Nat} {codes : List Char} {tokens : List Token}
    {args : List Arg}, codes.length = tokens.length → coerceEach index codes tokens = .ok args →
      args.map (fun a => some a.type) = codes.map ArgType.ofCode? ∧
        List.Forall₂ (fun t a => t.coerce a.type = some a ∧ (t.quoted = true → a = .text t.text))
          tokens args
  | _, [], [], _, _, h => by
    cases h
    exact ⟨rfl, .nil⟩
  | _, [], _ :: _, _, hlength, _ => nomatch hlength
  | _, _ :: _, [], _, hlength, _ => nomatch hlength
  | index, code :: codes, token :: tokens, args, hlength, h => by
    unfold coerceEach at h
    split at h
    · cases h
    · next type hcode =>
      split at h
      · cases h
      · next arg harg =>
        cases hrest : coerceEach (index + 1) codes tokens with
        | error fault =>
          rw [hrest] at h
          cases h
        | ok rest =>
          rw [hrest] at h
          cases h
          obtain ⟨htypes, hwords⟩ := typed_of_coerceEach (Nat.succ.inj hlength) hrest
          have htype := Token.type_of_coerce harg
          refine ⟨?_, .cons ⟨?_, Token.eq_text_of_coerce harg⟩ hwords⟩
          · rw [List.map_cons, List.map_cons, htypes, hcode, htype]
          · rw [htype, harg]

theorem typed_of_coerceArgs {signature : String} {tokens : List Token} {args : List Arg}
    (h : coerceArgs signature tokens = .ok args) : Typed signature tokens args := by
  unfold coerceArgs at h
  split at h
  · cases h
  · next hlength =>
    obtain ⟨htypes, hwords⟩ := typed_of_coerceEach (not_not.1 hlength) h
    exact ⟨htypes, hwords⟩

/-! ### Calls of a run -/

section Runs

variable {C : Type} {setup : Setup C} {c c' : C} {vs : List Visit} {calls : List Call}
  {ps : List Piece} {call : Call}

/-- A line that calls a handler, with arguments that fit. -/
def Visit.Calls (setup : Setup C) (v : Visit) (call : Call) : Prop :=
  call.place = v.place ∧ ∃ tokens request,
    v.directive = .ok (some (.request call.request tokens)) ∧
      setup.requests.get? call.request = some request ∧ Typed request.signature tokens call.args

variable [Substitutions C]

theorem Visit.Passes.called {v : Visit} (h : v.Passes setup c calls ps c') (hcall : call ∈ calls) :
    v.Calls setup call := by
  cases h with
  | includeFile | written => cases hcall
  | request hd hget hargs _ =>
    rw [List.mem_singleton.1 hcall]
    exact ⟨rfl, _, _, hd, hget, typed_of_coerceArgs hargs⟩

theorem Visit.Stops.called {v : Visit} {e : SourceError} (h : v.Stops setup c e calls c')
    (hcall : call ∈ calls) : v.Calls setup call := by
  cases h with
  | malformed | barred | balked => cases hcall
  | turnedDown hd hdown =>
    cases hdown with
    | unknown | arguments => cases hcall
    | rejected hget hargs _ =>
      rw [List.mem_singleton.1 hcall]
      exact ⟨rfl, _, _, hd, hget, typed_of_coerceArgs hargs⟩

/-- Handlers are called from lines only, with arguments that fit. -/
theorem Walk.called {out : Except SourceError Unit} (h : Walk setup c vs calls ps out c')
    (hcall : call ∈ calls) : ∃ v ∈ vs, v.Calls setup call := by
  induction h with
  | done => cases hcall
  | pass hpass _ ih =>
    rcases List.mem_append.1 hcall with hcall | hcall
    · exact ⟨_, List.mem_cons_self .., hpass.called hcall⟩
    · obtain ⟨v, hv, hcalls⟩ := ih hcall
      exact ⟨v, List.mem_cons_of_mem _ hv, hcalls⟩
  | stop hstop => exact ⟨_, List.mem_cons_self .., hstop.called hcall⟩

/-- What a walk is rejected for is the reason of a handler that was called. -/
theorem Walk.rejects {place : LineRef} {name reason : String}
    (h : Walk setup c vs calls ps (.error (.rejected place name reason)) c') :
    ∃ request tokens args c₁, setup.requests.get? name = some request ∧
      Typed request.signature tokens args ∧ request.handler args c₁ = (.error reason, c') := by
  obtain ⟨passed, v, more, made, ps', c₁, last, -, -, hstop, -⟩ := h.stops
  cases hstop with
  | barred _ hbarred => cases hbarred
  | turnedDown _ hdown =>
    cases hdown with
    | rejected hget hargs hcall => exact ⟨_, _, _, c₁, hget, typed_of_coerceArgs hargs, hcall⟩

end Runs

/-! ### How messages begin -/

/-- The text begins with another. -/
def Begins (start text : String) : Prop := start.toList <+: text.toList

namespace Begins

variable {a b s t : String}

theorem refl (s : String) : Begins s s := List.prefix_refl _

theorem append (h : Begins a s) : Begins a (s ++ t) := by
  unfold Begins
  rw [String.toList_append]
  exact List.IsPrefix.trans h (List.prefix_append ..)

/-- Texts that begin differently are different. -/
theorem ne (hs : Begins a s) (ht : Begins b t) (hab : ¬a.toList <+: b.toList)
    (hba : ¬b.toList <+: a.toList) : s ≠ t := by
  rintro rfl
  exact (List.prefix_or_prefix_of_prefix hs ht).elim hab hba

end Begins

/-! ### The requests of a configuration -/

/-- The numbers that requests take, as messages name them. -/
def countNames : List String :=
  ["frame rate", "sample rate", "sample size", "buffer size", "average frame count", "GLSL version",
   "uniform limit"]

namespace SettingFault

/-- Faults that are about a value, not about an argument that is missing or of
another type. -/
def AboutValue : SettingFault → Prop
  | .argument _ _ => False
  | .notPositive what _ => what ∈ countNames
  | .moduleName _ | .bufferSize _ | .negativeDistance | .color _ => True

theorem begins_argument (index : Nat) (expected : ArgType) :
    Begins "argument " (argument index expected).message :=
  (Begins.refl "argument ").append.append.append

/-- What is told about a value does not read as if an argument were missing. -/
theorem AboutValue.message_ne {fault : SettingFault} (h : fault.AboutValue) (index : Nat)
    (expected : ArgType) : fault.message ≠ (argument index expected).message := by
  have hargument := begins_argument index expected
  cases fault with
  | argument => exact h.elim
  | moduleName name =>
    exact (Begins.refl "invalid module name '").append.append.ne hargument (by decide) (by decide)
  | notPositive what found =>
    have hnames : ∀ what ∈ countNames, ¬what.toList <+: "argument ".toList ∧
        ¬"argument ".toList <+: what.toList := by decide
    obtain ⟨hleft, hright⟩ := hnames what h
    exact (Begins.refl what).append.append.ne hargument hleft hright
  | bufferSize found =>
    exact (Begins.refl "buffer size must be a power of two of at least 2, got ").append.ne hargument
      (by decide) (by decide)
  | negativeDistance =>
    exact (Begins.refl "smoothing distance must be non-negative").ne hargument (by decide) (by decide)
  | color fault =>
    cases fault with
    | badDigit c =>
      exact (Begins.refl "invalid hex digit '").append.append.ne hargument (by decide) (by decide)
    | length found =>
      exact (Begins.refl "color literal must have 6 or 8 hex digits, found ").append.ne hargument
        (by decide) (by decide)

end SettingFault

section Checks

variable {fault : SettingFault}

theorem aboutValue_of_positive {what : String} {n : Int}
    (hwhat : what ∈ countNames) (h : positive what n = .error fault) : fault.AboutValue := by
  unfold positive at h
  split at h
  · cases h
  · cases h
    exact hwhat

theorem aboutValue_of_bufferLength {n : Nat} (h : bufferLength n = .error fault) :
    fault.AboutValue := by
  unfold bufferLength at h
  split at h <;> cases h
  trivial

theorem aboutValue_of_moduleName {name : String} (h : moduleName name = .error fault) :
    fault.AboutValue := by
  unfold moduleName at h
  split at h <;> cases h
  trivial

theorem aboutValue_of_distance {x : Float32} (h : distance x = .error fault) : fault.AboutValue := by
  unfold distance at h
  split at h <;> cases h
  trivial

theorem aboutValue_of_readColor {text : String} (h : readColor text = .error fault) :
    fault.AboutValue := by
  unfold readColor at h
  split at h <;> cases h
  trivial

end Checks

namespace Setting

/-- The type of the argument of a request. -/
def argType : Setting → ArgType
  | .module | .background => .text
  | .frameRate | .sampleRate | .sampleSize | .bufferSize | .avgFrames | .glslVersion
  | .uniformLimit => .int
  | .interpolate | .avgWindow | .accelFft => .bool
  | .gravityStep | .fftScale | .fftCutoff | .smoothFactor | .smoothDistance => .float

theorem signature_types (k : Setting) :
    k.signature.toList.map ArgType.ofCode? = [some k.argType] := by
  cases k <;> rfl

/-- A value of the declared type is read, or refused for what it is. -/
theorem aboutValue_of_read {fault : SettingFault} : ∀ {k : Setting} {a : Arg}, a.type = k.argType →
    k.read [a] = .error fault → fault.AboutValue
  | .frameRate, .int n, _, h | .sampleRate, .int n, _, h | .sampleSize, .int n, _, h
  | .avgFrames, .int n, _, h | .glslVersion, .int n, _, h | .uniformLimit, .int n, _, h =>
    aboutValue_of_positive (by decide) h
  | .bufferSize, .int n, _, h => by
    change (positive "buffer size" n >>= bufferLength) = .error fault at h
    cases hn : positive "buffer size" n with
    | error fault' =>
      rw [hn] at h
      cases h
      exact aboutValue_of_positive (by decide) hn
    | ok v =>
      rw [hn] at h
      exact aboutValue_of_bufferLength h
  | .module, .text text, _, h => aboutValue_of_moduleName h
  | .background, .text text, _, h => by
    change some <$> readColor text = .error fault at h
    cases hcolor : readColor text with
    | error fault' =>
      rw [hcolor] at h
      cases h
      exact aboutValue_of_readColor hcolor
    | ok color =>
      rw [hcolor] at h
      cases h
  | .smoothDistance, .float x, _, h => aboutValue_of_distance h

/-- With arguments that fit, a setting is changed or a value is refused. -/
theorem aboutValue_of_change {k : Setting} {tokens : List Token} {args : List Arg}
    {fault : SettingFault} (hargs : Typed k.signature tokens args)
    (h : k.change args = .error fault) : fault.AboutValue := by
  have htypes := hargs.types
  rw [signature_types] at htypes
  obtain ⟨a, rfl⟩ := List.length_eq_one_iff.1 (by simpa using congrArg List.length htypes)
  have ha : a.type = k.argType := Option.some.inj (List.singleton_inj.1 htypes)
  rw [change_eq] at h
  cases hread : k.read [a] with
  | error fault' =>
    rw [hread] at h
    cases h
    exact aboutValue_of_read ha hread
  | ok v =>
    rw [hread] at h
    cases h

end Setting

/-- What a handler of a setting refuses is told about a value. -/
theorem Setting.reason_ne {k : Setting} {tokens : List Token} {args : List Arg}
    {s s' : PipelineSettings} {reason : String} (hargs : Typed k.signature tokens args)
    (h : k.handler args s = (.error reason, s')) (index : Nat) (expected : ArgType) :
    reason ≠ (SettingFault.argument index expected).message := by
  unfold Setting.handler at h
  cases hchange : k.change args with
  | error fault =>
    rw [hchange] at h
    cases h
    exact (aboutValue_of_change hargs hchange).message_ne index expected
  | ok change =>
    rw [hchange] at h
    cases h

/-! ### The requests of a stage -/

/-- With arguments that fit, no text is missing. -/
theorem twoTexts_of_typed {tokens : List Token} {args : List Arg} (hargs : Typed "ss" tokens args)
    (first second : String) : ∃ p, twoTexts first second args = .ok p := by
  have htypes : args.map (fun a => some a.type) = [some .text, some .text] := hargs.types
  match args, htypes with
  | [.text a, .text b], _ => exact ⟨(a, b), rfl⟩

namespace StageFault

/-- Faults that are about what the two texts name. -/
def AboutNames : StageFault → Prop
  | .missing _ => False
  | .unknownTransform error => ∃ name, error = .unknownTransform name
  | .unknownSource _ | .boundTwice _ | .unbound _ | .notAudio _ _ _ => True

/-- What is told about names does not read as if a text were missing. -/
theorem AboutNames.message_ne {fault : StageFault} (h : fault.AboutNames) (what : String) :
    fault.message ≠ (missing what).message := by
  have hmissing : Begins "missing " (missing what).message := (Begins.refl "missing ").append
  cases fault with
  | missing => exact h.elim
  | unknownSource name =>
    exact (Begins.refl "unknown bind source '").append.append.ne hmissing (by decide) (by decide)
  | boundTwice name =>
    exact (Begins.refl "uniform '").append.append.ne hmissing (by decide) (by decide)
  | unknownTransform error =>
    obtain ⟨name, rfl⟩ := h
    exact (Begins.refl "unknown transform '").append.append.ne hmissing (by decide) (by decide)
  | unbound name =>
    exact (Begins.refl "no uniform named '").append.append.ne hmissing (by decide) (by decide)
  | notAudio transform name source =>
    exact (Begins.refl "transform '").append.append.append.append.append.append.ne hmissing
      (by decide) (by decide)

end StageFault

theorem aboutNames_of_bindUniform {c : StageContext} {source name : String} {fault : StageFault}
    (h : c.bindUniform source name = .error fault) : fault.AboutNames := by
  unfold StageContext.bindUniform at h
  split at h
  · cases h
    trivial
  · split at h <;> cases h
    trivial

theorem aboutNames_of_addTransform {c : StageContext} {name transform : String} {fault : StageFault}
    (h : c.addTransform name transform = .error fault) : fault.AboutNames := by
  unfold StageContext.addTransform at h
  split at h
  · next error herror =>
    cases h
    unfold Transform.ofName at herror
    split at herror <;> cases herror
    exact ⟨transform, rfl⟩
  · split at h
    · cases h
      trivial
    · split at h <;> cases h
      trivial

/-- What a handler of a stage refuses is told about names. -/
theorem reason_ne_of_stageHandler {first second : String}
    {change : StageContext → String → String → Except StageFault StageContext}
    {tokens : List Token} {args : List Arg} {c c' : StageContext} {reason : String}
    (h : stageHandler first second change args c = (.error reason, c')) (hargs : Typed "ss" tokens args)
    (hchange : ∀ c a b fault, change c a b = .error fault → fault.AboutNames) (what : String) :
    reason ≠ (StageFault.missing what).message := by
  obtain ⟨fault, hfault, rfl, -⟩ := of_stageHandler_refuses h
  obtain ⟨p, htexts⟩ := twoTexts_of_typed hargs first second
  rw [htexts, Except.bind] at hfault
  exact (hchange _ _ _ _ hfault).message_ne what

/-! ### Runs -/

/-- **Handlers are called with arguments that fit.** Whatever the table, the files
and the lines are, a handler is only called from a request line, with one value for
each letter of its signature, of the type that the letter names, which its word reads
as; a quoted word is text. So no handler of a setting or of a stage ever finds an
argument missing or of another type, and no run is rejected for that. -/
theorem handlers_called_typed :
    (∀ (C : Type) [Substitutions C] (setup : Setup C) root c log out r log',
      process setup root { context := c } log = ((out, r), log') →
      ∀ call ∈ r.calls.toList, ∃ v ∈ setup.visits root, v.Calls setup call) ∧
    (∀ files maxDepth root s log out r log',
      process { files, requests := settingsRequests, maxDepth } root { context := s } log =
        ((out, r), log') →
      (∀ call ∈ r.calls.toList, ∃ k : Setting, k.name = call.request ∧
        ∀ index expected, k.change call.args ≠ .error (.argument index expected)) ∧
      ∀ place name reason, out = .error (.rejected place name reason) →
        ∀ index expected, reason ≠ (SettingFault.argument index expected).message) ∧
    ∀ files maxDepth root c log out r log',
      process { files, requests := stageRequests, maxDepth } root { context := c } log =
        ((out, r), log') →
      (∀ call ∈ r.calls.toList, ∀ first second what,
        twoTexts first second call.args ≠ .error (.missing what)) ∧
      ∀ place name reason, out = .error (.rejected place name reason) →
        ∀ what, reason ≠ (StageFault.missing what).message := by
  refine ⟨?_, ?_, ?_⟩
  · intro C _ setup root c log out r log' hrun call hcall
    obtain ⟨ps, hwalk, -⟩ := walk_of_process hrun
    exact hwalk.called hcall
  · intro files maxDepth root s log out r log' hrun
    obtain ⟨ps, hwalk, -⟩ := walk_of_process hrun
    refine ⟨fun call hcall => ?_, ?_⟩
    · obtain ⟨v, -, -, tokens, request, -, hget, hargs⟩ := hwalk.called hcall
      obtain ⟨k, hname, rfl⟩ := setting_of_get? hget
      exact ⟨k, hname, fun index expected hchange => Setting.aboutValue_of_change hargs hchange⟩
    · rintro place name reason rfl index expected
      obtain ⟨request, tokens, args, s₁, hget, hargs, hcall⟩ := hwalk.rejects
      obtain ⟨k, -, rfl⟩ := setting_of_get? hget
      exact Setting.reason_ne hargs hcall index expected
  · intro files maxDepth root c log out r log' hrun
    obtain ⟨ps, hwalk, -⟩ := walk_of_process hrun
    refine ⟨fun call hcall first second what htexts => ?_, ?_⟩
    · obtain ⟨v, -, -, tokens, request, -, hget, hargs⟩ := hwalk.called hcall
      have hss : Typed "ss" tokens call.args := by
        rcases stage_request_cases hget with ⟨-, rfl⟩ | ⟨-, rfl⟩ <;> exact hargs
      obtain ⟨p, hp⟩ := twoTexts_of_typed hss first second
      rw [hp] at htexts
      cases htexts
    · rintro place name reason rfl what
      obtain ⟨request, tokens, args, c₁, hget, hargs, hcall⟩ := hwalk.rejects
      rcases stage_request_cases hget with ⟨-, rfl⟩ | ⟨-, rfl⟩
      · exact reason_ne_of_stageHandler hcall hargs (fun _ _ _ _ => aboutNames_of_bindUniform) what
      · exact reason_ne_of_stageHandler hcall hargs (fun _ _ _ _ => aboutNames_of_addTransform) what

/-- The frame count is of the type that its letter names, but no frames are too few. -/
def noFramesUnit : SourceUnit := .ofText ⟨"rc.glsl"⟩ "#request setbg \"102030\"\n#request setavgframes 0\n"

/-- There is no such source. -/
def mouseUnit : SourceUnit := .ofText ⟨"1.frag"⟩ "#request uniform \"mouse\" m\n"

theorem typed_noFramesUnit_mouseUnit :
    (∃ r : Run PipelineSettings, r.calls.toList.map (·.request) = ["setbg", "setavgframes"] ∧
      ∀ call ∈ r.calls.toList, ∃ v ∈ (settingsSetup {}).visits noFramesUnit,
        v.Calls (settingsSetup {}) call) ∧
    (∃ place name reason, (process (settingsSetup {}) noFramesUnit { context := {} } #[]).1.1 =
        .error (.rejected place name reason) ∧
      ∀ index expected, reason ≠ (SettingFault.argument index expected).message) ∧
    ∃ place name reason, (process { files := {}, requests := stageRequests } mouseUnit
        { context := ⟨{}, [], []⟩ } #[]).1.1 = .error (.rejected place name reason) ∧
      ∀ what, reason ≠ (StageFault.missing what).message := by
  obtain ⟨hcalls, hsettings, hstage⟩ := handlers_called_typed
  refine ⟨⟨_, by decide +kernel, hcalls _ (settingsSetup {}) noFramesUnit {} #[] _ _ _ rfl⟩, ?_, ?_⟩
  · have hout : (process (settingsSetup {}) noFramesUnit { context := {} } #[]).1.1 =
        .error (.rejected ⟨⟨"rc.glsl"⟩, 2⟩ "setavgframes"
          "average frame count must be a positive integer, got 0") := by decide +kernel
    obtain ⟨-, hreason⟩ := hsettings {} 32 noFramesUnit {} #[] _ _ _ rfl
    exact ⟨_, _, _, hout, hreason _ _ _ hout⟩
  · have hout : (process { files := {}, requests := stageRequests } mouseUnit
        { context := ⟨{}, [], []⟩ } #[]).1.1 =
        .error (.rejected ⟨⟨"1.frag"⟩, 1⟩ "uniform" "unknown bind source 'mouse'") := by decide +kernel
    obtain ⟨-, hreason⟩ := hstage {} 32 mouseUnit ⟨{}, [], []⟩ #[] _ _ _ rfl
    exact ⟨_, _, _, hout, hreason _ _ _ hout⟩

end AudioShader
