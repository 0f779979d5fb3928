/-
# Units processed byte by byte

Processing a unit with the readers that work on byte positions is processing it with
those that work on characters. So no text that a run meets, in its unit or in a file
that it includes, is ever read behind its end, or cut where it cannot be cut: inside a
character, behind its end, or up to a position in front of the one it is cut from.

Key definitions: `Bytewise.process`, `Bytewise.OnlyFaults`.
Key theorems: `Bytewise.process_eq`, `Bytewise.cuts_between_characters`.
-/
import AudioShader.Proofs.Source.Attribution
import AudioShader.Proofs.Source.Bytewise.Directive
import AudioShader.Proofs.Source.Bytewise.Scanning

namespace AudioShader
namespace Action

variable {σ ε ε' α β : Type} {f : ε → ε'}

/-- Work in sequence is told in other words by its parts. -/
theorem bind_eq_mapError {a' : Action σ ε' α} {g' : α → Action σ ε' β} {a : Action σ ε α}
    {g : α → Action σ ε β} (ha : a' = mapError f a) (hg : ∀ x, g' x = mapError f (g x)) :
    (a' >>= g') = mapError f (a >>= g) := by
  funext s log
  rw [ha, bind_apply]
  unfold mapError
  rw [bind_apply]
  rcases a s log with ⟨⟨e | x, s₁⟩, log₁⟩
  · rfl
  · exact congrFun (congrFun (hg x) s₁) log₁

/-- Work told in other words has its result told in other words. -/
theorem mapError_result (f : ε → ε') (a : Action σ ε α) (s : σ) (log : Log) :
    (mapError f a s log).1.1 = (a s log).1.1.mapError f := by
  unfold mapError
  rcases a s log with ⟨⟨e | x, s'⟩, log'⟩ <;> rfl

end Action

namespace Bytewise

variable {C : Type}

/-- The result, or the run ends at a line. -/
def orRefuse {α : Type} (place : LineRef) :
    Except (Slip LineFault) α → Action (Run C) (Slip SourceError) α
  | .ok a => pure a
  | .error slip => throw (slip.map (.refused place))

/-- The directive on a line, read where directives can stand. -/
def lineDirective (k : Carry) (line : List Char) : Except (Slip LineFault) (Option Directive) :=
  if k.atLineStart && startsDirective line then directive line else .ok none

section

variable [Substitutions C]

/-- Where a line begins. -/
def zoneOf (k : Carry) : Zone := if k.inComment then .comment else .code

/-- Copies a line of a file: whether a comment is open behind it. -/
def copy (file : Nat) (place : LineRef) (manner : Manner) (k : Carry) (line : List Char) :
    Action (Run C) (Slip SourceError) Bool := do
  let (text, inComment) ←
    orRefuse place (scanLine (Substitutions.bound? (← get).context) manner (zoneOf k) line)
  Action.mapError .fault (Run.emit (.line file place.line text))
  return inComment

/-- Processes one line of a file, with `nested` for its includes. -/
def processLine (setup : Setup C)
    (nested : LineRef → String → Action (Run C) (Slip SourceError) Unit) (file : Nat)
    (place : LineRef) (k : Carry) (line : List Char) : Action (Run C) (Slip SourceError) Carry := do
  let directive ← orRefuse place (lineDirective k line)
  let restart := k.pending && k.atLineStart && !isConsumed directive
  if restart then Action.mapError .fault (Run.emit (.marker file place.line))
  let k' : Carry :=
    { k with continued := isContinued line, pending := k.pending && !restart }
  match directive with
  | some (.includeFile target) =>
    nested place target
    return { k' with pending := true }
  | some (.request name args) =>
    Action.mapError .fault (dispatch setup.requests place name args)
    return { k' with pending := true }
  | some (.define name) =>
    Action.mapError .fault (Run.emit (.guard name))
    Action.mapError .fault (Run.emit (.marker file place.line))
    let inComment ← copy file place .define k line
    return { k' with inComment, pending := true }
  | some (.expand name control) =>
    match Substitutions.count? (← get).context control with
    | none => Action.mapError .fault (Run.refuse place (.unknownExpansion control))
    | some count =>
      Action.mapError .fault (Run.emit (.calls file place.line name count))
      return { k' with pending := true }
  | none =>
    let manner := if k.atLineStart && startsDirective line then Manner.verbatim else .body
    let inComment ← copy file place manner k line
    return { k' with inComment }

/-- Processes the lines of a file from `number` on. -/
def processLines (setup : Setup C)
    (nested : LineRef → String → Action (Run C) (Slip SourceError) Unit) (origin : Path)
    (file : Nat) : (number : Nat) → Carry → List (List Char) →
      Action (Run C) (Slip SourceError) Unit
  | _, _, [] => pure ()
  | number, k, line :: rest => do
    let k' ← processLine setup nested file ⟨origin, number⟩ k line
    processLines setup nested origin file (number + 1) k' rest

/-- Processes a unit, with `nested` for its includes. -/
def processText (setup : Setup C)
    (nested : LineRef → String → Action (Run C) (Slip SourceError) Unit) (unit : SourceUnit) :
    Action (Run C) (Slip SourceError) Unit := do
  let file ← Action.mapError .fault (Run.openFile unit.origin)
  Action.mapError .fault (Run.emit (.marker file 1))
  processLines setup nested unit.origin file 1 {} (Text.splitLines unit.text.toList)

/-- Processes a unit and what it includes; `room` more levels may be nested. -/
def processUnit (setup : Setup C) : (room : Nat) → (stack : List FileIdentity) → SourceUnit →
    Action (Run C) (Slip SourceError) Unit
  | 0, _, unit =>
    processText setup (fun place target => do
      let _ ← Action.mapError .fault (Run.orRefuse place (unit.resolve target))
      Action.mapError .fault (Run.refuse place (.includeDepth setup.maxDepth))) unit
  | room + 1, stack, unit =>
    processText setup (fun place target => do
      let path ← Action.mapError .fault (Run.orRefuse place (unit.resolve target))
      let (included, key) ← Action.mapError .fault (openInclude setup stack unit place path)
      processUnit setup room (stack ++ [key]) included) unit

/-- Processes a unit and everything it includes. -/
def process (setup : Setup C) (unit : SourceUnit) :
    Action (Run C) (Slip SourceError) ProcessedSource := do
  processUnit setup setup.maxDepth [setup.files.identity unit.origin] unit
  let source := (← get).source
  Action.mapError .fault (Action.record (.debug "preprocessed source"
    [("origin", unit.origin.text), ("bytes", toString source.text.utf8ByteSize),
      ("files", toString source.map.files.length)]))
  return source

end

/-! ### Processing by bytes is processing by characters -/

theorem orRefuse_eq {α : Type} (place : LineRef) (r : Except LineFault α) :
    (orRefuse place (r.mapError .fault) : Action (Run C) _ α) =
      Action.mapError .fault (Run.orRefuse place r) := by
  cases r <;> rfl

theorem lineDirective_eq (k : Carry) (line : List Char) :
    lineDirective k line = (AudioShader.lineDirective k line).mapError .fault := by
  unfold lineDirective AudioShader.lineDirective
  split
  · exact directive_eq line
  · rfl

variable [Substitutions C] {setup : Setup C}
  {nested : LineRef → String → Action (Run C) SourceError Unit}
  {nested' : LineRef → String → Action (Run C) (Slip SourceError) Unit}

/-- A line that is copied, by its characters, and what is done behind it. -/
theorem copy_bind_eq {manner : Manner} {k : Carry} {line : List Char}
    {copied : (String → Option String) → Except LineFault (List Char × Bool)}
    (hcopied : ∀ bound, copyLine bound manner (zoneOf k) line = copied bound) (file : Nat)
    (place : LineRef) (f : Bool → Carry) :
    (do
      let inComment ← copy file place manner k line
      return f inComment) = Action.mapError Slip.fault (do
      let (text, inComment) ←
        Run.orRefuse place (copied (Substitutions.bound? (← get : Run C).context))
      Run.emit (.line file place.line text)
      return f inComment) := by
  simp only [copy, bind_assoc, pure_bind]
  refine Action.bind_eq_mapError rfl fun r => ?_
  rw [scanLine_eq, orRefuse_eq, hcopied]
  exact Action.bind_eq_mapError rfl fun p => Action.bind_eq_mapError rfl fun _ => rfl

theorem zoneOf_eq_code {k : Carry} (h : k.atLineStart = true) : zoneOf k = .code := by
  simp only [Carry.atLineStart, Bool.and_eq_true, Bool.not_eq_true'] at h
  rw [zoneOf, h.2]
  rfl

/-- A line processed by its bytes is processed by its characters. -/
theorem processLine_eq
    (hnested : ∀ place target, nested' place target = Action.mapError .fault (nested place target))
    (file : Nat) (place : LineRef) (k : Carry) (line : List Char) :
    processLine setup nested' file place k line =
      Action.mapError .fault (AudioShader.processLine setup nested file place k line) := by
  unfold processLine AudioShader.processLine
  rw [lineDirective_eq, orRefuse_eq]
  cases hd : AudioShader.lineDirective k line with
  | error fault => rfl
  | ok d =>
    show (pure d >>= _) = Action.mapError Slip.fault (pure d >>= _)
    rw [pure_bind, pure_bind]
    -- the marker in front of the line, if there is one, is written alike
    have hmarker {rest' : Action (Run C) (Slip SourceError) Carry}
        {rest : Action (Run C) SourceError Carry} (hrest : rest' = Action.mapError .fault rest)
        (restart : Bool) :
        (if restart then
            Action.mapError .fault (Run.emit (.marker file place.line)) >>= fun _ => rest'
          else rest') = Action.mapError .fault
            (if restart then Run.emit (.marker file place.line) >>= fun _ => rest else rest) := by
      cases restart with
      | false => exact hrest
      | true => exact Action.bind_eq_mapError rfl fun _ => hrest
    refine hmarker ?_ _
    cases d with
    | none =>
      dsimp only
      by_cases hstart : (k.atLineStart && startsDirective line) = true
      · have hzone := zoneOf_eq_code (Bool.and_eq_true_iff.1 hstart).1
        have hcopied (bound : String → Option String) : copyLine bound .verbatim (zoneOf k) line =
            .ok (line, endsInComment .code line) := by
          rw [hzone]
          rfl
        rw [if_pos hstart, if_pos hstart]
        exact copy_bind_eq hcopied file place fun inComment => ⟨inComment, isContinued line, _⟩
      · rw [if_neg hstart, if_neg hstart]
        exact copy_bind_eq (fun _ => rfl) file place fun inComment =>
          ⟨inComment, isContinued line, _⟩
    | some d =>
      cases d with
      | includeFile target => exact Action.bind_eq_mapError (hnested place target) fun _ => rfl
      | request name args => exact Action.bind_eq_mapError rfl fun _ => rfl
      | define name =>
        refine Action.bind_eq_mapError rfl fun _ => Action.bind_eq_mapError rfl fun _ => ?_
        have hzone := zoneOf_eq_code (atLineStart_of_directive hd)
        have hcopied (bound : String → Option String) :
            copyLine bound .define (zoneOf k) line = scanDefine bound line := by
          rw [hzone, copyLine_define]
        exact copy_bind_eq hcopied file place fun inComment => ⟨inComment, isContinued line, true⟩
      | expand name control =>
        refine Action.bind_eq_mapError rfl fun r => ?_
        cases Substitutions.count? r.context control with
        | none => rfl
        | some count => exact Action.bind_eq_mapError rfl fun _ => rfl

theorem processLines_eq
    (hnested : ∀ place target, nested' place target = Action.mapError .fault (nested place target))
    (origin : Path) (file : Nat) : ∀ (lines : List (List Char)) (number : Nat) (k : Carry),
    processLines setup nested' origin file number k lines =
      Action.mapError .fault (AudioShader.processLines setup nested origin file number k lines)
  | [], _, _ => rfl
  | line :: rest, number, k =>
    Action.bind_eq_mapError (processLine_eq hnested file ⟨origin, number⟩ k line) fun k' =>
      processLines_eq hnested origin file rest (number + 1) k'

theorem processText_eq
    (hnested : ∀ place target, nested' place target = Action.mapError .fault (nested place target))
    (unit : SourceUnit) : processText setup nested' unit =
      Action.mapError .fault (AudioShader.processText setup nested unit) :=
  Action.bind_eq_mapError rfl fun _ => Action.bind_eq_mapError rfl fun _ =>
    processLines_eq hnested ..

theorem processUnit_eq : ∀ (room : Nat) (stack : List FileIdentity) (unit : SourceUnit),
    processUnit setup room stack unit =
      Action.mapError .fault (AudioShader.processUnit (C := C) setup room stack unit)
  | 0, _, _ => processText_eq (fun _ _ => Action.bind_eq_mapError rfl fun _ => rfl) _
  | room + 1, stack, unit => by
    refine processText_eq (fun place target => ?_) unit
    refine Action.bind_eq_mapError rfl fun path => Action.bind_eq_mapError rfl fun p => ?_
    exact processUnit_eq room (stack ++ [p.2]) p.1

theorem process_eq (setup : Setup C) (unit : SourceUnit) :
    process setup unit = Action.mapError .fault (AudioShader.process setup unit) :=
  Action.bind_eq_mapError (processUnit_eq ..) fun _ => rfl

/-! ### No byte is missing, and no cut is refused -/

/-- If the work fails, it is for a fault of the text: each byte that is read is there, and
each cut is one that the text allows. -/
def OnlyFaults {ε α : Type} (r : Except (Slip ε) α) : Prop :=
  ∀ slip, r = .error slip → ∃ fault, slip = .fault fault

theorem onlyFaults_mapError {ε α : Type} (r : Except ε α) : OnlyFaults (r.mapError .fault) := by
  intro slip h
  cases r with
  | error fault =>
    cases h
    exact ⟨fault, rfl⟩
  | ok x => cases h

theorem onlyFaults_process (setup : Setup C) (unit : SourceUnit) (run : Run C) (log : Log) :
    OnlyFaults (process setup unit run log).1.1 := by
  rw [process_eq, Action.mapError_result]
  exact onlyFaults_mapError _

/-- **Every byte that is read is in the text, and every cut stands between characters.** A
directive is read, and a line is scanned in each manner from each zone, by bytes as by
characters and without a bad position; so processing a unit, from wherever a run has come,
does what it does by characters and only fails for faults. -/
theorem cuts_between_characters :
    (∀ line, directive line = (readDirective line).mapError .fault ∧
        OnlyFaults (directive line)) ∧
      (∀ bound manner zone line,
        scanLine bound manner zone line = (copyLine bound manner zone line).mapError .fault ∧
          OnlyFaults (scanLine bound manner zone line)) ∧
      ∀ (setup : Setup C) (unit : SourceUnit),
        process setup unit = Action.mapError .fault (AudioShader.process setup unit) ∧
          ∀ (run : Run C) (log : Log), OnlyFaults (process setup unit run log).1.1 := by
  refine ⟨fun line => ?_, fun bound manner zone line => ?_, fun setup unit => ?_⟩
  · have h := directive_eq line
    exact ⟨h, h ▸ onlyFaults_mapError _⟩
  · have h := scanLine_eq bound manner zone line
    exact ⟨h, h ▸ onlyFaults_mapError _⟩
  · exact ⟨process_eq setup unit, onlyFaults_process setup unit⟩

end Bytewise
end AudioShader
