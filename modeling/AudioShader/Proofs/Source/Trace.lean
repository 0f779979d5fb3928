/-
# What a successful run does, line by line

A run that succeeds is a tree: the lines of a unit one after the other, and at
an include the lines of the unit that is included. `Processed` is that tree.
What one line leaves for the next one is told by the line alone
(`Carry.after`), and the pieces that it writes by the line and the context it
is read with (`Stands`).

Key definitions: `Carry.after`, `Stands`, `Dispatched`, `Processed`.
Key theorems: `processed_of_process`.
-/
import AudioShader.Proofs.Action
import AudioShader.Proofs.Source.Sight

namespace AudioShader

open AudioShader.Action (Gives)

variable {C : Type}

/-! ### What one line does -/

namespace Carry

/-- The numbering of lines restarts at the line. -/
def restarts (k : Carry) (d : Option Directive) : Bool := k.pending && k.atLineStart && !isConsumed d

/-- The line is left to the compiler as it is. -/
def copies (k : Carry) (line : List Char) : Bool := k.atLineStart && startsDirective line

def zone (k : Carry) : Zone := if k.inComment then .comment else .code

/-- Where the text of a definition is scanned from. -/
def definitionText (line : List Char) : List Char :=
  match line.dropWhile Text.isAsciiBlank with
  | '#' :: rest => rest
  | _ => line

/-- A comment is open behind the line. -/
def leavesComment (k : Carry) (line : List Char) : Option Directive → Bool
  | some (.define _) => leavesOpen .code (definitionText line)
  | some _ => k.inComment
  | none => if k.copies line then endsInComment .code line else leavesOpen k.zone line

/-- What a line leaves for the next one. -/
def after (k : Carry) (d : Option Directive) (line : List Char) : Carry where
  inComment := k.leavesComment line d
  continued := isContinued line
  pending := d.isSome || (k.pending && !k.restarts d)

/-- The marker where the numbering restarts. -/
def lead (k : Carry) (d : Option Directive) (file number : Nat) : List Piece :=
  if k.restarts d then [.marker file number] else []

end Carry

/-- The pieces that stand for a line which is not consumed, in a context. -/
inductive Stands [Substitutions C] (c : C) (k : Carry) (file number : Nat) (line : List Char) :
    Option Directive → List Piece → Prop
  | define {name text inComment} :
      scanDefine (Substitutions.bound? c) line = .ok (text, inComment) →
      Stands c k file number line (some (.define name))
        [.guard name, .marker file number, .line file number text]
  | expand {name control count} : Substitutions.count? c control = some count →
      Stands c k file number line (some (.expand name control)) [.calls file number name count]
  | verbatim : k.copies line = true → Stands c k file number line none [.line file number line]
  | body {text inComment} : k.copies line = false →
      scan (Substitutions.bound? c) k.zone line = .ok (text, inComment) →
      Stands c k file number line none [.line file number text]

namespace Run

/-- The run with more pieces. -/
def add (r : Run C) (ps : List Piece) : Run C := { r with pieces := r.pieces ++ ps.toArray }

/-- The run with one more open file, whose lines begin here. -/
def opened (r : Run C) (path : Path) : Run C :=
  { r with files := r.files.push path, pieces := r.pieces.push (.marker r.files.size 1) }

@[simp] theorem add_files (r : Run C) (ps : List Piece) : (r.add ps).files = r.files := rfl

@[simp] theorem add_pieces (r : Run C) (ps : List Piece) :
    (r.add ps).pieces.toList = r.pieces.toList ++ ps := by simp [add]

@[simp] theorem opened_files (r : Run C) (path : Path) :
    (r.opened path).files.toList = r.files.toList ++ [path] := by simp [opened]

@[simp] theorem opened_pieces (r : Run C) (path : Path) :
    (r.opened path).pieces.toList = r.pieces.toList ++ [.marker r.files.size 1] := by simp [opened]

@[simp] theorem add_nil (r : Run C) : r.add [] = r := by simp [add]

theorem add_add (r : Run C) (ps qs : List Piece) : (r.add ps).add qs = r.add (ps ++ qs) := by
  simp [add]

end Run

/-- A request takes the run from `r` to `r'`: its handler accepts the words that
were given. -/
inductive Dispatched (requests : RequestTable C) (place : LineRef) (name : String)
    (tokens : List Token) (r : Run C) : Run C → Prop
  | intro {request args c} : requests.get? name = some request →
      coerceArgs request.signature tokens = .ok args →
      request.handler args r.context = (.ok (), c) →
      Dispatched requests place name tokens r
        { r with context := c, calls := r.calls.push ⟨place, name, args⟩ }

/-- The lines of a unit take the run from `r` to `r'`, beginning with the line
`number` of the open file `file`. -/
inductive Processed [Substitutions C] (setup : Setup C) :
    List FileIdentity → SourceUnit → (file number : Nat) → Carry → List (List Char) →
      Run C → Run C → Prop
  | done {stack unit file number k r} : Processed setup stack unit file number k [] r r
  | includeFile {stack unit file number k line rest r r₁ r' target path text} :
      lineDirective k line = .ok (some (.includeFile target)) →
      unit.resolve target = .ok path →
      stack.length ≤ setup.maxDepth →
      setup.files.identity path ∉ stack →
      setup.files.readText path = .ok text →
      Processed setup (stack ++ [setup.files.identity path]) (unit.nested path text) r.files.size 1
        {} (Text.splitLines text.toList) (r.opened path) r₁ →
      Processed setup stack unit file (number + 1) (k.after (some (.includeFile target)) line) rest
        r₁ r' →
      Processed setup stack unit file number k (line :: rest) r r'
  | request {stack unit file number k line rest r r₁ r' name args} :
      lineDirective k line = .ok (some (.request name args)) →
      Dispatched setup.requests ⟨unit.origin, number⟩ name args r r₁ →
      Processed setup stack unit file (number + 1) (k.after (some (.request name args)) line) rest
        r₁ r' →
      Processed setup stack unit file number k (line :: rest) r r'
  | written {stack unit file number k line rest r r' d ps} :
      lineDirective k line = .ok d →
      Stands r.context k file number line d ps →
      Processed setup stack unit file (number + 1) (k.after d line) rest
        (r.add (k.lead d file number ++ ps)) r' →
      Processed setup stack unit file number k (line :: rest) r r'

/-- What was written stays. -/
theorem Processed.pieces_grow [Substitutions C] {setup : Setup C} {stack : List FileIdentity}
    {unit : SourceUnit} {file number : Nat} {k : Carry} {lines : List (List Char)} {r r' : Run C}
    (h : Processed setup stack unit file number k lines r r') :
    r.pieces.toList <+: r'.pieces.toList := by
  induction h with
  | done => exact List.prefix_refl _
  | includeFile hd hp hroom hin htext hnested hrest ihn ihr =>
    rw [Run.opened_pieces] at ihn
    exact ((List.prefix_append _ _).trans ihn).trans ihr
  | request hd hdisp hrest ih =>
    cases hdisp
    exact ih
  | written hd hs hrest ih =>
    rw [Run.add_pieces] at ih
    exact (List.prefix_append _ _).trans ih

/-! ### Steps that succeed -/

namespace Run

theorem of_orRefuse {α : Type} {place : LineRef} {e : Except LineFault α} {r r' : Run C} {x : α}
    (h : Gives (orRefuse place e) r x r') : e = .ok x ∧ r = r' := by
  cases e with
  | ok a =>
    obtain ⟨rfl, rfl⟩ := Gives.of_pure h
    exact ⟨rfl, rfl⟩
  | error fault => exact (Gives.of_throw h).elim

theorem of_emit {p : Piece} {r r' : Run C} {u : Unit} (h : Gives (emit p) r u r') :
    r' = r.add [p] := by
  rw [Gives.of_modify h]
  simp [add]

theorem of_emit_or_skip {α : Type} {b : Bool} {p : Piece} {f : Unit → Action (Run C) SourceError α}
    {r r' : Run C} {x : α} (h : Gives (if b = true then emit p >>= f else f ()) r x r') :
    Gives (f ()) (r.add (if b = true then [p] else [])) x r' := by
  cases b with
  | true =>
    obtain ⟨⟨⟩, r₁, h₁, h⟩ := h.bind
    obtain rfl := of_emit h₁
    exact h
  | false => simpa using h

end Run

theorem dispatched_of_dispatch {requests : RequestTable C} {place : LineRef} {name : String}
    {tokens : List Token} {r r' : Run C} {u : Unit}
    (h : Gives (dispatch requests place name tokens) r u r') :
    Dispatched requests place name tokens r r' := by
  unfold dispatch at h
  split at h
  · exact (Gives.of_throw h).elim
  · next request hr =>
    split at h
    · exact (Gives.of_throw h).elim
    · next args ha =>
      obtain ⟨⟨⟩, r₁, h₁, h⟩ := h.bind
      obtain rfl := Gives.of_record h₁
      obtain ⟨r₂, r₃, h₂, h⟩ := h.bind
      obtain ⟨rfl, rfl⟩ := Gives.of_get h₂
      rcases hh : request.handler args r.context with ⟨outcome, c⟩
      rw [hh] at h
      obtain ⟨⟨⟩, r₄, h₃, h⟩ := h.bind
      rw [Gives.of_set h₃] at h
      cases outcome with
      | error reason => exact (Gives.of_throw h).elim
      | ok v =>
        obtain ⟨-, rfl⟩ := Gives.of_pure h
        exact .intro hr ha hh

/-- The scan of a definition leaves open the comment that its text does. -/
theorem scanDefine_leavesOpen {bound : String → Option String} {line t : List Char}
    {inComment : Bool} (h : scanDefine bound line = .ok (t, inComment)) :
    leavesOpen .code (Carry.definitionText line) = inComment := by
  unfold scanDefine at h
  split at h
  · next rest hr =>
    obtain ⟨t', ht', -⟩ := prepend_eq_ok.1 h
    rw [Carry.definitionText, hr]
    exact scan_leavesOpen ht'
  · next hr =>
    have he : Carry.definitionText line = line := by
      unfold Carry.definitionText
      split
      · next rest hr' => exact absurd hr' (hr rest)
      · rfl
    rw [he]
    exact scan_leavesOpen h

/-- What a line does: it includes a file, calls a handler, or is written. -/
theorem of_processLine [Substitutions C] {setup : Setup C}
    {nested : LineRef → String → Action (Run C) SourceError Unit} {file : Nat} {place : LineRef}
    {k k' : Carry} {line : List Char} {r r' : Run C}
    (h : Gives (processLine setup nested file place k line) r k' r') :
    ∃ d, lineDirective k line = .ok d ∧ k' = k.after d line ∧
      ((∃ target, d = some (.includeFile target) ∧ Gives (nested place target) r () r') ∨
        (∃ name args, d = some (.request name args) ∧
          Dispatched setup.requests place name args r r') ∨
        ∃ ps, Stands r.context k file place.line line d ps ∧
          r' = r.add (k.lead d file place.line ++ ps)) := by
  unfold processLine at h
  obtain ⟨d, r₁, h₁, h⟩ := h.bind
  obtain ⟨hd, rfl⟩ := Run.of_orRefuse h₁
  replace h := Run.of_emit_or_skip h
  refine ⟨d, hd, ?_⟩
  match d with
  | some (.includeFile target) =>
    have hr : k.restarts (some (.includeFile target)) = false := by simp [Carry.restarts, isConsumed]
    obtain ⟨⟨⟩, r₃, h₃, h⟩ := h.bind
    obtain ⟨rfl, rfl⟩ := Gives.of_pure h
    refine ⟨?_, .inl ⟨target, rfl, ?_⟩⟩
    · simp [Carry.after, Carry.leavesComment]
    · simpa [isConsumed] using h₃
  | some (.request name args) =>
    obtain ⟨⟨⟩, r₃, h₃, h⟩ := h.bind
    obtain ⟨rfl, rfl⟩ := Gives.of_pure h
    refine ⟨?_, .inr (.inl ⟨name, args, rfl, ?_⟩)⟩
    · simp [Carry.after, Carry.leavesComment]
    · simpa [isConsumed] using dispatched_of_dispatch h₃
  | some (.define name) =>
    obtain ⟨⟨⟩, r₃, h₃, h⟩ := h.bind
    obtain rfl := Run.of_emit h₃
    obtain ⟨⟨⟩, r₄, h₄, h⟩ := h.bind
    obtain rfl := Run.of_emit h₄
    obtain ⟨s, r₅, h₅, h⟩ := h.bind
    obtain ⟨rfl, rfl⟩ := Gives.of_get h₅
    obtain ⟨⟨text, inComment⟩, r₆, h₆, h⟩ := h.bind
    obtain ⟨hs, rfl⟩ := Run.of_orRefuse h₆
    obtain ⟨⟨⟩, r₇, h₇, h⟩ := h.bind
    obtain rfl := Run.of_emit h₇
    obtain ⟨rfl, rfl⟩ := Gives.of_pure h
    refine ⟨?_, .inr (.inr ⟨_, .define hs, ?_⟩)⟩
    · simp [Carry.after, Carry.leavesComment, scanDefine_leavesOpen hs]
    · simp [Run.add_add, Carry.lead, Carry.restarts]
  | some (.expand name control) =>
    obtain ⟨s, r₃, h₃, h⟩ := h.bind
    obtain ⟨rfl, rfl⟩ := Gives.of_get h₃
    split at h
    · exact (Gives.of_throw h).elim
    · next count hc =>
      obtain ⟨⟨⟩, r₄, h₄, h⟩ := h.bind
      obtain rfl := Run.of_emit h₄
      obtain ⟨rfl, rfl⟩ := Gives.of_pure h
      refine ⟨?_, .inr (.inr ⟨_, .expand hc, ?_⟩)⟩
      · simp [Carry.after, Carry.leavesComment]
      · simp [Run.add_add, Carry.lead, Carry.restarts]
  | none =>
    dsimp only at h
    split at h
    · next hc =>
      obtain ⟨⟨⟩, r₃, h₃, h⟩ := h.bind
      obtain rfl := Run.of_emit h₃
      obtain ⟨rfl, rfl⟩ := Gives.of_pure h
      refine ⟨?_, .inr (.inr ⟨_, .verbatim hc, ?_⟩)⟩
      · simp [Carry.after, Carry.leavesComment, Carry.restarts, Carry.copies, hc]
      · simp [Run.add_add, Carry.lead, Carry.restarts]
    · next hc =>
      obtain ⟨s, r₃, h₃, h⟩ := h.bind
      obtain ⟨rfl, rfl⟩ := Gives.of_get h₃
      obtain ⟨⟨text, inComment⟩, r₄, h₄, h⟩ := h.bind
      obtain ⟨hs, rfl⟩ := Run.of_orRefuse h₄
      obtain ⟨⟨⟩, r₅, h₅, h⟩ := h.bind
      obtain rfl := Run.of_emit h₅
      obtain ⟨rfl, rfl⟩ := Gives.of_pure h
      have hl := scan_leavesOpen hs
      refine ⟨?_, .inr (.inr ⟨_, .body (by simpa [Carry.copies] using hc) hs, ?_⟩)⟩
      · simp [Carry.after, Carry.leavesComment, Carry.restarts, Carry.copies, Carry.zone, hc, hl]
      · simp [Run.add_add, Carry.lead, Carry.restarts]

theorem of_openInclude {setup : Setup C} {stack : List FileIdentity} {unit : SourceUnit}
    {place : LineRef} {path : Path} {r r' : Run C} {p : SourceUnit × FileIdentity}
    (h : Gives (openInclude setup stack unit place path) r p r') :
    ∃ text, setup.files.identity path ∉ stack ∧ setup.files.readText path = .ok text ∧
      p = (unit.nested path text, setup.files.identity path) ∧ r = r' := by
  unfold openInclude at h
  dsimp only at h
  split at h
  · obtain ⟨⟨⟩, r₁, h₁, -⟩ := h.bind
    exact (Gives.of_throw h₁).elim
  · next hs =>
    split at h
    · exact (Gives.of_throw h).elim
    · next text ht =>
      obtain ⟨⟨⟩, r₁, h₁, h₂⟩ := h.bind
      obtain rfl := Gives.of_record h₁
      obtain ⟨rfl, rfl⟩ := Gives.of_pure h₂
      exact ⟨text, by simpa using hs, ht, rfl, rfl⟩

/-! ### Units -/

section Units

variable [Substitutions C] {setup : Setup C} {stack : List FileIdentity} {unit : SourceUnit}

/-- What the includes of a unit do. -/
def Includes (setup : Setup C) (stack : List FileIdentity) (unit : SourceUnit) (target : String)
    (r r' : Run C) : Prop :=
  ∃ path text, unit.resolve target = .ok path ∧ stack.length ≤ setup.maxDepth ∧
    setup.files.identity path ∉ stack ∧ setup.files.readText path = .ok text ∧
    Processed setup (stack ++ [setup.files.identity path]) (unit.nested path text) r.files.size 1
      {} (Text.splitLines text.toList) (r.opened path) r'

theorem processed_of_processLines {nested : LineRef → String → Action (Run C) SourceError Unit}
    (hn : ∀ {place target r r'}, Gives (nested place target) r () r' →
      Includes setup stack unit target r r') {file : Nat} :
    ∀ {lines : List (List Char)} {number : Nat} {k : Carry} {r r' : Run C} {u : Unit},
      Gives (processLines setup nested unit.origin file number k lines) r u r' →
      Processed setup stack unit file number k lines r r'
  | [], number, k, r, r', u, h => by
    obtain ⟨-, rfl⟩ := Gives.of_pure h
    exact .done
  | line :: rest, number, k, r, r', u, h => by
    obtain ⟨k', r₁, h₁, h₂⟩ := h.bind
    have hrest := processed_of_processLines hn h₂
    obtain ⟨d, hd, rfl, ⟨target, rfl, ht⟩ | ⟨name, args, rfl, hr⟩ | ⟨ps, hs, rfl⟩⟩ :=
      of_processLine h₁
    · obtain ⟨path, text, hp, hroom, hstack, htext, hin⟩ := hn ht
      exact .includeFile hd hp hroom hstack htext hin hrest
    · exact .request hd hr hrest
    · exact .written hd hs hrest

theorem processed_of_processText {nested : LineRef → String → Action (Run C) SourceError Unit}
    (hn : ∀ {place target r r'}, Gives (nested place target) r () r' →
      Includes setup stack unit target r r') {r r' : Run C} {u : Unit}
    (h : Gives (processText setup nested unit) r u r') :
    Processed setup stack unit r.files.size 1 {} (Text.splitLines unit.text.toList)
      (r.opened unit.origin) r' := by
  obtain ⟨file, r₁, h₁, h₂⟩ := h.bind
  obtain ⟨s, r₂, h₃, h₄⟩ := h₁.bind
  obtain ⟨rfl, rfl⟩ := Gives.of_get h₃
  obtain ⟨⟨⟩, r₃, h₅, h₆⟩ := h₄.bind
  obtain rfl := Gives.of_set h₅
  obtain ⟨rfl, rfl⟩ := Gives.of_pure h₆
  obtain ⟨⟨⟩, r₄, h₇, h₈⟩ := h₂.bind
  obtain rfl := Run.of_emit h₇
  have := processed_of_processLines hn h₈
  simpa [Run.opened, Run.add] using this

/-- Whatever is nested, there is room for it. -/
theorem processed_of_processUnit : ∀ {room : Nat} {stack : List FileIdentity} {unit : SourceUnit}
    {r r' : Run C} {u : Unit}, stack.length + room = setup.maxDepth + 1 →
      Gives (processUnit setup room stack unit) r u r' →
      Processed setup stack unit r.files.size 1 {} (Text.splitLines unit.text.toList)
        (r.opened unit.origin) r'
  | 0, stack, unit, r, r', u, hroom, h => by
    refine processed_of_processText ?_ h
    intro place target r r' h
    obtain ⟨path, r₁, h₁, h₂⟩ := h.bind
    exact (Gives.of_throw h₂).elim
  | room + 1, stack, unit, r, r', u, hroom, h => by
    refine processed_of_processText ?_ h
    intro place target r r' h
    obtain ⟨path, r₁, h₁, h₂⟩ := h.bind
    obtain ⟨hp, rfl⟩ := Run.of_orRefuse h₁
    obtain ⟨p, r₂, h₃, h₄⟩ := h₂.bind
    obtain ⟨text, hs, ht, rfl, rfl⟩ := of_openInclude h₃
    refine ⟨path, text, hp, by omega, hs, ht, ?_⟩
    exact processed_of_processUnit (by simp only [List.length_append, List.length_singleton]; omega) h₄

/-- A run that succeeds, from its first line to its end. -/
theorem processed_of_process {r r' : Run C} {s : ProcessedSource}
    (h : Gives (process setup unit) r s r') :
    Processed setup [setup.files.identity unit.origin] unit r.files.size 1 {}
      (Text.splitLines unit.text.toList) (r.opened unit.origin) r' ∧ s = r'.source := by
  obtain ⟨⟨⟩, r₁, h₁, h₂⟩ := h.bind
  obtain ⟨r₂, r₃, h₃, h₄⟩ := h₂.bind
  obtain ⟨rfl, rfl⟩ := Gives.of_get h₃
  obtain ⟨⟨⟩, r₄, h₅, h₆⟩ := h₄.bind
  obtain rfl := Gives.of_record h₅
  obtain ⟨rfl, rfl⟩ := Gives.of_pure h₆
  refine ⟨processed_of_processUnit ?_ h₁, rfl⟩
  simp only [List.length_singleton]
  omega

end Units
end AudioShader
