/-
# The stack of open files

Processing a unit gets the open files as a list and tells how many more levels
may be nested. The same work can be done with one stack that an include pushes
its file on and that is popped when the included unit has ended, however it
ends: at every call the stack holds the files of the units that are open, the
outermost first and none of them twice, and behind the call it is what it was.

Key definitions: `Nest`, `Tracked`, `Entry`, `includeOnStack`, `processOnStack`.
Key theorems: `processText_matches`, `processOnStack_matches`.
-/
import Mathlib.Data.List.Nodup
import AudioShader.Proofs.Matching
import AudioShader.Source.Process

namespace AudioShader

open AudioShader.Action (Matches)

variable {C D : Type}

/-! ### Open units -/

/-- What identifies the file of a unit. -/
def Setup.key (setup : Setup C) (u : SourceUnit) : FileIdentity := setup.files.identity u.origin

/-- The units that are open at a time, the outermost first: no file is open
twice, and no more than the deepest nesting allows. -/
structure Nest (setup : Setup C) (root : SourceUnit) (opened : List SourceUnit) : Prop where
  root : opened.head? = some root
  nodup : (opened.map setup.key).Nodup
  length : opened.length ≤ setup.maxDepth + 1

namespace Nest

variable {setup : Setup C} {root : SourceUnit} {opened : List SourceUnit}

theorem start (setup : Setup C) (root : SourceUnit) : Nest setup root [root] where
  root := rfl
  nodup := List.nodup_singleton _
  length := Nat.le_add_left 1 setup.maxDepth

/-- A file that is not open is opened. -/
theorem concat (h : Nest setup root opened) {u : SourceUnit}
    (hnew : setup.key u ∉ opened.map setup.key) (hroom : opened.length ≤ setup.maxDepth) :
    Nest setup root (opened ++ [u]) where
  root := by
    rw [List.head?_append, h.root]
    rfl
  nodup := by
    rw [List.map_append, List.map_singleton]
    exact h.nodup.append (List.nodup_singleton _) (List.disjoint_singleton.2 hnew)
  length := by
    rw [List.length_append, List.length_singleton]
    omega

end Nest

/-! ### Runs that are alike -/

/-- Two runs that have come equally far, in contexts that `like` relates. -/
structure Run.Alike (like : C → D → Prop) (r : Run C) (t : Run D) : Prop where
  context : like r.context t.context
  files : t.files = r.files
  pieces : t.pieces = r.pieces
  calls : t.calls = r.calls

/-- Related contexts stand for the same texts and numbers, and the requests of
two tables do the same with them. -/
structure Likens [Substitutions C] [Substitutions D] (requests : RequestTable C)
    (requests' : RequestTable D) (like : C → D → Prop) : Prop where
  count : ∀ c d, like c d → Substitutions.count? d = Substitutions.count? c
  bound : ∀ c d, like c d → Substitutions.bound? d = Substitutions.bound? c
  absent : ∀ name, requests.get? name = none → requests'.get? name = none
  present : ∀ name q, requests.get? name = some q → ∃ q', requests'.get? name = some q' ∧
    q'.signature = q.signature ∧ ∀ args c d, like c d →
      (q'.handler args d).1 = (q.handler args c).1 ∧ like (q.handler args c).2 (q'.handler args d).2

namespace Run

variable {excused : SourceError → Prop} {like : C → D → Prop}

theorem matches_orRefuse {α : Type} (place : LineRef) (e : Except LineFault α) :
    Matches excused (Alike like) (orRefuse place e) (orRefuse place e) := by
  cases e with
  | ok x => exact Matches.pure x
  | error fault => exact Matches.throw _

theorem matches_emit (p : Piece) : Matches excused (Alike like) (emit p) (emit p) :=
  Matches.modify fun _ _ h => ⟨h.context, h.files, by rw [h.pieces], h.calls⟩

theorem matches_emit_or_skip {α : Type} {b : Bool} {p : Piece}
    {f : Unit → Action (Run C) SourceError α} {g : Unit → Action (Run D) SourceError α}
    (h : Matches excused (Alike like) (f ()) (g ())) :
    Matches excused (Alike like) (if b = true then emit p >>= f else f ())
      (if b = true then emit p >>= g else g ()) := by
  cases b with
  | true => exact (matches_emit p).bind fun _ => h
  | false => exact h

theorem matches_openFile (path : Path) :
    Matches excused (Alike like) (openFile path) (openFile path) := by
  refine Matches.get_bind fun r t h => ?_
  rw [h.files]
  exact (Matches.set ⟨h.context, rfl, h.pieces, h.calls⟩).bind fun _ => Matches.pure _

end Run

section Alike

variable [Substitutions C] [Substitutions D] {setup : Setup C} {setup' : Setup D}
  {like : C → D → Prop} {excused : SourceError → Prop}
  (hlike : Likens setup.requests setup'.requests like)

include hlike

theorem dispatch_matches (place : LineRef) (name : String) (tokens : List Token) :
    Matches excused (Run.Alike like) (dispatch setup.requests place name tokens)
      (dispatch setup'.requests place name tokens) := by
  unfold dispatch
  cases hq : setup.requests.get? name with
  | none =>
    rw [hlike.absent name hq]
    exact Matches.throw _
  | some q =>
    obtain ⟨q', hq', hsig, hcall⟩ := hlike.present name q hq
    rw [hq']
    dsimp only
    rw [hsig]
    cases ha : coerceArgs q.signature tokens with
    | error fault => exact Matches.throw _
    | ok args =>
      refine (Matches.record _).bind fun _ => Matches.get_bind fun r t h => ?_
      obtain ⟨hsame, hafter⟩ := hcall args r.context t.context h.context
      rcases hr : q.handler args r.context with ⟨outcome, c⟩
      rcases ht : q'.handler args t.context with ⟨outcome', d⟩
      rw [hr, ht] at hsame hafter
      obtain rfl : outcome' = outcome := hsame
      have hset : Run.Alike like { r with context := c, calls := r.calls.push ⟨place, name, args⟩ }
          { t with context := d, calls := t.calls.push ⟨place, name, args⟩ } :=
        ⟨hafter, h.files, h.pieces, by rw [h.calls]⟩
      refine (Matches.set hset).bind fun _ => ?_
      cases outcome' with
      | ok v => exact Matches.pure _
      | error reason => exact Matches.throw _

variable {nested : LineRef → String → Action (Run C) SourceError Unit}
  {nested' : LineRef → String → Action (Run D) SourceError Unit}
  (hn : ∀ place target, Matches excused (Run.Alike like) (nested place target) (nested' place target))

include hn

theorem processLine_matches (file : Nat) (place : LineRef) (k : Carry) (line : List Char) :
    Matches excused (Run.Alike like) (processLine setup nested file place k line)
      (processLine setup' nested' file place k line) := by
  unfold processLine
  refine (Run.matches_orRefuse place _).bind fun d => ?_
  refine Run.matches_emit_or_skip ?_
  cases d with
  | none =>
    dsimp only
    split
    · exact (Run.matches_emit _).bind fun _ => Matches.pure _
    · refine Matches.get_bind fun r t h => ?_
      rw [hlike.bound _ _ h.context]
      refine (Run.matches_orRefuse place _).bind fun p => ?_
      exact (Run.matches_emit _).bind fun _ => Matches.pure _
  | some d =>
    cases d with
    | includeFile target => exact (hn place target).bind fun _ => Matches.pure _
    | request name args =>
      exact (dispatch_matches hlike place name args).bind fun _ => Matches.pure _
    | define name =>
      refine (Run.matches_emit _).bind fun _ => (Run.matches_emit _).bind fun _ => ?_
      refine Matches.get_bind fun r t h => ?_
      rw [hlike.bound _ _ h.context]
      refine (Run.matches_orRefuse place _).bind fun p => ?_
      exact (Run.matches_emit _).bind fun _ => Matches.pure _
    | expand name control =>
      refine Matches.get_bind fun r t h => ?_
      rw [hlike.count _ _ h.context]
      split
      · exact Matches.throw _
      · exact (Run.matches_emit _).bind fun _ => Matches.pure _

theorem processLines_matches (origin : Path) (file : Nat) :
    ∀ (lines : List (List Char)) (number : Nat) (k : Carry),
      Matches excused (Run.Alike like) (processLines setup nested origin file number k lines)
        (processLines setup' nested' origin file number k lines)
  | [], _, _ => Matches.pure ()
  | line :: rest, number, k =>
    (processLine_matches hlike hn file ⟨origin, number⟩ k line).bind fun k' =>
      processLines_matches origin file rest (number + 1) k'

/-- The text of a unit is processed alike if its includes are. -/
theorem processText_matches (unit : SourceUnit) :
    Matches excused (Run.Alike like) (processText setup nested unit)
      (processText setup' nested' unit) := by
  unfold processText
  refine (Run.matches_openFile unit.origin).bind fun file => ?_
  refine (Run.matches_emit (.marker file 1)).bind fun _ => ?_
  exact processLines_matches hlike hn unit.origin file _ 1 {}

end Alike

/-! ### One stack -/

/-- The open units, the outermost first, and the stack: where a unit is called,
or where the call of an included one has ended. -/
structure Entry where
  opened : List SourceUnit
  stack : List FileIdentity

/-- A context beside the stack of open files, with the calls of units so far and
the ends of those that includes made. -/
structure Tracked (C : Type) where
  context : C
  stack : List FileIdentity
  calls : List Entry := []
  returns : List Entry := []

instance [Substitutions C] : Substitutions (Tracked C) where
  count? t := Substitutions.count? t.context
  bound? t := Substitutions.bound? t.context

namespace Tracked

def push (key : FileIdentity) (t : Tracked C) : Tracked C := { t with stack := t.stack ++ [key] }

/-- Back in the last of the open units. -/
def pop (opened : List SourceUnit) (t : Tracked C) : Tracked C :=
  { t with stack := t.stack.dropLast, returns := t.returns ++ [⟨opened, t.stack.dropLast⟩] }

/-- The last of the open units is called. -/
def enter (opened : List SourceUnit) (t : Tracked C) : Tracked C :=
  { t with calls := t.calls ++ [⟨opened, t.stack⟩] }

end Tracked

/-- A request that works on the context beside a stack. -/
def Request.tracked (q : Request C) : Request (Tracked C) where
  name := q.name
  signature := q.signature
  handler args t :=
    match q.handler args t.context with
    | (outcome, c) => (outcome, { t with context := c })

def Setup.tracked (setup : Setup C) : Setup (Tracked C) where
  files := setup.files
  requests := ⟨setup.requests.entries.map Request.tracked⟩
  maxDepth := setup.maxDepth

/-- Changes what stands beside the context. -/
def Run.track (f : Tracked C → Tracked C) (r : Run (Tracked C)) : Run (Tracked C) :=
  { r with context := f r.context }

/-- The stack holds the open files, in their order. -/
structure Entry.Sound (setup : Setup C) (root : SourceUnit) (e : Entry) : Prop where
  stack : e.stack = e.opened.map setup.key
  nest : Nest setup root e.opened

/-- The context is the same, and beside it the stack stands as it did. -/
structure Tracked.Holds (setup : Setup C) (root : SourceUnit) (stack : List FileIdentity) (c : C)
    (t : Tracked C) : Prop where
  context : t.context = c
  stack : t.stack = stack
  calls : ∀ e ∈ t.calls, e.Sound setup root
  returns : ∀ e ∈ t.returns, e.Sound setup root

section Holds

variable {setup : Setup C} {root : SourceUnit} {stack stack' : List FileIdentity} {c : C}
  {t : Tracked C}

/-- An include makes what the included unit finds. -/
theorem Entry.Sound.nested {opened : List SourceUnit} (h : Entry.Sound setup root ⟨opened, stack⟩)
    {u : SourceUnit} (hnew : setup.key u ∉ stack) (hroom : stack.length ≤ setup.maxDepth) :
    Entry.Sound setup root ⟨opened ++ [u], stack ++ [setup.key u]⟩ where
  stack := by
    have hstack : stack = opened.map setup.key := h.stack
    rw [hstack, List.map_append, List.map_singleton]
  nest := by
    have hstack : stack = opened.map setup.key := h.stack
    rw [hstack] at hnew hroom
    rw [List.length_map] at hroom
    exact h.nest.concat hnew hroom

theorem Tracked.Holds.push (key : FileIdentity) (h : Tracked.Holds setup root stack c t) :
    Tracked.Holds setup root (stack ++ [key]) c (t.push key) :=
  ⟨h.context, by rw [Tracked.push, h.stack], h.calls, h.returns⟩

variable {opened : List SourceUnit} (hsound : Entry.Sound setup root ⟨opened, stack⟩)

include hsound

theorem Tracked.Holds.pop {key : FileIdentity} (h : Tracked.Holds setup root (stack ++ [key]) c t) :
    Tracked.Holds setup root stack c (t.pop opened) := by
  have hstack : t.stack.dropLast = stack := by rw [h.stack, List.dropLast_concat]
  refine ⟨h.context, hstack, h.calls, fun e he => ?_⟩
  rw [Tracked.pop, hstack] at he
  rcases List.mem_append.1 he with he | he
  · exact h.returns e he
  · rw [List.mem_singleton.1 he]
    exact hsound

theorem Tracked.Holds.enter (h : Tracked.Holds setup root stack c t) :
    Tracked.Holds setup root stack c (t.enter opened) := by
  refine ⟨h.context, h.stack, fun e he => ?_, h.returns⟩
  rw [Tracked.enter, h.stack] at he
  rcases List.mem_append.1 he with he | he
  · exact h.calls e he
  · rw [List.mem_singleton.1 he]
    exact hsound

omit hsound

theorem Run.Alike.track {f : Tracked C → Tracked C}
    (hf : ∀ c t, Tracked.Holds setup root stack c t → Tracked.Holds setup root stack' c (f t)) {r : Run C}
    {t : Run (Tracked C)} (h : Run.Alike (Tracked.Holds setup root stack) r t) :
    Run.Alike (Tracked.Holds setup root stack') r (t.track f) :=
  ⟨hf _ _ h.context, h.files, h.pieces, h.calls⟩

end Holds

/-! ### Units and includes on one stack -/

section Stack

variable [Substitutions C]

/-- An include: the file goes on the stack and is taken from it again, whether
the included unit succeeds or fails. -/
def includeOnStack (setup : Setup C)
    (call : SourceUnit → Action (Run (Tracked C)) SourceError Unit) (opened : List SourceUnit)
    (unit : SourceUnit) (place : LineRef) (target : String) :
    Action (Run (Tracked C)) SourceError Unit := do
  let path ← Run.orRefuse place (unit.resolve target)
  let stack := (← get).context.stack
  if setup.maxDepth < stack.length then Run.refuse place (.includeDepth setup.maxDepth)
  else
    let key := setup.files.identity path
    if stack.contains key then Run.refuse place (.includeCycle path)
    else
      match setup.files.readText path with
      | .error fault => throw (.unreadable path fault)
      | .ok text =>
        Action.record (.debug "including source"
          [("from", place.file.text), ("line", toString place.line), ("path", path.text)])
        modify (Run.track (.push key))
        Action.afterwards (Run.track (.pop opened)) (call (unit.nested path text))

/-- Processes a unit and what it includes, with the units around it, the
outermost first. Calls are nested at most `fuel` deep; what is nested deeper is
left to `dead`. -/
def processOnStack (setup : Setup C) (dead : Action (Run (Tracked C)) SourceError Unit) :
    (fuel : Nat) → (around : List SourceUnit) → SourceUnit →
      Action (Run (Tracked C)) SourceError Unit
  | 0, _, _ => dead
  | fuel + 1, around, unit => do
    modify (Run.track (.enter (around ++ [unit])))
    processText setup.tracked (includeOnStack setup
      (processOnStack setup dead fuel (around ++ [unit])) (around ++ [unit]) unit) unit

variable {setup : Setup C} {root : SourceUnit}

theorem likens_tracked (setup : Setup C) (root : SourceUnit) (stack : List FileIdentity) :
    Likens setup.requests setup.tracked.requests (Tracked.Holds setup root stack) := by
  have hget : ∀ name, setup.tracked.requests.get? name =
      (setup.requests.get? name).map Request.tracked := by
    intro name
    simp only [RequestTable.get?, Setup.tracked, List.find?_map]
    rfl
  refine ⟨?_, ?_, ?_, ?_⟩
  · rintro c t ⟨rfl, -, -, -⟩
    rfl
  · rintro c t ⟨rfl, -, -, -⟩
    rfl
  · intro name hq
    rw [hget, hq]
    rfl
  · intro name q hq
    refine ⟨q.tracked, by rw [hget, hq]; rfl, rfl, ?_⟩
    rintro args c t ⟨rfl, hstack, hcalls, hreturns⟩
    exact ⟨rfl, rfl, hstack, hcalls, hreturns⟩

/-- A unit is processed on one stack as it is with a list of open files: with
the same outcome and the same events, and the stack stands as it did. -/
theorem processOnStack_matches (d : Action (Run (Tracked C)) SourceError Unit) :
    ∀ {room fuel : Nat} {around : List SourceUnit} {unit : SourceUnit} {stack : List FileIdentity},
      room < fuel → stack.length + room = setup.maxDepth + 1 →
      Entry.Sound setup root ⟨around ++ [unit], stack⟩ →
      Matches (fun _ => False) (Run.Alike (Tracked.Holds setup root stack))
        (processUnit setup room stack unit) (processOnStack setup d fuel around unit)
  | room, 0, _, _, _, hfuel, _, _ => absurd hfuel (Nat.not_lt_zero room)
  | 0, fuel + 1, around, unit, stack, hfuel, hroom, hsound => by
    unfold processUnit processOnStack
    refine Matches.modify_right ?_ fun r t h => h.track fun c t => Tracked.Holds.enter hsound
    refine processText_matches (likens_tracked setup root stack) (fun place target => ?_) unit
    unfold includeOnStack
    refine (Run.matches_orRefuse place _).bind fun path => Matches.get_right fun r t h => ?_
    have hdeep : setup.maxDepth < t.context.stack.length := by
      rw [h.context.stack]
      omega
    rw [if_pos hdeep]
    exact Matches.throw _
  | room + 1, fuel + 1, around, unit, stack, hfuel, hroom, hsound => by
    unfold processUnit processOnStack
    refine Matches.modify_right ?_ fun r t h => h.track fun c t => Tracked.Holds.enter hsound
    refine processText_matches (likens_tracked setup root stack) (fun place target => ?_) unit
    unfold includeOnStack
    refine (Run.matches_orRefuse place _).bind fun path => Matches.get_right fun r t h => ?_
    have hshallow : ¬setup.maxDepth < t.context.stack.length := by
      rw [h.context.stack]
      omega
    rw [if_neg hshallow, h.context.stack]
    unfold openInclude
    dsimp only
    by_cases hin : stack.contains (setup.files.identity path) = true
    · rw [if_pos hin, if_pos hin]
      exact Matches.throw _
    · rw [if_neg hin, if_neg hin]
      cases ht : setup.files.readText path with
      | error fault => exact Matches.throw _
      | ok text =>
        have hnew : setup.files.identity path ∉ stack := by simpa using hin
        have hnested : Entry.Sound setup root ⟨(around ++ [unit]) ++ [unit.nested path text],
            stack ++ [setup.files.identity path]⟩ := hsound.nested hnew (by omega)
        have hlength : (stack ++ [setup.files.identity path]).length + room = setup.maxDepth + 1 := by
          rw [List.length_append, List.length_singleton]
          omega
        have hcall := processOnStack_matches d (Nat.lt_of_succ_lt_succ hfuel) hlength
          hnested
        change Matches _ _ (Action.record _ >>= fun _ => processUnit setup room _ _) _
        refine (Matches.record _).bind fun _ => ?_
        exact hcall.bracket (fun r t h => h.track fun c t => Tracked.Holds.push _)
          fun r t h => h.track fun c t => Tracked.Holds.pop hsound

end Stack

end AudioShader
