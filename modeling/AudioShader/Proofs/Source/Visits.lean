/-
# The lines that a run comes to

The lines of a unit and of all that it includes, depth first and in order, are
told by the files alone: what a line leaves for the next one does not depend on
the context. A run goes along these lines with a context. Each line that it
passes is one of three things: an include that opens a file, a request whose
handler is called with the context and changes it, or a line that is written as
the context tells. At the first line that cannot be passed the run stops.

Key definitions: `Visit`, `Setup.visits`, `Visit.Passes`, `Visit.Stops`, `Walk`.
Key theorems: `Walk.unique`, `Walk.stops`, `nest_of_mem_visits`.
-/
import AudioShader.Proofs.Source.Attribution
import AudioShader.Proofs.Source.Stack

namespace AudioShader

variable {C : Type}

/-- A line that a run comes to, with the unit it is in, the units that are open
around that one, the outermost first, and what the line before left. -/
structure Visit where
  around : List SourceUnit
  unit : SourceUnit
  number : Nat
  carry : Carry
  line : List Char

namespace Visit

/-- The open units, the outermost first. -/
def opened (v : Visit) : List SourceUnit := v.around ++ [v.unit]

def place (v : Visit) : LineRef := ⟨v.unit.origin, v.number⟩

def directive (v : Visit) : Except LineFault (Option Directive) := lineDirective v.carry v.line

/-- The target of the include that the line is. -/
def target? (v : Visit) : Option String :=
  match v.directive with
  | .ok (some (.includeFile target)) => some target
  | _ => none

/-- What the line leaves for the next one. -/
def after (v : Visit) : Carry :=
  match v.directive with
  | .ok d => v.carry.after d v.line
  | .error _ => v.carry

end Visit

namespace Setup

/-- The unit that an include stands for, if it may be opened behind the open ones. -/
def included? (setup : Setup C) (opened : List SourceUnit) (unit : SourceUnit) (target : String) :
    Option SourceUnit :=
  match unit.resolve target with
  | .error _ => none
  | .ok path =>
    if setup.maxDepth < opened.length ∨ setup.files.identity path ∈ opened.map setup.key then none
    else
      match setup.files.readText path with
      | .error _ => none
      | .ok text => some (unit.nested path text)

end Setup

/-- The lines of a unit from one on, an include with what it `opens` behind it. -/
def visitLines (opens : String → List Visit) (around : List SourceUnit) (unit : SourceUnit) :
    (number : Nat) → Carry → List (List Char) → List Visit
  | _, _, [] => []
  | number, k, line :: rest =>
    let v : Visit := ⟨around, unit, number, k, line⟩
    v :: ((v.target?.map opens).getD [] ++ visitLines opens around unit (number + 1) v.after rest)

namespace Setup

/-- The lines of a unit and of what it includes, nested at most `fuel` deep. -/
def visitsFrom (setup : Setup C) : (fuel : Nat) → (around : List SourceUnit) → SourceUnit → List Visit
  | 0, _, _ => []
  | fuel + 1, around, unit =>
    visitLines (fun target => ((setup.included? (around ++ [unit]) unit target).map
      (setup.visitsFrom fuel (around ++ [unit]))).getD []) around unit 1 {} unit.lines

/-- The lines of a unit and of all that it includes, depth first and in order. -/
def visits (setup : Setup C) (root : SourceUnit) : List Visit :=
  setup.visitsFrom (setup.maxDepth + 1) [] root

end Setup

/-! ### Lines that are passed, and lines that are not -/

/-- Why a line that would be written is refused, in a context. -/
inductive Balks [Substitutions C] (c : C) (k : Carry) (line : List Char) :
    Option Directive → LineFault → Prop
  | define {name fault} : scanDefine (Substitutions.bound? c) line = .error fault →
      Balks c k line (some (.define name)) fault
  | expand {name control} : Substitutions.count? c control = none →
      Balks c k line (some (.expand name control)) (.unknownExpansion control)
  | body {fault} : k.copies line = false →
      scan (Substitutions.bound? c) k.zone line = .error fault → Balks c k line none fault

/-- Why an include opens nothing. -/
inductive Barred (setup : Setup C) (v : Visit) (target : String) : SourceError → Prop
  | unresolved {fault} : v.unit.resolve target = .error fault →
      Barred setup v target (.refused v.place fault)
  | depth {path} : v.unit.resolve target = .ok path → setup.maxDepth < v.opened.length →
      Barred setup v target (.refused v.place (.includeDepth setup.maxDepth))
  | cycle {path} : v.unit.resolve target = .ok path → ¬setup.maxDepth < v.opened.length →
      setup.files.identity path ∈ v.opened.map setup.key →
      Barred setup v target (.refused v.place (.includeCycle path))
  | unreadable {path fault} : v.unit.resolve target = .ok path →
      ¬setup.maxDepth < v.opened.length → setup.files.identity path ∉ v.opened.map setup.key →
      setup.files.readText path = .error fault → Barred setup v target (.unreadable path fault)

/-- Why a request is turned down, with the call of its handler, if there was one,
and the context that it left. -/
inductive TurnedDown (requests : RequestTable C) (place : LineRef) (name : String)
    (tokens : List Token) (c : C) : SourceError → List Call → C → Prop
  | unknown : requests.get? name = none →
      TurnedDown requests place name tokens c (.refused place (.unknownRequest name)) [] c
  | arguments {request fault} : requests.get? name = some request →
      coerceArgs request.signature tokens = .error fault →
      TurnedDown requests place name tokens c (.refused place (.ofCoerce name fault)) [] c
  | rejected {request args reason c'} : requests.get? name = some request →
      coerceArgs request.signature tokens = .ok args →
      request.handler args c = (.error reason, c') →
      TurnedDown requests place name tokens c (.rejected place name reason) [⟨place, name, args⟩] c'

/-- The line is passed in a context: the handlers called, the pieces written and
the context behind it. -/
inductive Visit.Passes [Substitutions C] (setup : Setup C) (v : Visit) :
    C → List Call → List Piece → C → Prop
  | includeFile {c target included file} : v.directive = .ok (some (.includeFile target)) →
      setup.included? v.opened v.unit target = some included →
      Visit.Passes setup v c [] [.marker file 1] c
  | request {c c' name tokens request args} : v.directive = .ok (some (.request name tokens)) →
      setup.requests.get? name = some request → coerceArgs request.signature tokens = .ok args →
      request.handler args c = (.ok (), c') →
      Visit.Passes setup v c [⟨v.place, name, args⟩] [] c'
  | written {c d file ps} : v.directive = .ok d → Stands c v.carry file v.number v.line d ps →
      Visit.Passes setup v c [] (v.carry.lead d file v.number ++ ps) c

/-- The line is not passed in a context: the failure, the handler called, if
there was one, and the context that it left. -/
inductive Visit.Stops [Substitutions C] (setup : Setup C) (v : Visit) :
    C → SourceError → List Call → C → Prop
  | malformed {c fault} : v.directive = .error fault →
      Visit.Stops setup v c (.refused v.place fault) [] c
  | barred {c target e} : v.directive = .ok (some (.includeFile target)) →
      Barred setup v target e → Visit.Stops setup v c e [] c
  | turnedDown {c c' name tokens e calls} : v.directive = .ok (some (.request name tokens)) →
      TurnedDown setup.requests v.place name tokens c e calls c' → Visit.Stops setup v c e calls c'
  | balked {c d fault} : v.directive = .ok d → Balks c v.carry v.line d fault →
      Visit.Stops setup v c (.refused v.place fault) [] c

/-! ### There is one way only -/

theorem Barred.unique {setup : Setup C} {v : Visit} {target : String} {e e' : SourceError}
    (h : Barred setup v target e) (h' : Barred setup v target e') : e' = e := by
  cases h <;> cases h' <;> grind

theorem Barred.included?_eq_none {setup : Setup C} {v : Visit} {target : String} {e : SourceError}
    (h : Barred setup v target e) : setup.included? v.opened v.unit target = none := by
  cases h <;> simp_all [Setup.included?]

theorem TurnedDown.unique {requests : RequestTable C} {place : LineRef} {name : String}
    {tokens : List Token} {c c₁ c₂ : C} {e e' : SourceError} {calls calls' : List Call}
    (h : TurnedDown requests place name tokens c e calls c₁)
    (h' : TurnedDown requests place name tokens c e' calls' c₂) :
    e' = e ∧ calls' = calls ∧ c₂ = c₁ := by
  cases h <;> cases h' <;> grind

theorem Balks.unique [Substitutions C] {c : C} {k : Carry} {line : List Char} {d : Option Directive}
    {fault fault' : LineFault} (h : Balks c k line d fault) (h' : Balks c k line d fault') :
    fault' = fault := by
  cases h <;> cases h' <;> simp_all

theorem Balks.not_stands [Substitutions C] {c : C} {k : Carry} {line : List Char}
    {d : Option Directive} {fault : LineFault} (h : Balks c k line d fault) {file number : Nat}
    {ps : List Piece} : ¬Stands c k file number line d ps := by
  intro hs
  cases h <;> cases hs <;> simp_all

namespace Visit

variable [Substitutions C] {setup : Setup C} {v : Visit} {c c₁ c₂ : C} {calls calls' : List Call}
  {ps ps' : List Piece} {e e' : SourceError}

theorem Passes.unique (h : v.Passes setup c calls ps c₁) (h' : v.Passes setup c calls' ps' c₂) :
    calls' = calls ∧ c₂ = c₁ := by
  cases h with
  | includeFile hd hi =>
    cases h' with
    | includeFile => exact ⟨rfl, rfl⟩
    | request hd' => rw [hd] at hd'; cases hd'
    | written => exact ⟨rfl, rfl⟩
  | request hd hq ha hc =>
    cases h' with
    | includeFile hd' => rw [hd] at hd'; cases hd'
    | request hd' hq' ha' hc' => grind
    | written hd' hs =>
      rw [hd] at hd'
      cases hd'
      cases hs
  | written hd hs =>
    cases h' with
    | includeFile => exact ⟨rfl, rfl⟩
    | request hd' =>
      rw [hd] at hd'
      cases hd'
      cases hs
    | written => exact ⟨rfl, rfl⟩

theorem Stops.unique (h : v.Stops setup c e calls c₁) (h' : v.Stops setup c e' calls' c₂) :
    e' = e ∧ calls' = calls ∧ c₂ = c₁ := by
  cases h with
  | malformed hd => cases h' <;> simp_all
  | barred hd hb =>
    cases h' with
    | malformed hd' => rw [hd] at hd'; cases hd'
    | barred hd' hb' =>
      rw [hd] at hd'
      cases hd'
      exact ⟨hb.unique hb', rfl, rfl⟩
    | turnedDown hd' => rw [hd] at hd'; cases hd'
    | balked hd' hb' =>
      rw [hd] at hd'
      cases hd'
      cases hb'
  | turnedDown hd ht =>
    cases h' with
    | malformed hd' => rw [hd] at hd'; cases hd'
    | barred hd' => rw [hd] at hd'; cases hd'
    | turnedDown hd' ht' =>
      rw [hd] at hd'
      cases hd'
      exact ht.unique ht'
    | balked hd' hb' =>
      rw [hd] at hd'
      cases hd'
      cases hb'
  | balked hd hb =>
    cases h' with
    | malformed hd' => rw [hd] at hd'; cases hd'
    | barred hd' =>
      rw [hd] at hd'
      cases hd'
      cases hb
    | turnedDown hd' =>
      rw [hd] at hd'
      cases hd'
      cases hb
    | balked hd' hb' =>
      rw [hd] at hd'
      cases hd'
      rw [hb.unique hb']
      exact ⟨rfl, rfl, rfl⟩

theorem Passes.not_stops (h : v.Passes setup c calls ps c₁) : ¬v.Stops setup c e calls' c₂ := by
  intro h'
  cases h' with
  | malformed hd => cases h <;> simp_all
  | barred hd hb =>
    cases h with
    | includeFile hd' hi =>
      rw [hd] at hd'
      cases hd'
      rw [hb.included?_eq_none] at hi
      cases hi
    | request hd' => rw [hd] at hd'; cases hd'
    | written hd' hs =>
      rw [hd] at hd'
      cases hd'
      cases hs
  | turnedDown hd ht =>
    cases h with
    | includeFile hd' => rw [hd] at hd'; cases hd'
    | request hd' hq ha hc =>
      rw [hd] at hd'
      cases hd'
      cases ht <;> grind
    | written hd' hs =>
      rw [hd] at hd'
      cases hd'
      cases hs
  | balked hd hb =>
    cases h with
    | includeFile hd' =>
      rw [hd] at hd'
      cases hd'
      cases hb
    | request hd' =>
      rw [hd] at hd'
      cases hd'
      cases hb
    | written hd' hs =>
      rw [hd] at hd'
      cases hd'
      exact hb.not_stands hs

end Visit

/-! ### Walks -/

/-- Along lines, from one context to another: the handlers called, the pieces
written and how it ends. The first line that is not passed is the last one. -/
inductive Walk [Substitutions C] (setup : Setup C) :
    C → List Visit → List Call → List Piece → Except SourceError Unit → C → Prop
  | done {c} : Walk setup c [] [] [] (.ok ()) c
  | pass {c c₁ c' v vs calls calls' ps ps' out} : v.Passes setup c calls ps c₁ →
      Walk setup c₁ vs calls' ps' out c' → Walk setup c (v :: vs) (calls ++ calls') (ps ++ ps') out c'
  | stop {c c' v vs e calls} : v.Stops setup c e calls c' →
      Walk setup c (v :: vs) calls [] (.error e) c'

namespace Walk

variable [Substitutions C] {setup : Setup C} {c c₁ c' : C} {vs ws : List Visit}
  {calls calls' : List Call} {ps ps' : List Piece} {out : Except SourceError Unit}

/-- On from where lines were passed. -/
theorem append (h : Walk setup c vs calls ps (.ok ()) c₁) (h' : Walk setup c₁ ws calls' ps' out c') :
    Walk setup c (vs ++ ws) (calls ++ calls') (ps ++ ps') out c' := by
  generalize ho : (.ok () : Except SourceError Unit) = o at h
  induction h with
  | done => exact h'
  | pass hpass _ ih =>
    rw [List.cons_append, List.append_assoc, List.append_assoc]
    exact .pass hpass (ih h' ho)
  | stop => cases ho

/-- A walk along two parts fails in the first one, or passes it and goes on along the
second one. -/
theorem split (h : Walk setup c (vs ++ ws) calls ps out c') :
    (∃ e, out = .error e ∧ Walk setup c vs calls ps (.error e) c') ∨
      ∃ calls₁ ps₁ c₁ calls₂ ps₂, calls = calls₁ ++ calls₂ ∧ ps = ps₁ ++ ps₂ ∧
        Walk setup c vs calls₁ ps₁ (.ok ()) c₁ ∧ Walk setup c₁ ws calls₂ ps₂ out c' := by
  induction vs generalizing c calls ps with
  | nil => exact .inr ⟨[], [], c, calls, ps, rfl, rfl, .done, h⟩
  | cons v vs ih =>
    cases h with
    | pass hpass hrest =>
      rcases ih hrest with ⟨e, hout, hfail⟩ | ⟨calls₁, ps₁, c₁, calls₂, ps₂, rfl, rfl, hvs, hws⟩
      · exact .inl ⟨e, hout, .pass hpass hfail⟩
      · exact .inr ⟨_, _, c₁, calls₂, ps₂, (List.append_assoc ..).symm, (List.append_assoc ..).symm,
          .pass hpass hvs, hws⟩
    | stop hstop => exact .inl ⟨_, rfl, .stop hstop⟩

/-- Lines that are passed are passed one part after the other. -/
theorem of_append (h : Walk setup c (vs ++ ws) calls ps (.ok ()) c') :
    ∃ calls₁ ps₁ c₁ calls₂ ps₂, Walk setup c vs calls₁ ps₁ (.ok ()) c₁ ∧
      Walk setup c₁ ws calls₂ ps₂ (.ok ()) c' := by
  rcases h.split with ⟨e, hout, -⟩ | ⟨calls₁, ps₁, c₁, calls₂, ps₂, -, -, hvs, hws⟩
  · cases hout
  · exact ⟨calls₁, ps₁, c₁, calls₂, ps₂, hvs, hws⟩

/-- Behind a line that is not passed no line counts. -/
theorem append_error {e : SourceError} (h : Walk setup c vs calls ps (.error e) c') :
    Walk setup c (vs ++ ws) calls ps (.error e) c' := by
  generalize ho : (.error e : Except SourceError Unit) = o at h
  induction h with
  | done => cases ho
  | pass hpass _ ih => exact .pass hpass (ih ho)
  | stop hstop => exact .stop hstop

/-- Where a walk fails lines were passed in front of one that was not. -/
theorem stops {e : SourceError} (h : Walk setup c vs calls ps (.error e) c') :
    ∃ passed v more calls₁ ps₁ c₁ last, vs = passed ++ v :: more ∧
      Walk setup c passed calls₁ ps₁ (.ok ()) c₁ ∧ v.Stops setup c₁ e last c' ∧
      calls = calls₁ ++ last := by
  generalize ho : (.error e : Except SourceError Unit) = o at h
  induction h with
  | done => cases ho
  | pass hpass _ ih =>
    obtain ⟨passed, v, more, calls₁, ps₁, c₁, last, rfl, hwalk, hstop, rfl⟩ := ih ho
    exact ⟨_ :: passed, v, more, _, _, c₁, last, rfl, .pass hpass hwalk, hstop,
      (List.append_assoc ..).symm⟩
  | @stop c c' v vs e' calls hstop =>
    cases ho
    exact ⟨[], v, vs, [], [], c, calls, rfl, .done, hstop, rfl⟩

/-- There is one walk along lines from a context. -/
theorem unique {out' : Except SourceError Unit} {c₂ : C} (h : Walk setup c vs calls ps out c₁)
    (h' : Walk setup c vs calls' ps' out' c₂) : calls' = calls ∧ out' = out ∧ c₂ = c₁ := by
  induction h generalizing calls' ps' with
  | done =>
    cases h'
    exact ⟨rfl, rfl, rfl⟩
  | pass hpass _ ih =>
    cases h' with
    | pass hpass' hrest' =>
      obtain ⟨rfl, rfl⟩ := hpass.unique hpass'
      obtain ⟨rfl, rfl, rfl⟩ := ih hrest'
      exact ⟨rfl, rfl, rfl⟩
    | stop hstop => exact absurd hstop hpass.not_stops
  | stop hstop =>
    cases h' with
    | pass hpass => exact absurd hstop hpass.not_stops
    | stop hstop' =>
      obtain ⟨rfl, rfl, rfl⟩ := hstop.unique hstop'
      exact ⟨rfl, rfl, rfl⟩

/-- What is called along the first of the lines is called first. -/
theorem calls_prefix {out' : Except SourceError Unit} (h : Walk setup c vs calls' ps' out' c₁)
    (h' : Walk setup c (vs ++ ws) calls ps out c') : calls' <+: calls := by
  rcases h'.split with ⟨e, -, hfail⟩ | ⟨calls₁, ps₁, c₂, calls₂, ps₂, rfl, -, hpassed, -⟩
  · obtain ⟨rfl, -, -⟩ := h.unique hfail
    exact List.prefix_refl _
  · obtain ⟨rfl, -, -⟩ := h.unique hpassed
    exact List.prefix_append ..

end Walk

/-! ### Open units -/

/-- A line of a unit, or one of what a line of the unit includes. -/
theorem mem_visitLines {opens : String → List Visit} {around : List SourceUnit} {unit : SourceUnit}
    {v : Visit} : ∀ {lines : List (List Char)} {number : Nat} {k : Carry},
      v ∈ visitLines opens around unit number k lines →
      v.around = around ∧ v.unit = unit ∨ ∃ target, v ∈ opens target
  | [], _, _, h => by cases h
  | line :: rest, number, k, h => by
    rw [visitLines, List.mem_cons, List.mem_append] at h
    rcases h with rfl | h | h
    · exact .inl ⟨rfl, rfl⟩
    · cases ht : Visit.target? ⟨around, unit, number, k, line⟩ with
      | none =>
        rw [ht] at h
        cases h
      | some target =>
        rw [ht] at h
        exact .inr ⟨target, h⟩
    · exact mem_visitLines h

/-- What an include opens is no open file, and there is room for it. -/
theorem Setup.of_included? {setup : Setup C} {opened : List SourceUnit} {unit u : SourceUnit}
    {target : String} (h : setup.included? opened unit target = some u) :
    setup.key u ∉ opened.map setup.key ∧ opened.length ≤ setup.maxDepth ∧
      ∃ path text, unit.resolve target = .ok path ∧ setup.files.readText path = .ok text ∧
        u = unit.nested path text := by
  unfold Setup.included? at h
  split at h
  · cases h
  · next path hp =>
    split at h
    · cases h
    · next hopen =>
      rw [not_or, Nat.not_lt] at hopen
      split at h
      · cases h
      · next text ht =>
        cases h
        exact ⟨hopen.2, hopen.1, path, text, hp, ht, rfl⟩

theorem nest_of_mem_visitsFrom {setup : Setup C} {root : SourceUnit} {v : Visit} :
    ∀ {fuel : Nat} {around : List SourceUnit} {unit : SourceUnit},
      Nest setup root (around ++ [unit]) → v ∈ setup.visitsFrom fuel around unit →
      Nest setup root v.opened
  | 0, _, _, _, h => by cases h
  | fuel + 1, around, unit, hnest, h => by
    rcases mem_visitLines h with ⟨rfl, rfl⟩ | ⟨target, h⟩
    · exact hnest
    · cases hu : setup.included? (around ++ [unit]) unit target with
      | none =>
        rw [hu] at h
        cases h
      | some u =>
        rw [hu] at h
        obtain ⟨hnew, hroom, -⟩ := Setup.of_included? hu
        exact nest_of_mem_visitsFrom (hnest.concat hnew hroom) h

/-- At every line no file is open twice, and no more than the deepest nesting allows. -/
theorem nest_of_mem_visits {setup : Setup C} {root : SourceUnit} {v : Visit}
    (h : v ∈ setup.visits root) : Nest setup root v.opened :=
  nest_of_mem_visitsFrom (Nest.start setup root) h

end AudioShader
