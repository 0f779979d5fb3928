/-
# How deep includes are nested

The files that are open at a time are told by one stack, which stands behind an
include as it stood in front of it. An include is refused as too deep just if as
many units as may be are nested already, and else as going round just if the
file that its target leads to is open; a file that was included before and is
closed again does not count. More depth changes nothing for a run that is not
refused for it.

Key definitions: `LineFault.isNesting`, `Setup.Meets`.
Key theorems: `processUnit_deeper`, `fails_depth_iff`, `fails_cycle_iff`,
`nesting_of_process`.
-/
import AudioShader.Proofs.Source.Walk

namespace AudioShader

open AudioShader.Action (Gives Fails Matches)

variable {C : Type}

/-! ### Which lines are refused for their nesting -/

/-- The fault is that includes are nested too deep, or go round. -/
def LineFault.isNesting : LineFault → Bool
  | .includeCycle _ => true
  | .includeDepth _ => true
  | _ => false

theorem prepend_eq_error {ε α : Type} {lead : List Char} {fault : ε} {r : Except ε (List Char × α)} :
    prepend lead r = .error fault ↔ r = .error fault := by
  cases r <;> simp [prepend, Except.map]

theorem isNesting_of_scan {bound : String → Option String} {fault : LineFault} :
    ∀ {zone : Zone} {cs : List Char}, scan bound zone cs = .error fault → fault.isNesting = false := by
  intro zone cs h
  rw [scan_look] at h
  match hl : look zone cs with
  | .finish =>
    rw [hl] at h
    cases h
  | .copy lead zone' rest =>
    have := look_copy_length hl
    rw [hl] at h
    exact isNesting_of_scan (prepend_eq_error.1 h)
  | .color color rest =>
    have := look_color_length hl
    rw [hl] at h
    exact isNesting_of_scan (prepend_eq_error.1 h)
  | .badColor fault' =>
    rw [hl] at h
    cases h
    rfl
  | .bind b =>
    obtain ⟨hrest, hfallback⟩ := look_bind_length hl
    simp only [hl] at h
    rcases ht : bindText bound b with fault' | text
    · rw [ht] at h
      cases h
      unfold bindText at ht
      split at ht
      · cases ht
      · cases ht
        rfl
      · next text _ hf =>
        have := hfallback text hf
        rcases hs : scan bound .code text with fault'' | p
        · rw [hs] at ht
          cases ht
          exact isNesting_of_scan hs
        · rw [hs] at ht
          cases ht
    · rw [ht] at h
      exact isNesting_of_scan (prepend_eq_error.1 h)
termination_by _ cs => cs.length

theorem isNesting_of_scanDefine {bound : String → Option String} {line : List Char}
    {fault : LineFault} (h : scanDefine bound line = .error fault) : fault.isNesting = false := by
  unfold scanDefine at h
  split at h
  · exact isNesting_of_scan (prepend_eq_error.1 h)
  · exact isNesting_of_scan h

theorem isNesting_of_lineDirective {k : Carry} {line : List Char} {fault : LineFault}
    (h : lineDirective k line = .error fault) : fault.isNesting = false := by
  have hmalformed : ∃ keyword reason, fault = .malformed keyword reason := by
    unfold lineDirective readDirective at h
    grind
  obtain ⟨keyword, reason, rfl⟩ := hmalformed
  rfl

theorem isNesting_of_resolve {u : SourceUnit} {target : String} {fault : LineFault}
    (h : u.resolve target = .error fault) : fault.isNesting = false := by
  unfold SourceUnit.resolve at h
  split at h
  · split at h <;> cases h
    rfl
  · split at h <;> cases h
    rfl
  · cases h

theorem isNesting_ofCoerce (name : String) (fault : CoerceFault) :
    (LineFault.ofCoerce name fault).isNesting = false := by
  cases fault <;> rfl

theorem Balks.isNesting [Substitutions C] {c : C} {k : Carry} {line : List Char}
    {d : Option Directive} {fault : LineFault} (h : Balks c k line d fault) :
    fault.isNesting = false := by
  cases h with
  | define h => exact isNesting_of_scanDefine h
  | expand => rfl
  | body _ h => exact isNesting_of_scan h

theorem TurnedDown.isNesting {requests : RequestTable C} {place place' : LineRef} {name : String}
    {tokens : List Token} {c c' : C} {fault : LineFault} {calls : List Call}
    (h : TurnedDown requests place name tokens c (.refused place' fault) calls c') :
    fault.isNesting = false := by
  cases h with
  | unknown => rfl
  | arguments => exact isNesting_ofCoerce ..

/-- Only an include is refused for its nesting. -/
theorem Visit.Stops.barred_of_isNesting [Substitutions C] {setup : Setup C} {v : Visit} {c c' : C}
    {place : LineRef} {fault : LineFault} {calls : List Call}
    (h : v.Stops setup c (.refused place fault) calls c') (hf : fault.isNesting = true) :
    ∃ target, v.directive = .ok (some (.includeFile target)) ∧
      Barred setup v target (.refused place fault) := by
  cases h with
  | malformed hd =>
    rw [isNesting_of_lineDirective hd] at hf
    cases hf
  | barred hd hb => exact ⟨_, hd, hb⟩
  | turnedDown hd ht =>
    rw [ht.isNesting] at hf
    cases hf
  | balked hd hb =>
    rw [hb.isNesting] at hf
    cases hf

/-! ### Runs that meet a line -/

section Meeting

variable [Substitutions C] {setup : Setup C} {root : SourceUnit} {c : C}

/-- A run meets a line: it passes all lines in front of it. -/
def Setup.Meets (setup : Setup C) (root : SourceUnit) (c : C) (v : Visit) : Prop :=
  ∃ passed more calls ps c', setup.visits root = passed ++ v :: more ∧
    Walk setup c passed calls ps (.ok ()) c'

theorem Setup.Meets.nest {v : Visit} (h : setup.Meets root c v) : Nest setup root v.opened := by
  obtain ⟨passed, more, calls, ps, c', hvisits, -⟩ := h
  refine nest_of_mem_visits ?_
  rw [hvisits]
  exact List.mem_append_right _ (List.mem_cons_self ..)

/-- A run that meets an include which is barred fails there. -/
theorem Setup.Meets.fails {v : Visit} {target : String} {e : SourceError} (h : setup.Meets root c v)
    (hd : v.directive = .ok (some (.includeFile target))) (hb : Barred setup v target e) :
    ∃ r, Fails (process setup root) { context := c } e r := by
  obtain ⟨passed, more, calls, ps, c', hvisits, hwalk⟩ := h
  have hstop : Walk setup c (setup.visits root) (calls ++ []) (ps ++ []) (.error e) c' := by
    rw [hvisits]
    exact hwalk.append (.stop (.barred hd hb))
  have hend := walks_process setup root c rfl #[]
  rcases hr : process setup root { context := c } #[] with ⟨⟨e' | s, r⟩, log⟩
  · rw [hr] at hend
    obtain ⟨ps', hwalk'⟩ := hend
    obtain ⟨-, heq, -⟩ := hstop.unique hwalk'
    cases heq
    exact ⟨r, #[], log, hr⟩
  · rw [hr] at hend
    obtain ⟨-, ps', -, hwalk'⟩ := hend
    obtain ⟨-, heq, -⟩ := hstop.unique hwalk'
    cases heq

/-- A run that is refused for its nesting meets an include that is. -/
theorem exists_meets_of_fails {place : LineRef} {fault : LineFault} {r : Run C}
    (h : Fails (process setup root) { context := c } (.refused place fault) r)
    (hf : fault.isNesting = true) :
    ∃ v target, setup.Meets root c v ∧ v.directive = .ok (some (.includeFile target)) ∧
      Barred setup v target (.refused place fault) := by
  obtain ⟨ps, hwalk⟩ := (walks_process setup root c).fails rfl h
  obtain ⟨passed, v, more, calls, ps', c', last, hvisits, hpassed, hstop, -⟩ := hwalk.stops
  obtain ⟨target, hd, hb⟩ := hstop.barred_of_isNesting hf
  exact ⟨v, target, ⟨passed, more, calls, ps', c', hvisits, hpassed⟩, hd, hb⟩

/-- Includes are refused as too deep just where all the depth is used up. -/
theorem fails_depth_iff {place : LineRef} {n : Nat} :
    (∃ r, Fails (process setup root) { context := c } (.refused place (.includeDepth n)) r) ↔
      n = setup.maxDepth ∧ ∃ v target path, setup.Meets root c v ∧ v.place = place ∧
        v.directive = .ok (some (.includeFile target)) ∧ v.unit.resolve target = .ok path ∧
        v.opened.length = setup.maxDepth + 1 := by
  constructor
  · rintro ⟨r, h⟩
    obtain ⟨v, target, hmeets, hd, hb⟩ := exists_meets_of_fails h rfl
    have hlength := hmeets.nest.length
    cases hb with
    | unresolved hp => cases isNesting_of_resolve hp
    | depth hp hdeep => exact ⟨rfl, v, target, _, hmeets, rfl, hd, hp, by omega⟩
  · rintro ⟨rfl, v, target, path, hmeets, rfl, hd, hp, hlength⟩
    exact hmeets.fails hd (.depth hp (by omega))

/-- Includes are refused as going round just where the depth allows them and
their file is open. -/
theorem fails_cycle_iff {place : LineRef} {path : Path} :
    (∃ r, Fails (process setup root) { context := c } (.refused place (.includeCycle path)) r) ↔
      ∃ v target, setup.Meets root c v ∧ v.place = place ∧
        v.directive = .ok (some (.includeFile target)) ∧ v.unit.resolve target = .ok path ∧
        v.opened.length ≤ setup.maxDepth ∧
        ∃ u ∈ v.opened, setup.files.identity u.origin = setup.files.identity path := by
  constructor
  · rintro ⟨r, h⟩
    obtain ⟨v, target, hmeets, hd, hb⟩ := exists_meets_of_fails h rfl
    cases hb with
    | unresolved hp => cases isNesting_of_resolve hp
    | cycle hp hshallow hin =>
      obtain ⟨u, hu, hkey⟩ := List.mem_map.1 hin
      exact ⟨v, target, hmeets, rfl, hd, hp, by omega, u, hu, hkey⟩
  · rintro ⟨v, target, hmeets, rfl, hd, hp, hlength, u, hu, hkey⟩
    exact hmeets.fails hd (.cycle hp (by omega) (List.mem_map.2 ⟨u, hu, hkey⟩))

end Meeting

/-! ### More depth -/

/-- The same files and requests with another depth. -/
def Setup.withDepth (setup : Setup C) (m : Nat) : Setup C := { setup with maxDepth := m }

theorem Run.Alike.refl (r : Run C) : Run.Alike Eq r r := ⟨rfl, rfl, rfl, rfl⟩

theorem Run.Alike.eq {r t : Run C} (h : Run.Alike Eq r t) : t = r := by
  obtain ⟨hc, hf, hp, hcalls⟩ := h
  rcases r with ⟨c, files, pieces, calls⟩
  rcases t with ⟨c', files', pieces', calls'⟩
  dsimp only at hc hf hp hcalls
  rw [hc, hf, hp, hcalls]

section Deeper

variable [Substitutions C] {setup : Setup C}

theorem likens_withDepth (setup : Setup C) (m : Nat) :
    Likens setup.requests (setup.withDepth m).requests (Eq : C → C → Prop) := by
  refine ⟨?_, ?_, fun name h => h, fun name q h => ⟨q, h, rfl, ?_⟩⟩
  · rintro c _ rfl
    rfl
  · rintro c _ rfl
    rfl
  · rintro args c _ rfl
    exact ⟨rfl, rfl⟩

/-- A unit is processed alike with more depth, unless it is refused for the depth. -/
theorem processUnit_deeper (m : Nat) :
    ∀ {room room' : Nat} {stack : List FileIdentity} {unit : SourceUnit}, room ≤ room' →
      Matches (fun e => ∃ place n, e = .refused place (.includeDepth n)) (Run.Alike Eq)
        (processUnit setup room stack unit) (processUnit (setup.withDepth m) room' stack unit)
  | 0, 0, stack, unit, _ => by
    refine processText_matches (likens_withDepth setup m) (fun place target => ?_) unit
    refine (Run.matches_orRefuse place _).bind fun path => ?_
    exact Matches.of_excused ⟨place, _, rfl⟩
  | 0, room' + 1, stack, unit, _ => by
    refine processText_matches (likens_withDepth setup m) (fun place target => ?_) unit
    refine (Run.matches_orRefuse place _).bind fun path => ?_
    exact Matches.of_excused ⟨place, _, rfl⟩
  | room + 1, 0, stack, unit, hroom => absurd hroom (Nat.not_succ_le_zero room)
  | room + 1, room' + 1, stack, unit, hroom => by
    refine processText_matches (likens_withDepth setup m) (fun place target => ?_) unit
    refine (Run.matches_orRefuse place _).bind fun path => ?_
    have hopen : Matches (fun e => ∃ place n, e = .refused place (.includeDepth n)) (Run.Alike Eq)
        (openInclude setup stack unit place path)
        (openInclude (setup.withDepth m) stack unit place path) :=
      Matches.refl (fun _ _ h => h.eq) Run.Alike.refl
    exact hopen.bind fun p => processUnit_deeper m (Nat.le_of_succ_le_succ hroom)

/-- A run goes alike with more depth, unless it is refused for the depth. -/
theorem process_deeper {m : Nat} (hm : setup.maxDepth ≤ m) (root : SourceUnit) :
    Matches (fun e => ∃ place n, e = .refused place (.includeDepth n)) (Run.Alike Eq)
      (process setup root) (process (setup.withDepth m) root) := by
  unfold process
  refine Matches.bind (processUnit_deeper m hm) fun _ => Matches.get_bind fun r t h => ?_
  rw [h.eq]
  exact (Matches.record _).bind fun _ => Matches.pure _

end Deeper

/-! ### The nesting of a run -/

/-- **Open files are nested.** With one stack for the open files, of any size, a
run goes as it does with a list of them: at every call of a unit, and behind
every unit that was included, however it ended, the stack holds the open files,
the outermost first, none of them twice and not more than the depth allows.
Includes are refused as too deep just where all the depth is used up, and as
going round just where it is not and their file is open; and a run that succeeds
gives the same with more depth. -/
theorem nesting_of_process [Substitutions C] (setup : Setup C) (root : SourceUnit) (c : C) :
    (∀ dead spare log,
      let listed := processUnit setup setup.maxDepth [setup.key root] root { context := c } log
      let stacked := processOnStack setup dead (setup.maxDepth + 1 + spare) [] root
        { context := { context := c, stack := [setup.key root] } } log
      stacked.1.1 = listed.1.1 ∧ stacked.2 = listed.2 ∧
        Run.Alike (Tracked.Holds setup root [setup.key root]) listed.1.2 stacked.1.2) ∧
    (∀ place n,
      (∃ r, Fails (process setup root) { context := c } (.refused place (.includeDepth n)) r) ↔
        n = setup.maxDepth ∧ ∃ v target path, setup.Meets root c v ∧ v.place = place ∧
          v.directive = .ok (some (.includeFile target)) ∧ v.unit.resolve target = .ok path ∧
          v.opened.length = setup.maxDepth + 1) ∧
    (∀ place path,
      (∃ r, Fails (process setup root) { context := c } (.refused place (.includeCycle path)) r) ↔
        ∃ v target, setup.Meets root c v ∧ v.place = place ∧
          v.directive = .ok (some (.includeFile target)) ∧ v.unit.resolve target = .ok path ∧
          v.opened.length ≤ setup.maxDepth ∧
          ∃ u ∈ v.opened, setup.files.identity u.origin = setup.files.identity path) ∧
    ∀ m, setup.maxDepth ≤ m → ∀ s r, Gives (process setup root) { context := c } s r →
      Gives (process (setup.withDepth m) root) { context := c } s r := by
  refine ⟨fun dead spare log => ?_, fun _ _ => fails_depth_iff, fun _ _ => fails_cycle_iff, ?_⟩
  · have hfuel : setup.maxDepth < setup.maxDepth + 1 + spare := by omega
    have hlength : [setup.key root].length + setup.maxDepth = setup.maxDepth + 1 := by
      rw [List.length_singleton, Nat.add_comm]
    have hsound : Entry.Sound setup root ⟨[] ++ [root], [setup.key root]⟩ :=
      ⟨rfl, Nest.start setup root⟩
    have hstart : Run.Alike (Tracked.Holds setup root [setup.key root]) { context := c }
        { context := { context := c, stack := [setup.key root] } } :=
      ⟨⟨rfl, rfl, by simp, by simp⟩, rfl, rfl, rfl⟩
    exact (processOnStack_matches dead hfuel hlength hsound).eq_of_never hstart log
  · intro m hm s r h
    obtain ⟨t, ht, halike⟩ := (process_deeper hm root).gives (Run.Alike.refl _) h
    rw [halike.eq] at ht
    exact ht

/-- One file is included twice; includes are nested at most once. -/
def twiceSetup : Setup Unit where
  files := { files := [(["a"], "float x;\n".toUTF8)] }
  requests := ⟨[]⟩
  maxDepth := 1

def twiceUnit : SourceUnit := .ofText ⟨"1.frag"⟩ "#include <a>\n#include <a>\n"

/-- The file is closed when it is included again. -/
theorem nesting_twiceUnit : 1 ≤ 5 ∧ ∃ s r,
    Gives (process twiceSetup twiceUnit) { context := () } s r ∧
    Gives (process (twiceSetup.withDepth 5) twiceUnit) { context := () } s r := by
  have hok : (process twiceSetup twiceUnit { context := () } #[]).1.1.isOk = true := by decide +kernel
  obtain ⟨s, hs⟩ := Gives.of_isOk #[] hok
  obtain ⟨-, -, -, hdeeper⟩ := nesting_of_process twiceSetup twiceUnit ()
  exact ⟨by decide, s, _, hs, hdeeper 5 (by decide) s _ hs⟩

end AudioShader
