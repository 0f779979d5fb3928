/-
# Which handlers a run calls

A run calls the handlers of the request lines of its files, depth first and in
order, each with the words of its line and the context that the one before left,
up to the first line that fails; binds and expansions of a line are resolved in
the context that the handlers in front of it made. What a request line is, is
told by what the lines in front of it leave. That is what reading the unit from
its first line leaves, as long as no line goes on in the next one in the middle
of something, no comment is opened on a line that is replaced, and no default of
a bind opens one.

Key definitions: `Visit.request?`, `Visit.reading`, `SourceUnit.Steady`, `Visit.Found`.
Key theorems: `Walk.requests`, `found_of_meets`, `handlers_of_process`.
-/
import AudioShader.Proofs.Source.Inlining
import AudioShader.Proofs.Source.Nesting

namespace AudioShader

open AudioShader.Action (Gives)

variable {C : Type}

/-! ### Calls and request lines -/

/-- The place and name of the request that the line makes. -/
def Visit.request? (v : Visit) : Option (LineRef × String) :=
  match v.directive with
  | .ok (some (.request name _)) => some (v.place, name)
  | _ => none

/-- The place and name of the request that a handler was called for. -/
def Call.origin (call : Call) : LineRef × String := (call.place, call.request)

section Calls

variable [Substitutions C] {setup : Setup C} {c c' : C} {v : Visit} {vs : List Visit}
  {calls : List Call} {ps : List Piece} {out : Except SourceError Unit}

theorem Visit.Passes.requests (h : v.Passes setup c calls ps c') :
    calls.map Call.origin = v.request?.toList := by
  cases h with
  | includeFile hd => simp [Visit.request?, hd]
  | request hd => simp [Visit.request?, hd, Call.origin]
  | written hd hs =>
    have hnone : v.request? = none := by
      simp only [Visit.request?, hd]
      cases hs <;> rfl
    rw [hnone]
    rfl

theorem Visit.Stops.requests {e : SourceError} (h : v.Stops setup c e calls c') :
    calls.map Call.origin <+: v.request?.toList := by
  cases h with
  | malformed => exact List.nil_prefix
  | barred => exact List.nil_prefix
  | balked => exact List.nil_prefix
  | turnedDown hd ht =>
    cases ht with
    | unknown => exact List.nil_prefix
    | arguments => exact List.nil_prefix
    | rejected => simp [Visit.request?, hd, Call.origin]

/-- The calls of a walk are the requests of its lines, up to where it ends. -/
theorem Walk.requests (h : Walk setup c vs calls ps out c') :
    calls.map Call.origin <+: vs.filterMap Visit.request? ∧
      (out = .ok () → calls.map Call.origin = vs.filterMap Visit.request?) := by
  induction h with
  | done => exact ⟨List.nil_prefix, fun _ => rfl⟩
  | @pass c c₁ c' v vs calls calls' ps ps' out hpass hrest ih =>
    have hcons : (v :: vs).filterMap Visit.request? =
        v.request?.toList ++ vs.filterMap Visit.request? := by
      cases hv : v.request? <;> simp [hv]
    rw [List.map_append, hpass.requests, hcons]
    exact ⟨(List.prefix_append_right_inj _).2 ih.1, fun hout => by rw [ih.2 hout]⟩
  | @stop c c' v vs e calls hstop =>
    have hcons : (v :: vs).filterMap Visit.request? =
        v.request?.toList ++ vs.filterMap Visit.request? := by
      cases hv : v.request? <;> simp [hv]
    rw [hcons]
    exact ⟨hstop.requests.trans (List.prefix_append _ _), fun hout => by cases hout⟩

end Calls

/-! ### Lines as reading the unit finds them -/

/-- What reading the unit from its first line finds in front of the line. -/
def Visit.reading (v : Visit) : Lexer := Lexer.run {} (v.unit.lines.take (v.number - 1)).flatten

/-- The default of a bind opens nothing. -/
def Bind.Closed (b : Bind) : Prop := ∀ text, b.fallback = some text → Lexer.Passes {} text

/-- Lines that leave nothing open for the next one but a comment, and no comment
where they are replaced or in the default of a bind. -/
structure SourceUnit.Steady (u : SourceUnit) : Prop extends u.Settled where
  defaults : ∀ s line, u.HasLine s line → s.Binds Bind.Closed line

/-- Where names are bound to a plain word, a bind does no harm if its default
does not. -/
theorem Bind.Closed.harmless {b : Bind} (h : b.Closed) : b.Harmless fun _ => some "0" where
  fallback := h
  stands text ht := by
    obtain rfl : "0".toList = text := by simpa [bindText] using ht
    exact Lexer.inert_of_plain (by decide) (by decide)

section Scans

variable {bound : String → Option String} {s : Lexer} {cs t : List Char} {inComment : Bool}
  (hline : Text.IsLine cs) (hb : s.Binds Bind.Closed cs)

include hline hb

/-- A scan leaves the comment open that reading the text does. -/
theorem isOpen_of_scan {z : Zone} (hfits : Fits z s cs)
    (h : scan bound z cs = .ok (t, inComment)) : inComment = (s.run cs).isOpen := by
  obtain ⟨t', ht'⟩ := scan_any_bound "0" h
  exact (scan_reads hfits hline fun b hmem => (hb b hmem).harmless).isOpen ht'

theorem isOpen_of_scanDefine (hs : s = {}) (h : scanDefine bound cs = .ok (t, inComment)) :
    inComment = (s.run cs).isOpen := by
  subst hs
  have hword : ∃ t', scanDefine (fun _ => some "0") cs = .ok (t', inComment) := by
    unfold scanDefine at h ⊢
    split at h
    · next rest hr =>
      obtain ⟨t₁, h₁, -⟩ := prepend_eq_ok.1 h
      obtain ⟨t', ht'⟩ := scan_any_bound "0" h₁
      exact ⟨_, prepend_eq_ok.2 ⟨t', ht', rfl⟩⟩
    · exact scan_any_bound "0" h
  obtain ⟨t', ht'⟩ := hword
  exact (scanDefine_reads hline fun b hmem => (hb b hmem).harmless).isOpen ht'

end Scans

/-- A line that is written as it is left to the compiler, or as a definition,
leaves the comment open that reading it does. -/
theorem Stands.isOpen [Substitutions C] {c : C} {k : Carry} {s : Lexer} {file number : Nat}
    {line : List Char} {d : Option Directive} {ps : List Piece} (h : Stands c k file number line d ps)
    (hf : k.Follows s) (hd : s.directive line = .ok d)
    (hk : ∀ d', d = some d' → d'.isReplaced = false) (hline : Text.IsLine line)
    (hb : s.Binds Bind.Closed line) : (k.after d line).inComment = (s.run line).isOpen := by
  cases h with
  | @define name t inComment ht =>
    have hs := Lexer.eq_start_of_directive hd
    rw [← isOpen_of_scanDefine hline hb hs ht]
    exact scanDefine_leavesOpen ht
  | expand hc => cases hk _ rfl
  | verbatim hc =>
    have hcopies := hc
    rw [hf.copies, Bool.and_eq_true, decide_eq_true_iff] at hc
    obtain ⟨rfl, -⟩ := hc
    simp only [Carry.after, Carry.leavesComment, hcopies, if_true]
    exact endsInComment_eq (.code line) hline
  | @body t inComment hc ht =>
    rw [← isOpen_of_scan hline hb (hf.fits line) ht]
    simp only [Carry.after, Carry.leavesComment, hc, Bool.false_eq_true, if_false]
    exact scan_leavesOpen ht

/-- A line of a unit that is reached, behind what reading the unit leaves. -/
structure Visit.Told (files : FileTree) (root : SourceUnit) (v : Visit) (front rest : List (List Char)) :
    Prop where
  reaches : Reaches files root v.unit
  lines : v.unit.lines = front ++ v.line :: rest
  number : v.number = front.length + 1
  follows : v.carry.Follows (Lexer.run {} front.flatten)

section Told

variable {setup : Setup C} {root : SourceUnit} {v : Visit} {front rest : List (List Char)}
  (h : v.Told setup.files root front rest)

include h

theorem Visit.Told.directive : v.directive = (Lexer.run {} front.flatten).directive v.line :=
  h.follows.lineDirective v.line

theorem Visit.Told.hasLine : v.unit.HasLine (Lexer.run {} front.flatten) v.line :=
  SourceUnit.hasLine_of_eq h.lines

/-- Behind a line that is passed its carry follows the reading. -/
theorem Visit.Told.follows_after [Substitutions C] (hsteady : v.unit.Steady) {c c' : C} {calls : List Call}
    {ps : List Piece} (hpass : v.Passes setup c calls ps c') (hne : rest ≠ []) :
    v.after.Follows (Lexer.run {} (front ++ [v.line]).flatten) := by
  have hafter : ∀ d, v.directive = .ok d → v.after = v.carry.after d v.line := by
    intro d hd
    simp only [Visit.after, hd]
  have hreplaced : ∀ d, v.directive = .ok (some d) → d.isReplaced = true →
      v.after.Follows (Lexer.run {} (front ++ [v.line]).flatten) := by
    intro d hd hr
    rw [hafter _ hd]
    exact h.follows.behind_replaced hsteady.toSettled h.lines (h.directive ▸ hd) hr hne
  cases hpass with
  | includeFile hd => exact hreplaced _ hd rfl
  | request hd => exact hreplaced _ hd rfl
  | @written d file ps hd hs =>
    by_cases hr : ∃ d', d = some d' ∧ d'.isReplaced = true
    · obtain ⟨d', rfl, hr⟩ := hr
      exact hreplaced d' hd hr
    · have hkept : ∀ d', d = some d' → d'.isReplaced = false := by
        intro d' hd'
        by_contra hno
        exact hr ⟨d', hd', by simpa using hno⟩
      rw [hafter _ hd]
      refine h.follows.behind hsteady.toSettled h.lines (fun _ => ?_) hne
      exact hs.isOpen h.follows (h.directive ▸ hd) hkept (SourceUnit.isLine_of_eq h.lines).1
        (hsteady.defaults _ _ h.hasLine)

end Told

/-! ### Lines that are met -/

/-- What holds of every line that is met along lines. -/
def Setup.Along [Substitutions C] (setup : Setup C) (p : Visit → Prop) (vs : List Visit) : Prop :=
  ∀ passed v more c calls ps c', vs = passed ++ v :: more →
    Walk setup c passed calls ps (.ok ()) c' → p v

namespace Setup.Along

variable [Substitutions C] {setup : Setup C} {p : Visit → Prop} {v : Visit} {vs ws : List Visit}

theorem nil : setup.Along p [] := by
  intro passed v more c calls ps c' hvs
  cases passed <;> cases hvs

/-- The lines behind a line are met if it is passed. -/
theorem cons (hv : p v) (h : ∀ c calls ps c', v.Passes setup c calls ps c' → setup.Along p vs) :
    setup.Along p (v :: vs) := by
  intro passed w more c calls ps c' hvs hwalk
  cases hwalk with
  | done =>
    cases hvs
    exact hv
  | pass hpass hrest =>
    obtain ⟨rfl, htail⟩ := List.cons.inj hvs
    exact h _ _ _ _ hpass _ w more _ _ _ _ htail hrest

theorem append (hvs : setup.Along p vs) (hws : setup.Along p ws) : setup.Along p (vs ++ ws) := by
  intro passed v more c calls ps c' heq hwalk
  rcases List.append_eq_append_iff.1 heq with ⟨middle, rfl, hrest⟩ | ⟨middle, rfl, hrest⟩
  · obtain ⟨_, _, c₁, _, _, -, hwalk⟩ := hwalk.of_append
    exact hws middle v more c₁ _ _ _ hrest hwalk
  · cases middle with
    | nil => exact hws [] v more c [] [] c hrest.symm .done
    | cons w middle =>
      obtain ⟨rfl, -⟩ := List.cons.inj hrest
      exact hvs passed v middle c _ _ _ rfl hwalk

end Setup.Along

section Along

variable [Substitutions C] {setup : Setup C} {root : SourceUnit}
  (hsteady : ∀ u, Reaches setup.files root u → u.Steady)

/-- The line is one of a unit that is reached, and is found as reading the unit
from its first line finds it. -/
def Visit.Found (files : FileTree) (root : SourceUnit) (v : Visit) : Prop :=
  ∃ front rest, v.Told files root front rest

include hsteady

/-- The lines of a unit that is reached are met as they are found. -/
theorem along_visitLines {opens : String → List Visit} {around : List SourceUnit} {unit : SourceUnit}
    (hu : Reaches setup.files root unit)
    (hopens : ∀ (v : Visit) target, v.around = around → v.unit = unit →
      v.Found setup.files root → v.directive = .ok (some (.includeFile target)) →
      setup.Along (Visit.Found setup.files root) (opens target)) :
    ∀ (lines front : List (List Char)) (number : Nat) (k : Carry), unit.lines = front ++ lines →
      number = front.length + 1 → (lines ≠ [] → k.Follows (Lexer.run {} front.flatten)) →
      setup.Along (Visit.Found setup.files root) (visitLines opens around unit number k lines)
  | [], _, _, _, _, _, _ => Setup.Along.nil
  | line :: rest, front, number, k, hlines, hnumber, hf => by
    have htold : Visit.Told setup.files root ⟨around, unit, number, k, line⟩ front rest :=
      ⟨hu, hlines, hnumber, hf (List.cons_ne_nil line rest)⟩
    rw [visitLines]
    generalize hv : (⟨around, unit, number, k, line⟩ : Visit) = v at *
    have haround : v.around = around := by rw [← hv]
    have hunit : v.unit = unit := by rw [← hv]
    have hline : v.line = line := by rw [← hv]
    refine Setup.Along.cons ⟨front, rest, htold⟩ fun c calls ps c' hpass => ?_
    refine Setup.Along.append ?_ ?_
    · cases ht : v.target? with
      | none => exact Setup.Along.nil
      | some target =>
        have hd : v.directive = .ok (some (.includeFile target)) := by
          unfold Visit.target? at ht
          split at ht
          · next target' hd =>
            cases ht
            exact hd
          · cases ht
        exact hopens v target haround hunit ⟨front, rest, htold⟩ hd
    · refine along_visitLines hu hopens rest (front ++ [line]) (number + 1) v.after ?_ ?_ fun hne => ?_
      · rw [hlines, List.append_assoc, List.singleton_append]
      · rw [List.length_append, List.length_singleton, hnumber]
      · have hafter := htold.follows_after (hsteady _ htold.reaches) hpass hne
        rwa [hline] at hafter

theorem along_visitsFrom : ∀ (fuel : Nat) (around : List SourceUnit) {unit : SourceUnit},
    Reaches setup.files root unit →
      setup.Along (Visit.Found setup.files root) (setup.visitsFrom fuel around unit)
  | 0, _, _, _ => Setup.Along.nil
  | fuel + 1, around, unit, hu => by
    refine along_visitLines hsteady hu ?_ unit.lines [] 1 {} rfl rfl fun _ => .start
    rintro v target rfl rfl ⟨front, rest, htold⟩ hd
    cases hi : setup.included? (v.around ++ [v.unit]) v.unit target with
    | none => exact Setup.Along.nil
    | some u =>
      obtain ⟨-, -, path, text, hp, ht, rfl⟩ := Setup.of_included? hi
      have hin := SourceUnit.mem_includes htold.hasLine (htold.directive ▸ hd) hp ht
      exact along_visitsFrom fuel (v.around ++ [v.unit]) (htold.reaches.tail hin)

/-- A line that a run meets is found as reading its unit finds it. -/
theorem found_of_meets {c : C} {v : Visit} (h : setup.Meets root c v) :
    v.Found setup.files root := by
  obtain ⟨passed, more, calls, ps, c', hvisits, hwalk⟩ := h
  exact along_visitsFrom hsteady _ [] .refl passed v more c calls ps c' hvisits hwalk

end Along

/-- **Handlers are called line by line.** However a run ends, it ends as a walk
along the lines of its files does: each request line calls its handler with its
words and the context that the one before left, each other line is written in
that context, and the first line that fails is the last one. So the handlers
called are those of the request lines, depth first and in order, up to that
line. And if no unit leaves more open at the end of a line than it shows, every
line that is met is the directive that reading its unit finds there. -/
theorem handlers_of_process [Substitutions C] (setup : Setup C) (root : SourceUnit) (c : C) :
    (∀ log, ∃ ps,
      let out := process setup root { context := c } log
      Walk setup c (setup.visits root) out.1.2.calls.toList ps (out.1.1.map fun _ => ())
        out.1.2.context ∧
      (∀ s, out.1.1 = .ok s → s = out.1.2.source ∧ out.1.2.pieces.toList = .marker 0 1 :: ps) ∧
      out.1.2.calls.toList.map Call.origin <+: (setup.visits root).filterMap Visit.request? ∧
      (out.1.1.isOk = true →
        out.1.2.calls.toList.map Call.origin = (setup.visits root).filterMap Visit.request?)) ∧
    ((∀ u, Reaches setup.files root u → u.Steady) → ∀ v, setup.Meets root c v →
      Reaches setup.files root v.unit ∧ v.unit.lines[v.number - 1]? = some v.line ∧
        v.directive = v.reading.directive v.line) := by
  constructor
  · intro log
    have hend := walks_process setup root c rfl log
    rcases hr : process setup root { context := c } log with ⟨⟨e | s, r⟩, log'⟩
    · rw [hr] at hend
      obtain ⟨ps, hwalk⟩ := hend
      refine ⟨ps, hwalk, ?_, hwalk.requests.1, ?_⟩
      · rintro s ⟨⟩
      · rintro ⟨⟩
    · rw [hr] at hend
      obtain ⟨hs, ps, hps, hwalk⟩ := hend
      refine ⟨ps, hwalk, ?_, hwalk.requests.1, fun _ => hwalk.requests.2 rfl⟩
      rintro _ ⟨⟩
      exact ⟨hs, hps⟩
  · intro hsteady v hmeets
    obtain ⟨front, rest, htold⟩ := found_of_meets hsteady hmeets
    have htake : v.unit.lines.take (v.number - 1) = front := by
      rw [htold.lines, htold.number, Nat.add_sub_cancel, List.take_left]
    refine ⟨htold.reaches, ?_, ?_⟩
    · rw [htold.lines, htold.number, Nat.add_sub_cancel, List.getElem?_append_right (Nat.le_refl _)]
      simp
    · rw [Visit.reading, htake]
      exact htold.directive

/-! ### Requests in two files -/

/-- Without binds in its code a unit has no defaults. -/
theorem SourceUnit.Settled.steady {u : SourceUnit} (h : u.Settled)
    (hplain : ∀ p ∈ Lexer.readings {} u.lines, (p.1.binds p.2).isEmpty = true) : u.Steady where
  toSettled := h
  defaults s line hl := by
    have hnone := hplain _ hl
    rw [List.isEmpty_iff] at hnone
    intro b hb
    rw [hnone] at hb
    cases hb

/-- Requests in front of an include and behind it, and one in a comment. -/
def callingUnit : SourceUnit :=
  .ofText ⟨"1.frag"⟩ "#request idle\n#include <b>\n/*\n#request idle\n*/\n#request idle\n"

/-- The file that is included makes a request too. -/
def callingSetup : Setup Unit where
  files := { files := [(["b"], "#request idle // b\n".toUTF8)] }
  requests := ⟨[{ name := "idle", signature := "", handler := fun _ => pure () }]⟩

def callingUnits : List SourceUnit := [callingUnit, callingUnit.nested ⟨"./b"⟩ "#request idle // b\n"]

theorem steady_callingUnit {u : SourceUnit} (h : Reaches callingSetup.files callingUnit u) : u.Steady := by
  have hmem : u ∈ callingUnits := h.mem (by simp [callingUnits]) (by decide +kernel)
  have hsettled : ∀ u ∈ callingUnits, u.Settled := by decide +kernel
  have hplain : ∀ u ∈ callingUnits, ∀ p ∈ Lexer.readings {} u.lines,
      (p.1.binds p.2).isEmpty = true := by decide
  exact (hsettled u hmem).steady (hplain u hmem)

theorem handlers_callingUnit :
    (∀ u, Reaches callingSetup.files callingUnit u → u.Steady) ∧
    (process callingSetup callingUnit { context := () } #[]).1.2.calls.toList.map Call.origin =
      [(⟨⟨"1.frag"⟩, 1⟩, "idle"), (⟨⟨"./b"⟩, 1⟩, "idle"), (⟨⟨"1.frag"⟩, 6⟩, "idle")] ∧
    (callingSetup.visits callingUnit).filterMap Visit.request? =
      [(⟨⟨"1.frag"⟩, 1⟩, "idle"), (⟨⟨"./b"⟩, 1⟩, "idle"), (⟨⟨"1.frag"⟩, 6⟩, "idle")] ∧
    ∀ v, callingSetup.Meets callingUnit () v → v.directive = v.reading.directive v.line := by
  have hcalls : (process callingSetup callingUnit { context := () } #[]).1.2.calls.toList.map
      Call.origin = [(⟨⟨"1.frag"⟩, 1⟩, "idle"), (⟨⟨"./b"⟩, 1⟩, "idle"), (⟨⟨"1.frag"⟩, 6⟩, "idle")] := by
    decide +kernel
  have hok : (process callingSetup callingUnit { context := () } #[]).1.1.isOk = true := by
    decide +kernel
  obtain ⟨hwalks, hmet⟩ := handlers_of_process callingSetup callingUnit ()
  obtain ⟨ps, -, -, -, hrequests⟩ := hwalks #[]
  have hlines := hrequests hok
  rw [hcalls] at hlines
  refine ⟨fun u => steady_callingUnit, hcalls, hlines.symm, fun v hv => ?_⟩
  exact (hmet (fun u => steady_callingUnit) v hv).2.2

/-! ### A request behind an opened comment -/

/-- The line is a request. -/
def Lexer.requests (s : Lexer) (line : List Char) : Bool :=
  match s.directive line with
  | .ok (some (.request _ _)) => true
  | _ => false

/-- A comment is opened behind the target of the include; what looks like a
request stands in it. -/
def hiddenUnit : SourceUnit := .ofText ⟨"1.frag"⟩ "#include <a> /*\n#request idle\n*/\n"

/-- The handler is called, though no line is a request outside comments. -/
theorem calls_hiddenUnit :
    (∀ p ∈ Lexer.readings {} hiddenUnit.lines, p.1.requests p.2 = false) ∧
      (∀ p ∈ Lexer.readings {} (hiddenUnit.nested ⟨"./a"⟩ "float x;").lines,
        p.1.requests p.2 = false) ∧
      ∃ s r, Gives (process includingSetup hiddenUnit) { context := () } s r ∧
        r.calls.toList.map Call.origin = [(⟨⟨"1.frag"⟩, 2⟩, "idle")] := by
  have hok : (process includingSetup hiddenUnit { context := () } #[]).1.1.isOk = true := by
    decide +kernel
  obtain ⟨s, hs⟩ := Gives.of_isOk #[] hok
  exact ⟨by decide, by decide, s, _, hs, by decide +kernel⟩

end AudioShader
