/-
# Calls that handlers accept

Calls that are accepted one after the other lead from one context to another.
Where handlers that refuse leave the context as it is, only the accepted calls
count: this is so for calls that are made whatever becomes of the ones before
them, and for a run, which ends with the first call that is refused.

Key definitions: `RequestTable.Makes`, `RequestTable.RefusalsKeep`,
`RequestTable.attempt`.
Key theorems: `Walk.makes`, `RequestTable.makes_attempt`, `Walk.attempt_snd`,
`Walk.passes_accepted`, `Walk.made`, `walk_of_process`.
-/
import AudioShader.Proofs.Source.Walk

namespace AudioShader

variable {C : Type}

/-- The handlers accept the calls, one after the other, and lead from one context
to another. -/
inductive RequestTable.Makes (requests : RequestTable C) : C → List Call → C → Prop
  | none {c} : Makes requests c [] c
  | call {c c₁ c' call calls request} : requests.get? call.request = some request →
      request.handler call.args c = (.ok (), c₁) → Makes requests c₁ calls c' →
      Makes requests c (call :: calls) c'

namespace RequestTable

variable {requests : RequestTable C} {c c₁ c' : C} {call : Call} {calls calls' : List Call}

theorem Makes.append (h : requests.Makes c calls c₁) (h' : requests.Makes c₁ calls' c') :
    requests.Makes c (calls ++ calls') c' := by
  induction h with
  | none => exact h'
  | call hget hcall _ ih => exact .call hget hcall (ih h')

/-- A single call is accepted by the handler of its request. -/
theorem makes_singleton_iff : requests.Makes c [call] c' ↔
    ∃ request, requests.get? call.request = some request ∧
      request.handler call.args c = (.ok (), c') := by
  constructor
  · intro h
    cases h with
    | call hget hcall hrest =>
      cases hrest
      exact ⟨_, hget, hcall⟩
  · rintro ⟨request, hget, hcall⟩
    exact .call hget hcall .none

/-! ### Calls that are refused -/

/-- Handlers that refuse leave the context as it is. -/
def RefusalsKeep (requests : RequestTable C) : Prop :=
  ∀ name request, requests.get? name = some request → ∀ args c reason c',
    request.handler args c = (.error reason, c') → c' = c

/-- Makes calls one after the other, whatever becomes of the ones before: those
that were accepted, and the context behind all of them. -/
def attempt (requests : RequestTable C) : List Call → C → List Call × C
  | [], c => ([], c)
  | call :: calls, c =>
    match requests.get? call.request with
    | none => attempt requests calls c
    | some request =>
      match (request.handler call.args c : Except String Unit × C) with
      | (.error _, c₁) => attempt requests calls c₁
      | (.ok (), c₁) =>
        let rest := attempt requests calls c₁
        (call :: rest.1, rest.2)

/-- Where refused calls change nothing, the accepted ones lead to the context
behind all calls. -/
theorem makes_attempt (hkeep : requests.RefusalsKeep) : ∀ (calls : List Call) (c : C),
    requests.Makes c (requests.attempt calls c).1 (requests.attempt calls c).2
  | [], _ => .none
  | call :: calls, c => by
    unfold attempt
    cases hget : requests.get? call.request with
    | none => exact makes_attempt hkeep calls c
    | some request =>
      dsimp only
      split
      · next hcall =>
        obtain rfl := hkeep _ _ hget _ _ _ _ hcall
        exact makes_attempt hkeep calls _
      · next hcall => exact .call hget hcall (makes_attempt hkeep calls _)

/-- Calls behind other calls are made from the context that these lead to. -/
theorem attempt_append (requests : RequestTable C) (calls' : List Call) :
    ∀ (calls : List Call) (c : C), requests.attempt (calls ++ calls') c =
      ((requests.attempt calls c).1 ++ (requests.attempt calls' (requests.attempt calls c).2).1,
        (requests.attempt calls' (requests.attempt calls c).2).2)
  | [], _ => rfl
  | call :: calls, c => by
    rw [List.cons_append, attempt, attempt]
    cases hget : requests.get? call.request with
    | none => exact attempt_append requests calls' calls c
    | some request =>
      dsimp only
      split
      · exact attempt_append requests calls' calls _
      · rw [attempt_append requests calls' calls]
        rfl

/-- Calls that are accepted one after the other are all accepted. -/
theorem Makes.attempt_eq (h : requests.Makes c calls c') :
    requests.attempt calls c = (calls, c') := by
  induction h with
  | none => rfl
  | call hget hcall _ ih =>
    unfold attempt
    rw [hget]
    dsimp only
    rw [hcall]
    dsimp only
    rw [ih]

/-- The accepted calls are among those that were made, in their order. -/
theorem attempt_sublist (requests : RequestTable C) : ∀ (calls : List Call) (c : C),
    List.Sublist (requests.attempt calls c).1 calls
  | [], _ => .slnil
  | call :: calls, c => by
    unfold attempt
    split
    · exact (attempt_sublist requests calls c).cons call
    · split
      · exact (attempt_sublist requests calls _).cons call
      · exact (attempt_sublist requests calls _).cons_cons call

end RequestTable

/-! ### Runs -/

variable [Substitutions C] {setup : Setup C} {c c' : C} {calls : List Call}

theorem Visit.Passes.makes {v : Visit} {ps : List Piece} (h : v.Passes setup c calls ps c') :
    setup.requests.Makes c calls c' := by
  cases h with
  | includeFile => exact .none
  | request _ hget _ hcall => exact .call hget hcall .none
  | written => exact .none

/-- The handlers that are called from lines that are passed accept their calls. -/
theorem Walk.makes {vs : List Visit} {ps : List Piece} (h : Walk setup c vs calls ps (.ok ()) c') :
    setup.requests.Makes c calls c' := by
  generalize ho : (.ok () : Except SourceError Unit) = out at h
  induction h with
  | done => exact .none
  | pass hpass _ ih => exact hpass.makes.append (ih ho)
  | stop => cases ho

/-- A line that is not passed calls at most one handler, which refuses. -/
theorem Visit.Stops.keeps_context (hkeep : setup.requests.RefusalsKeep) {v : Visit}
    {e : SourceError} (h : v.Stops setup c e calls c') : c' = c ∧ calls.length ≤ 1 := by
  cases h with
  | malformed | barred | balked => exact ⟨rfl, Nat.zero_le 1⟩
  | turnedDown _ hdown =>
    cases hdown with
    | unknown | arguments => exact ⟨rfl, Nat.zero_le 1⟩
    | rejected hget _ hcall => exact ⟨hkeep _ _ hget _ _ _ _ hcall, Nat.le_refl 1⟩

/-- A line that is not passed has no call that is accepted. -/
theorem Visit.Stops.attempt_eq {v : Visit} {e : SourceError} (h : v.Stops setup c e calls c') :
    setup.requests.attempt calls c = ([], c') := by
  cases h with
  | malformed | barred | balked => rfl
  | turnedDown _ hdown =>
    cases hdown with
    | unknown | arguments => rfl
    | rejected hget _ hcall =>
      unfold RequestTable.attempt
      dsimp only
      rw [hget]
      dsimp only
      rw [hcall]
      rfl

/-- The calls along lines lead to the context behind them. -/
theorem Walk.attempt_snd {vs : List Visit} {ps : List Piece} {out : Except SourceError Unit}
    (h : Walk setup c vs calls ps out c') : (setup.requests.attempt calls c).2 = c' := by
  induction h with
  | done => rfl
  | pass hpass _ ih =>
    rw [RequestTable.attempt_append, hpass.makes.attempt_eq]
    exact ih
  | stop hstop => rw [hstop.attempt_eq]

/-- Of the calls along lines each that is accepted is made at a line that is passed,
behind lines that are passed. -/
theorem Walk.passes_accepted {vs : List Visit} {ps : List Piece} {out : Except SourceError Unit}
    {call : Call} (h : Walk setup c vs calls ps out c')
    (hcall : call ∈ (setup.requests.attempt calls c).1) :
    ∃ passed v more calls₁ ps₁ c₁ ps₂ c₂, vs = passed ++ v :: more ∧
      Walk setup c passed calls₁ ps₁ (.ok ()) c₁ ∧ v.Passes setup c₁ [call] ps₂ c₂ := by
  induction h with
  | done => cases hcall
  | pass hpass hrest ih =>
    rw [RequestTable.attempt_append, hpass.makes.attempt_eq, List.mem_append] at hcall
    rcases hcall with hcall | hcall
    · cases hpass with
      | includeFile | written => cases hcall
      | request hd hget hargs hcalled =>
        rw [List.mem_singleton.1 hcall]
        exact ⟨[], _, _, [], [], _, _, _, rfl, .done, .request hd hget hargs hcalled⟩
    · obtain ⟨passed, v, more, calls₁, ps₁, c₁, ps₂, c₂, rfl, hwalk, hmakes⟩ := ih hcall
      exact ⟨_ :: passed, v, more, _, _, c₁, ps₂, c₂, rfl, .pass hpass hwalk, hmakes⟩
  | stop hstop =>
    rw [hstop.attempt_eq] at hcall
    cases hcall

/-- Along lines the accepted calls lead to the context behind them. The last call
is the only one that may be refused, and then the walk fails. -/
theorem Walk.made (hkeep : setup.requests.RefusalsKeep) {vs : List Visit} {ps : List Piece}
    {out : Except SourceError Unit} (h : Walk setup c vs calls ps out c') :
    ∃ made refused, calls = made ++ refused ∧ setup.requests.Makes c made c' ∧
      refused.length ≤ 1 ∧ (out.isOk = true → refused = []) := by
  cases out with
  | ok u => exact ⟨calls, [], (List.append_nil _).symm, h.makes, Nat.zero_le 1, fun _ => rfl⟩
  | error e =>
    obtain ⟨passed, v, more, made, ps', c₁, refused, -, hpassed, hstop, rfl⟩ := h.stops
    obtain ⟨rfl, hone⟩ := hstop.keeps_context hkeep
    exact ⟨made, refused, rfl, hpassed.makes, hone, fun hok => nomatch hok⟩

/-- A run is a walk along the lines of its files, as far as it comes, and gives the
text that is written on the way. -/
theorem walk_of_process {root : SourceUnit} {log log' : Log} {out : Except SourceError ProcessedSource}
    {r : Run C} (h : process setup root { context := c } log = ((out, r), log')) :
    ∃ ps, Walk setup c (setup.visits root) r.calls.toList ps (out.map fun _ => ()) r.context ∧
      ∀ source, out = .ok source → source.text = (Output.ofPieces (.marker 0 1 :: ps)).text := by
  have hend := walks_process setup root c rfl log
  rw [h] at hend
  cases out with
  | ok source =>
    obtain ⟨hsource, ps, hps, hwalk⟩ := hend
    refine ⟨ps, hwalk, fun source' hout => ?_⟩
    rw [← Except.ok.inj hout, hsource, ← hps]
    rfl
  | error e =>
    obtain ⟨ps, hwalk⟩ := hend
    exact ⟨ps, hwalk, nofun⟩

end AudioShader
