/-
# A run walks along the lines of its files

Processing a unit goes along its lines and those of what it includes, depth
first and in order, and ends where the walk along them ends: with all of them
passed, or with the failure of the first one that is not.

Key definitions: `Run.Walks`, `Setup.Sees`.
Key theorems: `of_processLine_fails`, `walks_processUnit`, `walks_process`, `Walk.keeps`,
`sees_process`.
-/
import AudioShader.Proofs.Outcome
import AudioShader.Proofs.Source.Visits

namespace AudioShader

open AudioShader.Action (Gives Fails Ends)

variable {C : Type}

/-! ### Steps that fail -/

namespace Run

theorem fails_orRefuse {α : Type} {place : LineRef} {result : Except LineFault α} {r r' : Run C}
    {e : SourceError} (h : Fails (orRefuse place result) r e r') :
    ∃ fault, result = .error fault ∧ e = .refused place fault ∧ r = r' := by
  cases result with
  | ok x => exact h.of_pure.elim
  | error fault =>
    obtain ⟨rfl, rfl⟩ := h.of_throw
    exact ⟨fault, rfl, rfl, rfl⟩

/-- The marker in front of a line does not matter to what fails behind it. -/
theorem fails_emit_or_skip {α : Type} {b : Bool} {p : Piece}
    {f : Unit → Action (Run C) SourceError α} {r r' : Run C} {e : SourceError}
    (h : Fails (if b = true then emit p >>= f else f ()) r e r') :
    Fails (f ()) (r.add (if b = true then [p] else [])) e r' := by
  cases b with
  | true =>
    obtain h | ⟨⟨⟩, r₁, h₁, h⟩ := h.bind
    · exact h.of_modify.elim
    obtain rfl := of_emit h₁
    exact h
  | false => simpa using h

theorem fails_emit {p : Piece} {r r' : Run C} {e : SourceError} (h : Fails (emit p) r e r') : False :=
  h.of_modify

end Run

theorem turnedDown_of_dispatch {requests : RequestTable C} {place : LineRef} {name : String}
    {tokens : List Token} {r r' : Run C} {e : SourceError}
    (h : Fails (dispatch requests place name tokens) r e r') :
    ∃ calls, TurnedDown requests place name tokens r.context e calls r'.context ∧
      r'.calls.toList = r.calls.toList ++ calls := by
  unfold dispatch at h
  split at h
  · next hq =>
    obtain ⟨rfl, rfl⟩ := h.of_throw
    exact ⟨[], .unknown hq, (List.append_nil _).symm⟩
  · next request hq =>
    split at h
    · next fault ha =>
      obtain ⟨rfl, rfl⟩ := h.of_throw
      exact ⟨[], .arguments hq ha, (List.append_nil _).symm⟩
    · next args ha =>
      obtain h | ⟨⟨⟩, r₁, h₁, h⟩ := h.bind
      · exact h.of_record.elim
      obtain rfl := h₁.of_record
      obtain h | ⟨r₂, r₃, h₂, h⟩ := h.bind
      · exact h.of_get.elim
      obtain ⟨rfl, rfl⟩ := h₂.of_get
      rcases hh : request.handler args r.context with ⟨outcome, c⟩
      rw [hh] at h
      obtain h | ⟨⟨⟩, r₄, h₃, h⟩ := h.bind
      · exact h.of_set.elim
      rw [h₃.of_set] at h
      cases outcome with
      | ok v => exact h.of_pure.elim
      | error reason =>
        obtain ⟨rfl, rfl⟩ := h.of_throw
        exact ⟨_, .rejected hq ha hh, Array.toList_push ..⟩

/-- Why a line fails: it is no directive, what it includes fails, its request is
turned down, or it cannot be written. -/
theorem of_processLine_fails [Substitutions C] {setup : Setup C}
    {nested : LineRef → String → Action (Run C) SourceError Unit} {file : Nat} {place : LineRef}
    {k : Carry} {line : List Char} {r r' : Run C} {e : SourceError}
    (h : Fails (processLine setup nested file place k line) r e r') :
    (∃ fault, lineDirective k line = .error fault ∧ e = .refused place fault ∧ r = r') ∨
      ∃ d, lineDirective k line = .ok d ∧
        ((∃ target, d = some (.includeFile target) ∧ Fails (nested place target) r e r') ∨
          (∃ name args, d = some (.request name args) ∧
            Fails (dispatch setup.requests place name args) r e r') ∨
          ∃ fault, Balks r.context k line d fault ∧ e = .refused place fault ∧
            r'.context = r.context ∧ r'.calls = r.calls) := by
  unfold processLine at h
  obtain h | ⟨d, r₁, h₁, h⟩ := h.bind
  · exact .inl (Run.fails_orRefuse h)
  obtain ⟨hd, rfl⟩ := Run.of_orRefuse h₁
  replace h := Run.fails_emit_or_skip h
  refine .inr ⟨d, hd, ?_⟩
  cases d with
  | none =>
    dsimp only at h
    split at h
    · obtain h | ⟨⟨⟩, r₂, -, h⟩ := h.bind
      · exact (Run.fails_emit h).elim
      · exact h.of_pure.elim
    · next hcopies =>
      obtain h | ⟨s, r₂, h₂, h⟩ := h.bind
      · exact h.of_get.elim
      obtain ⟨rfl, rfl⟩ := h₂.of_get
      obtain h | ⟨p, r₃, -, h⟩ := h.bind
      · obtain ⟨fault, hscan, rfl, rfl⟩ := Run.fails_orRefuse h
        have hcopies' : k.copies line = false := by simpa [Carry.copies] using hcopies
        exact .inr (.inr ⟨fault, .body hcopies' hscan, rfl, rfl, rfl⟩)
      obtain h | ⟨⟨⟩, r₄, -, h⟩ := h.bind
      · exact (Run.fails_emit h).elim
      · exact h.of_pure.elim
  | some d =>
    cases d with
    | includeFile target =>
      obtain h | ⟨⟨⟩, r₂, -, h⟩ := h.bind
      · exact .inl ⟨target, rfl, by simpa [isConsumed] using h⟩
      · exact h.of_pure.elim
    | request name args =>
      obtain h | ⟨⟨⟩, r₂, -, h⟩ := h.bind
      · exact .inr (.inl ⟨name, args, rfl, by simpa [isConsumed] using h⟩)
      · exact h.of_pure.elim
    | define name =>
      obtain h | ⟨⟨⟩, r₂, h₂, h⟩ := h.bind
      · exact (Run.fails_emit h).elim
      obtain rfl := Run.of_emit h₂
      obtain h | ⟨⟨⟩, r₃, h₃, h⟩ := h.bind
      · exact (Run.fails_emit h).elim
      obtain rfl := Run.of_emit h₃
      obtain h | ⟨s, r₄, h₄, h⟩ := h.bind
      · exact h.of_get.elim
      obtain ⟨rfl, rfl⟩ := h₄.of_get
      obtain h | ⟨p, r₅, -, h⟩ := h.bind
      · obtain ⟨fault, hscan, rfl, rfl⟩ := Run.fails_orRefuse h
        exact .inr (.inr ⟨fault, .define hscan, rfl, rfl, rfl⟩)
      obtain h | ⟨⟨⟩, r₆, -, h⟩ := h.bind
      · exact (Run.fails_emit h).elim
      · exact h.of_pure.elim
    | expand name control =>
      obtain h | ⟨s, r₂, h₂, h⟩ := h.bind
      · exact h.of_get.elim
      obtain ⟨rfl, rfl⟩ := h₂.of_get
      split at h
      · next hcount =>
        obtain ⟨rfl, rfl⟩ := h.of_throw
        exact .inr (.inr ⟨_, .expand hcount, rfl, rfl, rfl⟩)
      · obtain h | ⟨⟨⟩, r₃, -, h⟩ := h.bind
        · exact (Run.fails_emit h).elim
        · exact h.of_pure.elim

/-! ### Walking along -/

variable [Substitutions C] {setup : Setup C}

/-- A run has come from `r` to `r'`, with an outcome, as a walk along lines does. -/
def Run.Walks (setup : Setup C) (vs : List Visit) (r : Run C) (out : Except SourceError Unit)
    (r' : Run C) : Prop :=
  ∃ calls ps, Walk setup r.context vs calls ps out r'.context ∧
    r'.calls.toList = r.calls.toList ++ calls ∧
    (out = .ok () → r'.pieces.toList = r.pieces.toList ++ ps)

namespace Run.Walks

variable {vs ws : List Visit} {r r₁ r' : Run C} {out : Except SourceError Unit} {e : SourceError}

theorem refl (r : Run C) : Walks setup [] r (.ok ()) r :=
  ⟨[], [], .done, (List.append_nil _).symm, fun _ => (List.append_nil _).symm⟩

theorem append (h : Walks setup vs r (.ok ()) r₁) (h' : Walks setup ws r₁ out r') :
    Walks setup (vs ++ ws) r out r' := by
  obtain ⟨calls, ps, hwalk, hcalls, hps⟩ := h
  obtain ⟨calls', ps', hwalk', hcalls', hps'⟩ := h'
  refine ⟨calls ++ calls', ps ++ ps', hwalk.append hwalk', ?_, fun hout => ?_⟩
  · rw [hcalls', hcalls, List.append_assoc]
  · rw [hps' hout, hps rfl, List.append_assoc]

theorem append_error (h : Walks setup vs r (.error e) r') : Walks setup (vs ++ ws) r (.error e) r' := by
  obtain ⟨calls, ps, hwalk, hcalls, -⟩ := h
  exact ⟨calls, ps, hwalk.append_error, hcalls, fun hout => by cases hout⟩

/-- A line is passed. -/
theorem of_passes {v : Visit} {calls : List Call} {ps : List Piece}
    (hv : v.Passes setup r.context calls ps r'.context)
    (hcalls : r'.calls.toList = r.calls.toList ++ calls)
    (hps : r'.pieces.toList = r.pieces.toList ++ ps) : Walks setup [v] r (.ok ()) r' := by
  have hwalk : Walk setup r.context [v] (calls ++ []) (ps ++ []) (.ok ()) r'.context := .pass hv .done
  rw [List.append_nil, List.append_nil] at hwalk
  exact ⟨calls, ps, hwalk, hcalls, fun _ => hps⟩

/-- A line is not passed. -/
theorem of_stops {v : Visit} {calls : List Call} (hv : v.Stops setup r.context e calls r'.context)
    (hcalls : r'.calls.toList = r.calls.toList ++ calls) : Walks setup (v :: vs) r (.error e) r' :=
  ⟨calls, [], .stop hv, hcalls, fun hout => by cases hout⟩

/-- A line at which a run stops as it is. -/
theorem of_stops_here {v : Visit} (hv : v.Stops setup r.context e [] r.context) :
    Walks setup (v :: vs) r (.error e) r := of_stops hv (List.append_nil _).symm

end Run.Walks

/-- Work that ends as a walk along lines does. -/
def WalksAlong (setup : Setup C) (vs : List Visit) (a : Action (Run C) SourceError Unit) (r : Run C) :
    Prop :=
  Ends (fun s => s = r) a (fun _ => Run.Walks setup vs r (.ok ()))
    fun e => Run.Walks setup vs r (.error e)

section Lines

variable {nested : LineRef → String → Action (Run C) SourceError Unit} {opens : String → List Visit}

/-- A line is processed as a walk along it, and along what it includes, does. -/
theorem walks_processLine (v : Visit) (file : Nat)
    (hn : ∀ target r, v.directive = .ok (some (.includeFile target)) →
      WalksAlong setup (v :: opens target) (nested v.place target) r) (r : Run C) :
    Ends (fun s => s = r) (processLine setup nested file v.place v.carry v.line)
      (fun k r' => k = v.after ∧
        Run.Walks setup (v :: (v.target?.map opens).getD []) r (.ok ()) r')
      fun e => Run.Walks setup (v :: (v.target?.map opens).getD []) r (.error e) := by
  intro s hs log
  rw [hs]
  rcases h : processLine setup nested file v.place v.carry v.line r log with ⟨⟨e | k, r'⟩, log'⟩
  · have hfails : Fails (processLine setup nested file v.place v.carry v.line) r e r' :=
      ⟨log, log', h⟩
    obtain ⟨fault, hd, rfl, rfl⟩ | ⟨d, hd, hfail⟩ := of_processLine_fails hfails
    · exact Run.Walks.of_stops_here (.malformed hd)
    obtain ⟨target, rfl, hfail⟩ | ⟨name, args, rfl, hfail⟩ | ⟨fault, hbalks, rfl, hc, hcalls⟩ := hfail
    · have htarget : v.target? = some target := by simp only [Visit.target?, Visit.directive, hd]
      rw [htarget]
      exact (hn target r hd).fails rfl hfail
    · obtain ⟨calls, hdown, hcalls⟩ := turnedDown_of_dispatch hfail
      exact Run.Walks.of_stops (.turnedDown hd hdown) hcalls
    · have hstop : v.Stops setup r.context (.refused v.place fault) [] r'.context := by
        rw [hc]
        exact .balked hd hbalks
      exact Run.Walks.of_stops hstop (by rw [hcalls, List.append_nil])
  · have hgives : Gives (processLine setup nested file v.place v.carry v.line) r k r' :=
      ⟨log, log', h⟩
    obtain ⟨d, hd, hk, hgive⟩ := of_processLine hgives
    have hafter : k = v.after := by simp only [hk, Visit.after, Visit.directive, hd]
    refine ⟨hafter, ?_⟩
    obtain ⟨target, rfl, hgive⟩ | ⟨name, args, rfl, hdisp⟩ | ⟨ps, hs, rfl⟩ := hgive
    · have htarget : v.target? = some target := by simp only [Visit.target?, Visit.directive, hd]
      rw [htarget]
      exact (hn target r hd).gives rfl hgive
    · have htarget : v.target? = none := by simp only [Visit.target?, Visit.directive, hd]
      rw [htarget]
      cases hdisp with
      | intro hq ha hh =>
        exact .of_passes (.request hd hq ha hh) (Array.toList_push ..) (List.append_nil _).symm
    · have htarget : v.target? = none := by
        simp only [Visit.target?, Visit.directive, hd]
        cases hs <;> rfl
      rw [htarget]
      exact .of_passes (.written hd hs) (List.append_nil _).symm (Run.add_pieces ..)

/-- The lines of a unit are processed as a walk along them does. -/
theorem walks_processLines {around : List SourceUnit} {unit : SourceUnit} (file : Nat)
    (hn : ∀ (v : Visit) target r, v.around = around → v.unit = unit →
      v.directive = .ok (some (.includeFile target)) →
      WalksAlong setup (v :: opens target) (nested v.place target) r) :
    ∀ (lines : List (List Char)) (number : Nat) (k : Carry) (r : Run C),
      WalksAlong setup (visitLines opens around unit number k lines)
        (processLines setup nested unit.origin file number k lines) r
  | [], number, k, r => Ends.pure fun s hs => hs ▸ Run.Walks.refl s
  | line :: rest, number, k, r => by
    let v : Visit := ⟨around, unit, number, k, line⟩
    have hline := walks_processLine v file (fun target r hd => hn v target r rfl rfl hd) r
    have hrest := walks_processLines file hn rest (number + 1) v.after
    refine Ends.bind (hline.weaken (fun _ h => h) (fun _ _ h => h) fun e _ h => h.append_error) ?_
    intro k'
    refine Ends.of_forall fun r₁ hr₁ => ?_
    obtain ⟨rfl, hr₁⟩ := hr₁
    refine (hrest r₁).weaken (fun _ h => h) (fun _ _ h => ?_) fun e _ h => ?_
    · exact hr₁.append h
    · exact hr₁.append h

/-- The text of a unit is processed as a walk along its lines does. -/
theorem walks_processText {around : List SourceUnit} {unit : SourceUnit}
    (hn : ∀ (v : Visit) target r, v.around = around → v.unit = unit →
      v.directive = .ok (some (.includeFile target)) →
      WalksAlong setup (v :: opens target) (nested v.place target) r) (r : Run C) :
    Ends (fun s => s = r) (processText setup nested unit)
      (fun _ => Run.Walks setup (visitLines opens around unit 1 {} unit.lines)
        (r.opened unit.origin) (.ok ()))
      fun e => Run.Walks setup (visitLines opens around unit 1 {} unit.lines)
        (r.opened unit.origin) (.error e) := by
  have hlines := walks_processLines r.files.size hn unit.lines 1 {} (r.opened unit.origin)
  intro s hs log
  rw [hs]
  exact hlines rfl log

end Lines

/-! ### Units -/

/-- What an include does in front of the unit that it opens. -/
theorem walks_openInclude {v : Visit} {target : String} {path : Path} {stack : List FileIdentity}
    {opened : List Visit} (hd : v.directive = .ok (some (.includeFile target)))
    (hp : v.unit.resolve target = .ok path) (hstack : stack = v.opened.map setup.key)
    (hroom : stack.length ≤ setup.maxDepth) (r : Run C) :
    Ends (fun s => s = r) (openInclude setup stack v.unit v.place path)
      (fun p s => s = r ∧ ∃ text, p = (v.unit.nested path text, setup.files.identity path) ∧
        setup.files.identity path ∉ stack ∧
        setup.included? v.opened v.unit target = some (v.unit.nested path text))
      fun e => Run.Walks setup (v :: opened) r (.error e) := by
  have hshallow : ¬setup.maxDepth < v.opened.length := by
    rw [hstack, List.length_map] at hroom
    omega
  unfold openInclude
  dsimp only
  by_cases hin : stack.contains (setup.files.identity path) = true
  · rw [if_pos hin]
    have hmem : setup.files.identity path ∈ v.opened.map setup.key := by
      rw [← hstack]
      simpa using hin
    refine Ends.throw fun s hs => ?_
    rw [hs]
    exact .of_stops_here (.barred hd (.cycle hp hshallow hmem))
  · rw [if_neg hin]
    have hnew : setup.files.identity path ∉ stack := by simpa using hin
    have hnew' : setup.files.identity path ∉ v.opened.map setup.key := hstack ▸ hnew
    cases ht : setup.files.readText path with
    | error fault =>
      refine Ends.throw fun s hs => ?_
      rw [hs]
      exact .of_stops_here (.barred hd (.unreadable hp hshallow hnew' ht))
    | ok text =>
      refine Ends.record_bind (Ends.pure fun s hs => ⟨hs, text, rfl, hnew, ?_⟩)
      simp only [Setup.included?, hp, hshallow, hnew', ht, or_self, if_false]

/-- A target that cannot be resolved stops an include. -/
theorem walks_resolve {v : Visit} {target : String} {opened : List Visit}
    (hd : v.directive = .ok (some (.includeFile target))) (r : Run C) :
    Ends (fun s => s = r) (Run.orRefuse v.place (v.unit.resolve target))
      (fun path s => s = r ∧ v.unit.resolve target = .ok path)
      fun e => Run.Walks setup (v :: opened) r (.error e) := by
  cases hp : v.unit.resolve target with
  | ok path => exact Ends.pure fun s hs => ⟨hs, rfl⟩
  | error fault =>
    refine Ends.throw fun s hs => ?_
    rw [hs]
    exact .of_stops_here (.barred hd (.unresolved hp))

/-- An include is passed, and the lines of the unit that it opens come next. -/
theorem Run.Walks.nested {v : Visit} {target : String} {u : SourceUnit} {vs : List Visit}
    {r r' : Run C} {out : Except SourceError Unit}
    (hd : v.directive = .ok (some (.includeFile target)))
    (hu : setup.included? v.opened v.unit target = some u)
    (h : Run.Walks setup vs (r.opened u.origin) out r') : Run.Walks setup (v :: vs) r out r' := by
  have hpass : Run.Walks setup [v] r (.ok ()) (r.opened u.origin) :=
    .of_passes (.includeFile hd hu) (List.append_nil _).symm (Run.opened_pieces ..)
  exact hpass.append h

/-- A unit and what it includes are processed as a walk along their lines does. -/
theorem walks_processUnit : ∀ {room : Nat} {stack : List FileIdentity} (around : List SourceUnit)
    (unit : SourceUnit), stack = (around ++ [unit]).map setup.key →
      stack.length + room = setup.maxDepth + 1 → ∀ r : Run C,
      Ends (fun s => s = r) (processUnit setup room stack unit)
        (fun _ => Run.Walks setup (setup.visitsFrom (room + 1) around unit)
          (r.opened unit.origin) (.ok ()))
        fun e => Run.Walks setup (setup.visitsFrom (room + 1) around unit)
          (r.opened unit.origin) (.error e)
  | 0, stack, around, unit, hstack, hroom, r => by
    refine walks_processText (fun v target r hv hu hd => ?_) r
    subst hv hu
    refine Ends.bind (walks_resolve hd r) fun path => Ends.of_forall fun s hs => ?_
    obtain ⟨rfl, hp⟩ := hs
    have hdeep : setup.maxDepth < v.opened.length := by
      have hlength : stack.length = v.opened.length := by rw [hstack, List.length_map, Visit.opened]
      omega
    refine Ends.throw fun t ht => ?_
    rw [ht]
    exact .of_stops_here (.barred hd (.depth hp hdeep))
  | room + 1, stack, around, unit, hstack, hroom, r => by
    refine walks_processText (fun v target r hv hu hd => ?_) r
    subst hv hu
    refine Ends.bind (walks_resolve hd r) fun path => Ends.of_forall fun s hs => ?_
    obtain ⟨rfl, hp⟩ := hs
    refine Ends.bind (walks_openInclude hd hp hstack (by omega) s) fun p => Ends.of_forall fun t ht => ?_
    obtain ⟨rfl, text, rfl, hnew, hincluded⟩ := ht
    have hkeys : stack ++ [setup.files.identity path] =
        (v.opened ++ [v.unit.nested path text]).map setup.key := by
      rw [List.map_append, List.map_singleton, hstack]
      rfl
    have hlength : (stack ++ [setup.files.identity path]).length + room = setup.maxDepth + 1 := by
      rw [List.length_append, List.length_singleton]
      omega
    have hopens : ((setup.included? v.opened v.unit target).map
        (setup.visitsFrom (room + 1) v.opened)).getD [] =
          setup.visitsFrom (room + 1) v.opened (v.unit.nested path text) := by
      rw [hincluded]
      rfl
    have hunit := walks_processUnit v.opened _ hkeys hlength t
    change WalksAlong setup (v :: ((setup.included? v.opened v.unit target).map
      (setup.visitsFrom (room + 1) v.opened)).getD []) _ t
    rw [hopens]
    exact hunit.weaken (fun _ h => h) (fun _ _ h => .nested hd hincluded h)
      fun _ _ h => .nested hd hincluded h

/-- A run goes as a walk along the lines of its files does, from the first line
of its unit and the context it is given. -/
theorem walks_process (setup : Setup C) (root : SourceUnit) (c : C) :
    Ends (fun r => r = { context := c }) (process setup root)
      (fun s r => s = r.source ∧ ∃ ps, r.pieces.toList = .marker 0 1 :: ps ∧
        Walk setup c (setup.visits root) r.calls.toList ps (.ok ()) r.context)
      fun e r => ∃ ps, Walk setup c (setup.visits root) r.calls.toList ps (.error e) r.context := by
  have hroom : [setup.key root].length + setup.maxDepth = setup.maxDepth + 1 := by
    rw [List.length_singleton, Nat.add_comm]
  have hunit := walks_processUnit [] root rfl hroom { context := c }
  unfold process
  refine Ends.bind (hunit.weaken (fun _ h => h) (fun _ _ h => h) ?_) fun _ => ?_
  · rintro e r ⟨calls, ps, hwalk, hcalls, -⟩
    obtain rfl : r.calls.toList = calls := hcalls
    exact ⟨ps, hwalk⟩
  · refine Ends.get_bind fun r hr => Ends.record_bind (Ends.pure fun s hs => ?_)
    obtain ⟨calls, ps, hwalk, hcalls, hps⟩ := hr
    obtain rfl : r.calls.toList = calls := hcalls
    rw [hs]
    exact ⟨rfl, ps, hps rfl, hwalk⟩

/-! ### What handlers maintain -/

/-- The handlers of a table keep a property of the context, also where they refuse. -/
def RequestTable.Maintains (t : RequestTable C) (I : C → Prop) : Prop :=
  ∀ name request, t.get? name = some request → ∀ args c out c',
    request.handler args c = (out, c') → I c → I c'

section Seeing

variable {root : SourceUnit} {c c' : C}

theorem Visit.Passes.keeps {I : C → Prop} (hI : setup.requests.Maintains I) {v : Visit}
    {calls : List Call} {ps : List Piece} (h : v.Passes setup c calls ps c') (hc : I c) : I c' := by
  cases h with
  | includeFile => exact hc
  | request _ hget _ hhandler => exact hI _ _ hget _ _ _ _ hhandler hc
  | written => exact hc

theorem Visit.Stops.keeps {I : C → Prop} (hI : setup.requests.Maintains I) {v : Visit}
    {calls : List Call} {e : SourceError} (h : v.Stops setup c e calls c') (hc : I c) : I c' := by
  cases h with
  | malformed => exact hc
  | barred => exact hc
  | balked => exact hc
  | turnedDown _ hdown =>
    cases hdown with
    | unknown => exact hc
    | arguments => exact hc
    | rejected hget _ hhandler => exact hI _ _ hget _ _ _ _ hhandler hc

/-- What the handlers maintain holds all along a walk. -/
theorem Walk.keeps {I : C → Prop} (hI : setup.requests.Maintains I) {vs : List Visit}
    {calls : List Call} {ps : List Piece} {out : Except SourceError Unit}
    (h : Walk setup c vs calls ps out c') (hc : I c) : I c' := by
  induction h with
  | done => exact hc
  | pass hpass _ ih => exact ih (hpass.keeps hI hc)
  | stop hstop => exact hstop.keeps hI hc

/-- A run that is begun with `c` comes to the context `c'`: behind some of its
lines, the last of which may have been the one that is not passed. -/
def Setup.Sees (setup : Setup C) (root : SourceUnit) (c c' : C) : Prop :=
  ∃ seen more calls ps out, setup.visits root = seen ++ more ∧ Walk setup c seen calls ps out c'

theorem Setup.Sees.keeps {I : C → Prop} (hI : setup.requests.Maintains I) (h : setup.Sees root c c')
    (hc : I c) : I c' := by
  obtain ⟨seen, more, calls, ps, out, -, hwalk⟩ := h
  exact hwalk.keeps hI hc

/-- A run comes to the context that it leaves, however it ends. -/
theorem sees_process (setup : Setup C) (root : SourceUnit) (c : C) (log : Log) :
    setup.Sees root c (process setup root { context := c } log).1.2.context := by
  have hend := walks_process setup root c rfl log
  rcases hr : process setup root { context := c } log with ⟨⟨e | s, r⟩, log'⟩
  · rw [hr] at hend
    obtain ⟨ps, hwalk⟩ := hend
    exact ⟨_, [], _, ps, _, (List.append_nil _).symm, hwalk⟩
  · rw [hr] at hend
    obtain ⟨-, ps, -, hwalk⟩ := hend
    exact ⟨_, [], _, ps, _, (List.append_nil _).symm, hwalk⟩

end Seeing

end AudioShader
