/-
# Requests of a run file are made in turn

The requests of a run file become the lines of one text, and that text is
processed like any other. A request that fits on one line is read as if it stood
alone: it opens nothing that a later line could be part of. So the handlers are
called one after the other, each with the words of its own request, up to the
first request that fails. A backslash at the end is the exception: it joins the
next line to its own, which is then no request any more, and the run fails
there.

Key definitions: `Issued`, `RequestTable.makeOne`, `RequestTable.inTurn`,
`RequestTable.byLines`, `RequestTable.Joins`.
Key theorems: `walk_byLines`, `byLines_tells`, `byLines_eq_inTurn_iff`,
`requests_made_in_turn`.
-/
import AudioShader.Proofs.Settings.Valid
import AudioShader.Proofs.Source.Terminated
import AudioShader.Proofs.Stage.Declared
import AudioShader.Proofs.Text.Lines
import AudioShader.RunFile.Basic

namespace AudioShader

variable {C : Type}

/-! ### One request after the other -/

/-- What making requests comes to: the handlers called, how it ends, and the
context that it leaves. -/
structure Issued (C : Type) where
  calls : List Call
  outcome : Except SourceError Unit
  context : C

/-- Goes on unless something failed. -/
def Issued.andThen (m : Issued C) (next : C → Issued C) : Issued C :=
  match m.outcome with
  | .error _ => m
  | .ok () =>
    let n := next m.context
    ⟨m.calls ++ n.calls, n.outcome, n.context⟩

namespace Issued

variable {m : Issued C} {next : C → Issued C}

theorem andThen_of_error {e : SourceError} (h : m.outcome = .error e) : m.andThen next = m := by
  simp only [andThen, h]

theorem andThen_of_ok (h : m.outcome = .ok ()) : m.andThen next =
    ⟨m.calls ++ (next m.context).calls, (next m.context).outcome, (next m.context).context⟩ := by
  simp only [andThen, h]

end Issued

namespace RequestTable

/-- Calls the handler of a name with words, if there is one that takes them. -/
def answer (requests : RequestTable C) (place : LineRef) (name : String) (words : List Token) (c : C) :
    Issued C :=
  match requests.get? name with
  | none => ⟨[], .error (.refused place (.unknownRequest name)), c⟩
  | some r =>
    match coerceArgs r.signature words with
    | .error fault => ⟨[], .error (.refused place (.ofCoerce name fault)), c⟩
    | .ok args =>
      let (outcome, c') := r.handler args c
      ⟨[⟨place, name, args⟩], outcome.mapError (.rejected place name), c'⟩

/-- Makes a request that stands alone. -/
def makeOne (requests : RequestTable C) (place : LineRef) (request : String) (c : C) : Issued C :=
  match readDirective (requestLine request) with
  | .error fault => ⟨[], .error (.refused place fault), c⟩
  | .ok (some (.request name words)) => requests.answer place name words c
  | .ok _ => ⟨[], .ok (), c⟩

/-- Makes requests one after the other, each as if it stood alone, up to the
first that fails; the first is at line `number`. -/
def inTurn (requests : RequestTable C) (origin : Path) : (number : Nat) → List String → C → Issued C
  | _, [], c => ⟨[], .ok (), c⟩
  | number, r :: rs, c =>
    (requests.makeOne ⟨origin, number⟩ r c).andThen (inTurn requests origin (number + 1) rs)

/-- What becomes of the line behind a request that goes on in it: it is no
request but text, and no color stands behind its `#`. -/
def joined (place : LineRef) (c : C) : Issued C := ⟨[], .error (.refused place (.color (.badDigit 'r'))), c⟩

/-- Makes requests as lines of one text. -/
def byLines (requests : RequestTable C) (origin : Path) : (number : Nat) → List String → C → Issued C
  | _, [], c => ⟨[], .ok (), c⟩
  | number, r :: rs, c =>
    (requests.makeOne ⟨origin, number⟩ r c).andThen fun c' =>
      if isContinued r.toList && !rs.isEmpty then joined ⟨origin, number + 1⟩ c'
      else byLines requests origin (number + 1) rs c'

end RequestTable

/-! ### Lines -/

theorem scan_requestLine (bound : String → Option String) (request : String) (cs : List Char) :
    scan bound .code (requestLine request ++ cs) = .error (.color (.badDigit 'r')) := by
  have hlead : requestLine request ++ cs = '#' :: 'r' :: ("equest ".toList ++ (request.toList ++ cs)) := by
    rw [requestLine_eq, List.append_assoc]
    rfl
  have hcolor (rest : List Char) : Color.scan ('r' :: rest) = .error (.badDigit 'r') := rfl
  rw [hlead]
  generalize "equest ".toList ++ (request.toList ++ cs) = rest
  rw [scan]
  · split
    · next h => rw [hcolor] at h; cases h; rfl
    · next h => rw [hcolor] at h; cases h
    · next h => rw [hcolor] at h; cases h
  · simp

section

variable [Substitutions C] {setup : Setup C} {v : Visit} {request : String} {c : C} {vs : List Visit}

/-- A request line is passed, and the walk goes on behind it, if the handler
accepts the words. -/
theorem walk_answer {name : String} {words : List Token}
    (hd : v.directive = .ok (some (.request name words))) {next : C → Issued C}
    (hnext : ∀ c', Walk setup c' vs (next c').calls [] (next c').outcome (next c').context) :
    let m := (setup.requests.answer v.place name words c).andThen next
    Walk setup c (v :: vs) m.calls [] m.outcome m.context := by
  cases hget : setup.requests.get? name with
  | none =>
    simp only [RequestTable.answer, hget]
    exact .stop (.turnedDown hd (.unknown hget))
  | some r =>
    cases hargs : coerceArgs r.signature words with
    | error fault =>
      simp only [RequestTable.answer, hget, hargs]
      exact .stop (.turnedDown hd (.arguments hget hargs))
    | ok args =>
      generalize hcall : r.handler args c = answer
      rcases answer with ⟨reason | _, c'⟩
      · simp only [RequestTable.answer, hget, hargs, hcall]
        exact .stop (.turnedDown hd (.rejected hget hargs hcall))
      · simp only [RequestTable.answer, hget, hargs, hcall]
        exact .pass (.request hd hget hargs hcall) (hnext c')

/-- A line that is read as a request alone is. -/
theorem walk_request (hd : v.directive = readDirective (requestLine request)) {next : C → Issued C}
    (hnext : ∀ name words c', v.directive = .ok (some (.request name words)) →
      Walk setup c' vs (next c').calls [] (next c').outcome (next c').context) :
    let m := (setup.requests.makeOne v.place request c).andThen next
    Walk setup c (v :: vs) m.calls [] m.outcome m.context := by
  unfold RequestTable.makeOne
  rw [requestLine_eq, readDirective_request] at hd ⊢
  generalize readTokens request.toList = words at hd ⊢
  rcases words with m | _ | ⟨name, words⟩
  · exact .stop (.malformed hd)
  · exact .stop (.malformed hd)
  · exact walk_answer hd fun c' => hnext _ _ c' hd

/-- Where directives can stand a request line is read as the request alone is. -/
theorem directive_requestLine (hv : v.line = requestLine request ++ ['\n'])
    (hr : '\n' ∉ request.toList) (hk : v.carry.atLineStart = true) :
    v.directive = readDirective (requestLine request) := by
  have hstarts : startsDirective v.line = true := by
    rw [hv, requestLine_eq]
    rfl
  rw [Visit.directive, lineDirective, hk, hstarts, Bool.and_self, if_pos rfl, hv, readDirective_break hr]

/-- Behind a request directives can stand, unless it goes on. -/
theorem after_request {name : String} {words : List Token}
    (hd : v.directive = .ok (some (.request name words))) (hk : v.carry.atLineStart = true) :
    v.after = ⟨false, isContinued v.line, true⟩ := by
  have hcomment : v.carry.inComment = false := by
    simpa [Carry.atLineStart] using (Bool.and_eq_true_iff.1 hk).2
  simp only [Visit.after, hd, Carry.after, Carry.leavesComment, hcomment, Option.isSome_some, Bool.true_or]

/-- A request line behind one that goes on is scanned as text. -/
theorem stops_joined (hv : v.line = requestLine request ++ ['\n'])
    (hk : v.carry = ⟨false, true, true⟩) :
    v.Stops setup c (.refused v.place (.color (.badDigit 'r'))) [] c := by
  have hd : v.directive = .ok none := by
    rw [Visit.directive, lineDirective, hk]
    rfl
  refine .balked hd (.body ?_ ?_)
  · rw [hk]
    rfl
  · rw [hk, hv]
    exact scan_requestLine _ _ _

end

/-- The lines of requests are walked along as `byLines` says. -/
theorem walk_byLines [Substitutions C] {setup : Setup C} {opens : String → List Visit}
    {around : List SourceUnit} {unit : SourceUnit} : ∀ {requests : List String}
    (_ : ∀ r ∈ requests, '\n' ∉ r.toList) {number : Nat} {k : Carry} (_ : k.atLineStart = true) (c : C),
    let m := setup.requests.byLines unit.origin number requests c
    Walk setup c (visitLines opens around unit number k (requests.map fun r => requestLine r ++ ['\n']))
      m.calls [] m.outcome m.context
  | [], _, _, _, _, _ => .done
  | r :: rs, hrs, number, k, hk, c => by
    obtain ⟨hr, hrs⟩ := List.forall_mem_cons.1 hrs
    let v : Visit := ⟨around, unit, number, k, requestLine r ++ ['\n']⟩
    have hd : v.directive = readDirective (requestLine r) := directive_requestLine rfl hr hk
    have htarget : v.target? = none := by
      rw [requestLine_eq, readDirective_request] at hd
      rcases hw : readTokens r.toList with m | _ | ⟨name, words⟩ <;>
        (rw [hw] at hd; simp only [Visit.target?, hd])
    rw [List.map_cons, visitLines]
    show Walk setup c (v :: ((v.target?.map opens).getD [] ++ _)) _ _ _ _
    rw [htarget]
    refine walk_request hd fun name words c' hd' => ?_
    have hafter : v.after = ⟨false, isContinued r.toList, true⟩ := by
      rw [after_request hd' hk, isContinued_request]
    rw [hafter]
    cases hjoins : isContinued r.toList with
    | false => exact walk_byLines hrs rfl c'
    | true =>
      cases rs with
      | nil => exact .done
      | cons r' rs' => exact .stop (stops_joined rfl rfl)

/-! ### What comes of requests -/

namespace RequestTable

variable {requests : RequestTable C} {origin : Path} {place : LineRef} {r : String} {c : C}
  {e : SourceError}

/-- What becomes of a request that stands alone. -/
theorem makeOne_cases (requests : RequestTable C) (place : LineRef) (r : String) (c : C) :
    (∃ name args c', requests.makeOne place r c = ⟨[⟨place, name, args⟩], .ok (), c'⟩) ∨
      ∃ calls e c', requests.makeOne place r c = ⟨calls, .error e, c'⟩ ∧ e.place? = some place ∧
        ∀ fault, e ≠ .refused place (.color fault) := by
  unfold makeOne
  rw [requestLine_eq, readDirective_request]
  rcases readTokens r.toList with m | _ | ⟨name, words⟩
  · exact .inr ⟨_, _, _, rfl, rfl, nofun⟩
  · exact .inr ⟨_, _, _, rfl, rfl, nofun⟩
  · simp only [answer]
    split
    · exact .inr ⟨_, _, _, rfl, rfl, nofun⟩
    · split
      · next fault _ => exact .inr ⟨_, _, _, rfl, rfl, by cases fault <;> exact nofun⟩
      · next request _ _ args _ =>
        generalize request.handler args c = answer
        rcases answer with ⟨reason | _, c'⟩
        · exact .inr ⟨_, _, _, rfl, rfl, nofun⟩
        · exact .inl ⟨_, _, _, rfl⟩

theorem calls_makeOne (h : (requests.makeOne place r c).outcome = .ok ()) :
    (requests.makeOne place r c).calls.map Call.place = [place] := by
  obtain ⟨name, args, c', hone⟩ | ⟨calls, e, c', hone, -⟩ := requests.makeOne_cases place r c
  · rw [hone]
    rfl
  · rw [hone] at h
    cases h

theorem fault_makeOne (h : (requests.makeOne place r c).outcome = .error e) :
    e.place? = some place ∧ ∀ fault, e ≠ .refused place (.color fault) := by
  obtain ⟨name, args, c', hone⟩ | ⟨calls, e', c', hone, he⟩ := requests.makeOne_cases place r c
  · rw [hone] at h
    cases h
  · rw [hone] at h
    cases h
    exact he

theorem inTurn_cons_ok {number : Nat} {rs : List String}
    (h : (requests.inTurn origin number (r :: rs) c).outcome = .ok ()) :
    (requests.makeOne ⟨origin, number⟩ r c).outcome = .ok () ∧
      (requests.inTurn origin (number + 1) rs
        (requests.makeOne ⟨origin, number⟩ r c).context).outcome = .ok () := by
  rw [inTurn] at h
  cases hone : (requests.makeOne ⟨origin, number⟩ r c).outcome with
  | error e =>
    rw [Issued.andThen_of_error hone, hone] at h
    cases h
  | ok _ =>
    rw [Issued.andThen_of_ok hone] at h
    exact ⟨rfl, h⟩

/-- Requests that all succeed have called one handler each, in their order. -/
theorem calls_inTurn {rs : List String} {number : Nat} {c : C}
    (h : (requests.inTurn origin number rs c).outcome = .ok ()) :
    (requests.inTurn origin number rs c).calls.map Call.place =
      (List.range' number rs.length).map (⟨origin, ·⟩) := by
  induction rs generalizing number c with
  | nil => rfl
  | cons r rs ih =>
    obtain ⟨hone, hrest⟩ := inTurn_cons_ok h
    rw [inTurn, Issued.andThen_of_ok hone, List.map_append, calls_makeOne hone, ih hrest]
    rfl

/-- Requests fail at the line of the first one that fails, for what it fails alone. -/
theorem fault_inTurn {rs : List String} {number : Nat} {c : C}
    (h : (requests.inTurn origin number rs c).outcome = .error e) :
    ∃ front r rest, rs = front ++ r :: rest ∧
      (requests.inTurn origin number front c).outcome = .ok () ∧
      (requests.makeOne ⟨origin, number + front.length⟩ r
        (requests.inTurn origin number front c).context).outcome = .error e := by
  induction rs generalizing number c with
  | nil => cases h
  | cons r rs ih =>
    rw [inTurn] at h
    cases hone : (requests.makeOne ⟨origin, number⟩ r c).outcome with
    | error e' =>
      rw [Issued.andThen_of_error hone] at h
      exact ⟨[], r, rs, rfl, rfl, h⟩
    | ok _ =>
      rw [Issued.andThen_of_ok hone] at h
      obtain ⟨front, r', rest, rfl, hfront, hr'⟩ := ih h
      refine ⟨r :: front, r', rest, rfl, ?_, ?_⟩
      · rw [inTurn, Issued.andThen_of_ok hone]
        exact hfront
      · rw [inTurn, Issued.andThen_of_ok hone, List.length_cons, Nat.add_comm front.length,
          ← Nat.add_assoc]
        exact hr'

/-! ### Where both ways agree -/

/-- A request that is reached goes on in the line of another one. -/
def Joins (requests : RequestTable C) (origin : Path) (number : Nat) (rs : List String) (c : C) : Prop :=
  ∃ front r next rest, rs = front ++ r :: next :: rest ∧ isContinued r.toList = true ∧
    (requests.inTurn origin number (front ++ [r]) c).outcome = .ok ()

/-- The first request joins the next line, or a later one does. -/
theorem joins_cons {number : Nat} {rs : List String} : requests.Joins origin number (r :: rs) c ↔
    (requests.makeOne ⟨origin, number⟩ r c).outcome = .ok () ∧
      ((isContinued r.toList = true ∧ rs ≠ []) ∨
        requests.Joins origin (number + 1) rs (requests.makeOne ⟨origin, number⟩ r c).context) := by
  constructor
  · rintro ⟨front, last, next, rest, hrs, hcontinued, hok⟩
    cases front with
    | nil =>
      obtain ⟨rfl, rfl⟩ := List.cons.inj hrs
      exact ⟨(inTurn_cons_ok hok).1, .inl ⟨hcontinued, List.cons_ne_nil _ _⟩⟩
    | cons first front =>
      obtain ⟨rfl, rfl⟩ := List.cons.inj hrs
      obtain ⟨hone, hok⟩ := inTurn_cons_ok hok
      exact ⟨hone, .inr ⟨front, last, next, rest, rfl, hcontinued, hok⟩⟩
  · rintro ⟨hone, ⟨hcontinued, hne⟩ | ⟨front, last, next, rest, rfl, hcontinued, hok⟩⟩
    · obtain ⟨next, rest, rfl⟩ := List.exists_cons_of_ne_nil hne
      refine ⟨[], r, next, rest, rfl, hcontinued, ?_⟩
      rw [List.nil_append, inTurn, Issued.andThen_of_ok hone]
      rfl
    · refine ⟨r :: front, last, next, rest, rfl, hcontinued, ?_⟩
      rw [List.cons_append, inTurn, Issued.andThen_of_ok hone]
      exact hok

/-- Where no request goes on in the line of another, requests are made in turn. -/
theorem byLines_eq_inTurn : ∀ {rs : List String} {number : Nat} {c : C},
    ¬requests.Joins origin number rs c →
      requests.byLines origin number rs c = requests.inTurn origin number rs c
  | [], _, _, _ => rfl
  | r :: rs, number, c, h => by
    rw [byLines, inTurn]
    cases hone : (requests.makeOne ⟨origin, number⟩ r c).outcome with
    | error e => rw [Issued.andThen_of_error hone, Issued.andThen_of_error hone]
    | ok _ =>
      rw [joins_cons, not_and] at h
      obtain ⟨hends, hrest⟩ := not_or.1 (h hone)
      have hends : ¬(isContinued r.toList && !rs.isEmpty) = true := by simpa using hends
      rw [Issued.andThen_of_ok hone, Issued.andThen_of_ok hone, if_neg hends, byLines_eq_inTurn hrest]

/-- Behind a request that goes on in the line of another the run fails. -/
theorem outcome_of_joins : ∀ {rs : List String} {number : Nat} {c : C},
    requests.Joins origin number rs c → ∃ i, i < rs.length ∧
      (requests.byLines origin number rs c).outcome =
        .error (.refused ⟨origin, number + i⟩ (.color (.badDigit 'r')))
  | [], _, _, h => by
    obtain ⟨front, r, next, rest, hrs, -⟩ := h
    cases front <;> cases hrs
  | r :: rs, number, c, h => by
    obtain ⟨hone, h⟩ := joins_cons.1 h
    rw [byLines, Issued.andThen_of_ok hone]
    by_cases hends : (isContinued r.toList && !rs.isEmpty) = true
    · have hne : rs ≠ [] := by simpa using (Bool.and_eq_true_iff.1 hends).2
      refine ⟨1, Nat.succ_lt_succ (List.length_pos_iff.2 hne), ?_⟩
      rw [if_pos hends]
      rfl
    · have hrest := h.resolve_left (by simpa using hends)
      obtain ⟨i, hi, hcolor⟩ := outcome_of_joins hrest
      refine ⟨i + 1, Nat.succ_lt_succ hi, ?_⟩
      rw [if_neg hends, hcolor, Nat.add_comm i, Nat.add_assoc]

/-- Requests of which at most the last ends in a backslash join no lines. -/
theorem not_joins {number : Nat} {rs : List String}
    (h : ∀ r ∈ rs.dropLast, isContinued r.toList = false) : ¬requests.Joins origin number rs c := by
  rintro ⟨front, r, next, rest, rfl, hcontinued, -⟩
  have hr : r ∈ (front ++ r :: next :: rest).dropLast := by
    rw [List.dropLast_append_of_ne_nil (List.cons_ne_nil _ _), List.dropLast_cons_cons]
    exact List.mem_append_right _ (List.mem_cons_self ..)
  rw [h r hr] at hcontinued
  cases hcontinued

theorem byLines_eq_inTurn_iff {rs : List String} {number : Nat} :
    requests.byLines origin number rs c = requests.inTurn origin number rs c ↔
      ¬requests.Joins origin number rs c := by
  refine ⟨fun heq hjoins => ?_, byLines_eq_inTurn⟩
  obtain ⟨i, -, hcolor⟩ := outcome_of_joins hjoins
  rw [heq] at hcolor
  obtain ⟨front, r, rest, -, -, hone⟩ := fault_inTurn hcolor
  obtain ⟨hplace, hno⟩ := fault_makeOne hone
  rw [Option.some.inj hplace] at hno
  exact hno _ rfl

end RequestTable

/-! ### Requests of a run file -/

theorem splitLines_requestLines : ∀ {rs : List String}, (∀ r ∈ rs, '\n' ∉ r.toList) →
    Text.splitLines (requestLines rs).toList = rs.map fun r => requestLine r ++ ['\n']
  | [], _ => rfl
  | r :: rs, hrs => by
    obtain ⟨hr, hrs⟩ := List.forall_mem_cons.1 hrs
    have hline : '\n' ∉ requestLine r := by
      rw [requestLine_eq, List.mem_append, not_or]
      exact ⟨by decide, hr⟩
    have hcons : requestLines (r :: rs) = "#request " ++ r ++ "\n" ++ requestLines rs := by
      simp only [requestLines, Text.unlines, List.map_cons, String.join_cons]
    rw [hcons, String.toList_append, Text.splitLines_append (Text.endsLine_append_break _),
      splitLines_requestLines hrs, String.toList_append, List.map_cons]
    show Text.splitLines (requestLine r ++ ['\n']) ++ _ = _
    rw [Text.splitLines_line hline, List.singleton_append]

/-- Requests that pass the check are on one line each. -/
theorem unbroken_of_check : ∀ {rs : List String}, rs.forM RunConfig.checkRequest = .ok () →
    ∀ r ∈ rs, '\n' ∉ r.toList
  | [], _ => by simp
  | r :: rs, h => by
    obtain ⟨_, hr, hrs⟩ := ok_of_bind h
    refine List.forall_mem_cons.2 ⟨fun hm => ?_, unbroken_of_check hrs⟩
    simp only [RunConfig.checkRequest, List.contains_iff_mem.2 hm, if_true] at hr
    split at hr <;> cases hr

/-- A run has called the handlers, ended and left the context as requests did. -/
def Issued.Tells (m : Issued C) (out : Except SourceError ProcessedSource × Run C) : Prop :=
  out.2.calls.toList = m.calls ∧ out.1.map (fun _ => ()) = m.outcome ∧ out.2.context = m.context

theorem byLines_tells [Substitutions C] (setup : Setup C) (folders : AppFolders) {rs : List String}
    (hrs : ∀ r ∈ rs, '\n' ∉ r.toList) (c : C) (log : Log) :
    (setup.requests.byLines ⟨"<requests>"⟩ 1 rs c).Tells
      (process setup (requestUnit folders rs) { context := c } log).1 := by
  have hlines : (requestUnit folders rs).lines = rs.map fun r => requestLine r ++ ['\n'] :=
    splitLines_requestLines hrs
  have hwalk : let m := setup.requests.byLines ⟨"<requests>"⟩ 1 rs c
      Walk setup c (setup.visits (requestUnit folders rs)) m.calls [] m.outcome m.context := by
    rw [Setup.visits, Setup.visitsFrom, hlines]
    exact walk_byLines hrs rfl c
  have hend := walks_process setup (requestUnit folders rs) c rfl log
  rcases hr : process setup (requestUnit folders rs) { context := c } log with ⟨⟨e | s, r⟩, log'⟩
  · rw [hr] at hend
    obtain ⟨ps, hwalk'⟩ := hend
    exact hwalk.unique hwalk'
  · rw [hr] at hend
    obtain ⟨-, ps, -, hwalk'⟩ := hend
    exact hwalk.unique hwalk'

section

variable {files : FileTree} {run : RunConfig} {folders : AppFolders}
  (hrs : ∀ r ∈ run.requests, '\n' ∉ r.toList)

include hrs

/-- A configuration of requests alone. -/
theorem configure_requests :
    let m := settingsRequests.byLines ⟨"<requests>"⟩ 1 run.requests {}
    Action.Ends (fun s => s = {}) (configure files (requestUnit folders run.requests))
      (fun _ s => m.outcome = .ok () ∧ s = m.context) fun e _ => m.outcome = .error e := by
  intro m s hs log
  rw [hs]
  have htells := byLines_tells (settingsSetup files) folders hrs {} log
  change Issued.Tells m _ at htells
  rw [show configure files (requestUnit folders run.requests) =
    processWith (settingsSetup files) (requestUnit folders run.requests) from rfl, processWith]
  rcases hr : process (settingsSetup files) (requestUnit folders run.requests) { context := {} } log with
    ⟨⟨e | source, r⟩, log'⟩
  · rw [hr] at htells
    exact htells.2.1.symm
  · rw [hr] at htells
    exact ⟨htells.2.1.symm, htells.2.2⟩

/-- The settings that requests leave, or the failure that they end in. -/
theorem applyRequests_ends :
    let m := settingsRequests.byLines ⟨"<requests>"⟩ 1 run.requests {}
    Logged.Ends (applyRequests files folders run.requests {})
      (fun s => m.outcome = .ok () ∧ s = m.context)
      fun e => ∃ cause, m.outcome = .error cause ∧ e = .source cause := by
  intro m
  unfold applyRequests
  split
  · next hnone =>
    have hm : m = ⟨[], .ok (), {}⟩ := by
      simp only [m, List.isEmpty_iff.1 hnone]
      rfl
    exact .pure ⟨by rw [hm], by rw [hm]⟩
  · refine Logged.Ends.bind (Q := fun s => m.outcome = .ok () ∧ s = m.context) ?_ fun s hs => ?_
    · refine Logged.Ends.bind (Q := fun r => m.outcome = .ok () ∧ r.2 = m.context) ?_ fun _ hr => .pure hr
      refine Logged.Ends.mapError (Logged.Ends.of_from? ?_)
      exact (configure_requests hrs).weaken (fun _ h => h) (fun _ _ h => h) fun e _ he => ⟨e, he, rfl⟩
    · exact Logged.Ends.bind (Q := fun _ => True) (.record trivial) fun _ _ => .pure hs

/-- Loading fails where the requests fail, and comes to the entry file only with
the settings that they leave. -/
theorem loadSettings_requests (log : Log) :
    let m := settingsRequests.byLines ⟨"<requests>"⟩ 1 run.requests {}
    (∀ e, m.outcome = .error e → (loadSettings files run folders log).1 = .error (.source e)) ∧
      (m.outcome = .ok () →
        ∃ log', applyRequests files folders run.requests {} log = (.ok m.context, log')) := by
  intro m
  have hends : Logged.Ends (applyRequests files folders run.requests {}) _ _ := applyRequests_ends hrs
  have hends := hends log
  rcases hr : applyRequests files folders run.requests {} log with ⟨e | s, log'⟩
  · rw [hr] at hends
    obtain ⟨cause, hm, rfl⟩ := hends
    refine ⟨fun e he => ?_, fun hok => ?_⟩
    · cases hm.symm.trans he
      rw [loadSettings, Logged.bind_apply, hr]
    · cases hm.symm.trans hok
  · rw [hr] at hends
    obtain ⟨hm, rfl⟩ := hends
    refine ⟨fun e he => ?_, fun _ => ⟨log', rfl⟩⟩
    cases hm.symm.trans he

end

/-- **Requests of a run file are made in turn.** For every run file that passes
the check, the lines of its requests call the handlers, end and leave the
settings as `byLines` says, and loading fails where they do. That is what making
the requests one after the other says, each read as if it stood alone, exactly
if no request that is reached ends in a backslash in front of another one; the
run fails behind one that does. Made in turn, requests that all succeed call one
handler each in their order, and else the first one that fails alone ends the
run at its line. -/
theorem requests_made_in_turn (files : FileTree) (folders : AppFolders) {run : RunConfig}
    (h : run.check = .ok ()) :
    let origin : Path := ⟨"<requests>"⟩
    let made := settingsRequests.byLines origin 1 run.requests {}
    let turn := settingsRequests.inTurn origin 1 run.requests {}
    (∀ log, made.Tells
        (process (settingsSetup files) (requestUnit folders run.requests) { context := {} } log).1 ∧
      (∀ e, made.outcome = .error e →
        (loadSettings files run folders log).1 = .error (.source e)) ∧
      (made.outcome = .ok () →
        ∃ log', applyRequests files folders run.requests {} log = (.ok made.context, log'))) ∧
    (made = turn ↔ ¬settingsRequests.Joins origin 1 run.requests {}) ∧
    (settingsRequests.Joins origin 1 run.requests {} → ∃ i, i < run.requests.length ∧
      made.outcome = .error (.refused ⟨origin, 1 + i⟩ (.color (.badDigit 'r')))) ∧
    (turn.outcome = .ok () →
      turn.calls.map Call.place = (List.range' 1 run.requests.length).map (⟨origin, ·⟩)) ∧
    ∀ e, turn.outcome = .error e → ∃ front r rest, run.requests = front ++ r :: rest ∧
      (settingsRequests.inTurn origin 1 front {}).outcome = .ok () ∧
      (settingsRequests.makeOne ⟨origin, 1 + front.length⟩ r
        (settingsRequests.inTurn origin 1 front {}).context).outcome = .error e ∧
      e.place? = some ⟨origin, 1 + front.length⟩ := by
  have hrs := unbroken_of_check (RunConfig.parts_of_check h).1
  refine ⟨fun log => ⟨byLines_tells (settingsSetup files) folders hrs {} log, loadSettings_requests hrs log⟩,
    RequestTable.byLines_eq_inTurn_iff, RequestTable.outcome_of_joins, RequestTable.calls_inTurn,
    fun e he => ?_⟩
  obtain ⟨front, r, rest, hsplit, hfront, hone⟩ := RequestTable.fault_inTurn he
  exact ⟨front, r, rest, hsplit, hfront, hone, (RequestTable.fault_makeOne hone).1⟩

/-- The last request may end in a backslash. -/
def plainRun : RunConfig :=
  { requests := ["setframerate 30 // per second", "setinterpolate false // \\"] }

theorem plainRun_in_turn : plainRun.check = .ok () ∧
    (process (settingsSetup etcFiles) (requestUnit etcFolders plainRun.requests) { context := {} }
      #[]).1.2.calls.toList.map Call.place = [⟨⟨"<requests>"⟩, 1⟩, ⟨⟨"<requests>"⟩, 2⟩] ∧
    ∃ s log, applyRequests etcFiles etcFolders plainRun.requests {} #[] = (.ok s, log) ∧
      s.frameRate = 30 ∧ s.interpolate = false := by
  have hcheck : plainRun.check = .ok () := by decide +kernel
  obtain ⟨hmade, hturn, -, hcalls, -⟩ := requests_made_in_turn etcFiles etcFolders hcheck
  obtain ⟨⟨htells, -⟩, -, happly⟩ := hmade #[]
  have hok : (settingsRequests.inTurn ⟨"<requests>"⟩ 1 plainRun.requests {}).outcome = .ok () := by
    decide +kernel
  have hsame := hturn.2 (RequestTable.not_joins (by decide +kernel))
  refine ⟨hcheck, ?_, ?_⟩
  · rw [htells, hsame, hcalls hok]
    rfl
  · obtain ⟨log, hlog⟩ := happly (hsame ▸ hok)
    exact ⟨_, log, hlog, by decide +kernel, by decide +kernel⟩

/-- A request that is cut off by the backslash of the one before. -/
def joiningRun : RunConfig := { requests := ["setframerate 30 // \\", "setinterpolate false"] }

/-- Alone both requests of this run file succeed, and yet it cannot be loaded. -/
theorem requests_joined : joiningRun.check = .ok () ∧
    (settingsRequests.inTurn ⟨"<requests>"⟩ 1 joiningRun.requests {}).outcome = .ok () ∧
    (loadSettings etcFiles joiningRun etcFolders #[]).1 =
      .error (.source (.refused ⟨⟨"<requests>"⟩, 2⟩ (.color (.badDigit 'r')))) := by
  have hcheck : joiningRun.check = .ok () := by decide +kernel
  have hrs := unbroken_of_check (RunConfig.parts_of_check hcheck).1
  refine ⟨hcheck, by decide +kernel, (loadSettings_requests hrs #[]).1 _ ?_⟩
  decide +kernel

end AudioShader
