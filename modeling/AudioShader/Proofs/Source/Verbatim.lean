/-
# Directives that are left to the compiler

A line that begins with a `#` and no directive of this language is copied as it is,
and nothing in it is refused. Where it ends with a backslash it goes on in the next
lines: these are read on as text, so that colors and binds in them are replaced or
refused. They are copied only where there are none.

Key definitions: `Visit.Foreign`, `Visit.continuation`, `readOn`, `Quiet`.
Key theorems: `Setup.splits_visits`, `Visit.Foreign.walk`, `Walk.reads_on`,
`foreign_lines_read_on`, `not_foreign_lines_verbatim`.
-/
import AudioShader.Proofs.Source.Accepted
import AudioShader.Proofs.Source.Position

namespace AudioShader

variable {C : Type}

/-! ### Logical lines -/

namespace Visit

/-- A directive that is left to the compiler: outside comments the line begins with
a `#`, but with no directive of this language. -/
structure Foreign (v : Visit) : Prop where
  atLineStart : v.carry.atLineStart = true
  starts : startsDirective v.line = true
  unread : v.directive = .ok none

/-- The next line of the unit, with what it is. -/
def next (v : Visit) (line : List Char) : Visit := ⟨v.around, v.unit, v.number + 1, v.after, line⟩

/-- Those of the lines behind a line that it goes on in. -/
def joined (v : Visit) : List (List Char) → List Visit
  | [] => []
  | line :: rest => if isContinued v.line then v.next line :: (v.next line).joined rest else []

/-- The lines of its unit that a line goes on in. -/
def continuation (v : Visit) : List Visit := v.joined (v.unit.lines.drop v.number)

theorem after_continued {v : Visit} (h : v.directive = .ok none) :
    v.after.continued = isContinued v.line := by
  rw [after, h]
  rfl

/-- A line that another one goes on in begins no directive. -/
theorem directive_of_continued {v : Visit} (h : v.carry.continued = true) :
    v.directive = .ok none := by
  unfold directive lineDirective Carry.atLineStart
  rw [h]
  rfl

theorem directive_next {v : Visit} {line : List Char} (h : v.directive = .ok none)
    (hcontinued : isContinued v.line = true) : (v.next line).directive = .ok none :=
  directive_of_continued ((after_continued h).trans hcontinued)

theorem continued_of_mem_joined : ∀ {rest : List (List Char)} {v u : Visit}, v.directive = .ok none →
    u ∈ v.joined rest → u.carry.continued = true
  | [], _, _, _, hu => nomatch hu
  | line :: rest, v, u, h, hu => by
    unfold joined at hu
    split at hu
    · next hcontinued =>
      rcases List.mem_cons.1 hu with rfl | hu
      · exact (after_continued h).trans hcontinued
      · exact continued_of_mem_joined (directive_next h hcontinued) hu
    · cases hu

theorem target?_of_directive {v : Visit} (h : v.directive = .ok none) : v.target? = none := by
  rw [target?, h]

end Visit

/-- The lines that a line goes on in come right behind it, if it is no directive. -/
theorem visitLines_joined (opens : String → List Visit) : ∀ (rest : List (List Char)) (v : Visit),
    v.directive = .ok none → ∃ back,
      visitLines opens v.around v.unit (v.number + 1) v.after rest = v.joined rest ++ back
  | [], v, _ => ⟨[], rfl⟩
  | line :: rest, v, h => by
    unfold Visit.joined
    by_cases hcontinued : isContinued v.line = true
    · have hnext : (v.next line).directive = .ok none := Visit.directive_next h hcontinued
      obtain ⟨back, hback⟩ := visitLines_joined opens rest (v.next line) hnext
      refine ⟨back, ?_⟩
      have hlines : visitLines opens v.around v.unit (v.number + 1) v.after (line :: rest) =
          v.next line :: ((((v.next line).target?).map opens).getD [] ++
            visitLines opens v.around v.unit (v.number + 1 + 1) (v.next line).after rest) := rfl
      rw [if_pos hcontinued, hlines, Visit.target?_of_directive hnext, List.cons_append]
      exact congrArg _ hback
    · rw [if_neg hcontinued]
      exact ⟨_, (List.nil_append _).symm⟩

/-- The lines that any line goes on in come right behind it, if it is no directive. -/
def Splits (vs : List Visit) : Prop :=
  ∀ v ∈ vs, v.directive = .ok none → ∃ passed back, vs = passed ++ v :: (v.continuation ++ back)

theorem Splits.append {vs ws : List Visit} (h : Splits vs) (h' : Splits ws) : Splits (vs ++ ws) := by
  intro v hv hd
  rcases List.mem_append.1 hv with hv | hv
  · obtain ⟨passed, back, rfl⟩ := h v hv hd
    exact ⟨passed, back ++ ws, by simp⟩
  · obtain ⟨passed, back, rfl⟩ := h' v hv hd
    exact ⟨vs ++ passed, back, by simp⟩

theorem splits_nil : Splits [] := nofun

theorem Splits.cons {v : Visit} {vs : List Visit} (h : Splits vs)
    (hv : v.directive = .ok none → ∃ back, vs = v.continuation ++ back) : Splits (v :: vs) := by
  intro u hu hd
  rcases List.mem_cons.1 hu with rfl | hu
  · obtain ⟨back, rfl⟩ := hv hd
    exact ⟨[], back, rfl⟩
  · obtain ⟨passed, back, rfl⟩ := h u hu hd
    exact ⟨v :: passed, back, rfl⟩

theorem splits_visitLines {opens : String → List Visit} (hopens : ∀ target, Splits (opens target))
    {around : List SourceUnit} {unit : SourceUnit} : ∀ {lines : List (List Char)} {n : Nat} {k : Carry},
      unit.lines.drop n = lines → Splits (visitLines opens around unit (n + 1) k lines)
  | [], _, _, _ => splits_nil
  | line :: rest, n, k, hlines => by
    let v : Visit := ⟨around, unit, n + 1, k, line⟩
    have hrest : unit.lines.drop (n + 1) = rest := by
      rw [← List.tail_drop, hlines, List.tail_cons]
    have hbehind : Splits (visitLines opens around unit (n + 1 + 1) v.after rest) :=
      splits_visitLines hopens hrest
    have hopened : Splits ((v.target?.map opens).getD []) := by
      cases v.target? with
      | none => exact splits_nil
      | some target => exact hopens target
    change Splits (v :: ((v.target?.map opens).getD [] ++
      visitLines opens around unit (n + 1 + 1) v.after rest))
    refine (hopened.append hbehind).cons fun hd => ?_
    obtain ⟨back, hback⟩ := visitLines_joined opens rest v hd
    refine ⟨back, ?_⟩
    rw [Visit.target?_of_directive hd, Visit.continuation]
    change [] ++ _ = v.joined (unit.lines.drop (n + 1)) ++ back
    rw [hrest, List.nil_append]
    exact hback

namespace Setup

theorem splits_visitsFrom (setup : Setup C) : ∀ (fuel : Nat) (around : List SourceUnit)
    (unit : SourceUnit), Splits (setup.visitsFrom fuel around unit)
  | 0, _, _ => splits_nil
  | fuel + 1, around, unit => by
    refine splits_visitLines (fun target => ?_) (n := 0) List.drop_zero
    cases setup.included? (around ++ [unit]) unit target with
    | none => exact splits_nil
    | some u => exact setup.splits_visitsFrom fuel (around ++ [unit]) u

/-- The lines that any line of a run goes on in come right behind it. -/
theorem splits_visits (setup : Setup C) (root : SourceUnit) : Splits (setup.visits root) :=
  setup.splits_visitsFrom _ _ _

end Setup

/-! ### Reading on -/

/-- What stands for lines that are read as text, or the first of them that is
refused. -/
def readOn (bound : String → Option String) :
    List Visit → Except (LineRef × LineFault) (List (List Char))
  | [] => .ok []
  | v :: vs =>
    match scan bound v.carry.zone v.line with
    | .error fault => .error (v.place, fault)
    | .ok (text, _) => (readOn bound vs).map (text :: ·)

/-- Nothing in a text is replaced: what is found in it is only copied. -/
inductive Quiet : Zone → List Char → Prop
  | finish {zone cs} : look zone cs = .finish → Quiet zone cs
  | copy {zone zone' cs lead rest} : look zone cs = .copy lead zone' rest → Quiet zone' rest →
      Quiet zone cs

/-- What is quiet is copied, whatever names are bound to. -/
theorem Quiet.scan_eq {zone : Zone} {cs : List Char} (h : Quiet zone cs)
    (bound : String → Option String) : ∃ inComment, scan bound zone cs = .ok (cs, inComment) := by
  induction h with
  | finish hlook =>
    rw [scan_look, hlook]
    exact ⟨_, rfl⟩
  | copy hlook _ ih =>
    obtain ⟨inComment, hrest⟩ := ih
    obtain ⟨-, rfl⟩ := look_copy hlook
    rw [scan_look, hlook]
    exact ⟨inComment, prepend_eq_ok.2 ⟨_, hrest, rfl⟩⟩

/-- Without a `#` and an `@` nothing is replaced. -/
theorem quiet_of_notMem : ∀ {zone : Zone} {cs : List Char}, '#' ∉ cs → '@' ∉ cs → Quiet zone cs := by
  intro zone cs hhash hat
  match hl : look zone cs with
  | .finish => exact .finish hl
  | .copy lead zone' rest =>
    have := look_copy_length hl
    obtain ⟨-, hcs⟩ := look_copy hl
    rw [hcs, List.mem_append, not_or] at hhash hat
    exact .copy hl (quiet_of_notMem hhash.2 hat.2)
  | .color color rest =>
    obtain ⟨more, rfl, -⟩ := look_color hl
    exact absurd (List.mem_cons_self ..) hhash
  | .badColor fault =>
    obtain ⟨more, rfl, -⟩ := look_badColor hl
    exact absurd (List.mem_cons_self ..) hhash
  | .bind b =>
    obtain ⟨more, rfl, -⟩ := look_bind hl
    exact absurd (List.mem_cons_self ..) hat
termination_by _ cs => cs.length

/-- Lines without colors and binds are read on as they are. -/
theorem readOn_of_quiet (bound : String → Option String) : ∀ {vs : List Visit},
    (∀ v ∈ vs, Quiet v.carry.zone v.line) → readOn bound vs = .ok (vs.map (·.line))
  | [], _ => rfl
  | v :: vs, h => by
    obtain ⟨inComment, hscan⟩ := (h v (List.mem_cons_self ..)).scan_eq bound
    have hrest := readOn_of_quiet bound fun u hu => h u (List.mem_cons_of_mem _ hu)
    rw [readOn, hscan]
    change (readOn bound vs).map _ = _
    rw [hrest]
    rfl

/-! ### Walking along a logical line -/

section Walks

variable [Substitutions C] {setup : Setup C} {c c' : C} {v : Visit} {vs back : List Visit}
  {calls : List Call} {ps : List Piece} {out : Except SourceError Unit}

/-- Pieces that are texts of lines. -/
def Texts (texts : List (List Char)) (ps : List Piece) : Prop :=
  List.Forall₂ (fun text p => ∃ file number, p = .line file number text) texts ps

/-- A line that is no directive of this language is written as the context tells, or
refused. -/
theorem Visit.walk_of_unread (hunread : v.directive = .ok none)
    (h : Walk setup c (v :: back) calls ps out c') :
    (∃ fault, Balks c v.carry v.line none fault ∧ out = .error (.refused v.place fault)) ∨
      ∃ file ps₁ ps', Stands c v.carry file v.number v.line none ps₁ ∧
        ps = v.carry.lead none file v.number ++ ps₁ ++ ps' ∧ Walk setup c back calls ps' out c' := by
  cases h with
  | pass hpass hrest =>
    cases hpass with
    | includeFile hd _ | request hd _ _ _ =>
      rw [hunread] at hd
      cases hd
    | written hd hstands =>
      rw [hunread] at hd
      cases hd
      exact .inr ⟨_, _, _, hstands, rfl, hrest⟩
  | stop hstop =>
    cases hstop with
    | malformed hd | barred hd _ | turnedDown hd _ =>
      rw [hunread] at hd
      cases hd
    | balked hd hbalks =>
      rw [hunread] at hd
      cases hd
      exact .inl ⟨_, hbalks, rfl⟩

/-- A directive that is left to the compiler is passed, with its line as it is. -/
theorem Visit.Foreign.walk (hv : v.Foreign) (h : Walk setup c (v :: back) calls ps out c') :
    ∃ lead file ps', ps = lead ++ .line file v.number v.line :: ps' ∧
      Walk setup c back calls ps' out c' := by
  have hcopies : v.carry.copies v.line = true := by
    rw [Carry.copies, hv.atLineStart, hv.starts]
    rfl
  rcases Visit.walk_of_unread hv.unread h with ⟨fault, hbalks, -⟩ | ⟨file, ps₁, ps', hstands, rfl, hrest⟩
  · cases hbalks with
    | body hno _ =>
      rw [hcopies] at hno
      cases hno
  · cases hstands with
    | body hno _ =>
      rw [hcopies] at hno
      cases hno
    | verbatim _ => exact ⟨_, file, ps', List.append_assoc .., hrest⟩

/-- A line that another one goes on in is read as text, or refused. -/
theorem Visit.walk_of_continued (hv : v.carry.continued = true)
    (h : Walk setup c (v :: back) calls ps out c') :
    (∃ fault, scan (Substitutions.bound? c) v.carry.zone v.line = .error fault ∧
        out = .error (.refused v.place fault)) ∨
      ∃ text inComment file ps',
        scan (Substitutions.bound? c) v.carry.zone v.line = .ok (text, inComment) ∧
        ps = .line file v.number text :: ps' ∧ Walk setup c back calls ps' out c' := by
  have hinside : v.carry.atLineStart = false := by
    rw [Carry.atLineStart, hv]
    rfl
  rcases Visit.walk_of_unread (v.directive_of_continued hv) h with
    ⟨fault, hbalks, hout⟩ | ⟨file, ps₁, ps', hstands, rfl, hrest⟩
  · cases hbalks with
    | body _ hscan => exact .inl ⟨fault, hscan, hout⟩
  · have hlead : v.carry.lead none file v.number = [] := by
      rw [Carry.lead, Carry.restarts, hinside, Bool.and_false]
      rfl
    rw [hlead]
    cases hstands with
    | verbatim hcopies =>
      rw [Carry.copies, hinside] at hcopies
      cases hcopies
    | body _ hscan => exact .inr ⟨_, _, file, ps', hscan, rfl, hrest⟩

/-- Along the lines that another one goes on in each is read as text, up to the
first one that is refused. -/
theorem Walk.reads_on (hvs : ∀ v ∈ vs, v.carry.continued = true)
    (h : Walk setup c (vs ++ back) calls ps out c') :
    (∃ place fault, readOn (Substitutions.bound? c) vs = .error (place, fault) ∧
        out = .error (.refused place fault)) ∨
      ∃ texts ps₁ ps₂, readOn (Substitutions.bound? c) vs = .ok texts ∧ ps = ps₁ ++ ps₂ ∧
        Texts texts ps₁ ∧ Walk setup c back calls ps₂ out c' := by
  induction vs generalizing ps with
  | nil => exact .inr ⟨[], [], ps, rfl, rfl, .nil, h⟩
  | cons v vs ih =>
    rcases Visit.walk_of_continued (hvs v (List.mem_cons_self ..)) h with
      ⟨fault, hscan, hout⟩ | ⟨text, inComment, file, ps', hscan, rfl, hrest⟩
    · refine .inl ⟨v.place, fault, ?_, hout⟩
      rw [readOn, hscan]
    · have hbehind := ih (fun u hu => hvs u (List.mem_cons_of_mem _ hu)) hrest
      have hread : readOn (Substitutions.bound? c) (v :: vs) =
          (readOn (Substitutions.bound? c) vs).map (text :: ·) := by
        rw [readOn, hscan]
      rw [hread]
      rcases hbehind with ⟨place, fault, hfault, hout⟩ | ⟨texts, ps₁, ps₂, htexts, rfl, hps₁, hwalk⟩
      · rw [hfault]
        exact .inl ⟨place, fault, rfl, hout⟩
      · rw [htexts]
        exact .inr ⟨_, .line file v.number text :: ps₁, ps₂, rfl, rfl,
          .cons ⟨file, v.number, rfl⟩ hps₁, hwalk⟩

/-! ### What is written -/

/-- Texts of lines are written one after the other. -/
theorem text_foldl_texts {texts : List (List Char)} {ps : List Piece} (h : Texts texts ps)
    (o : Output) : (ps.foldl Output.write o).text.toList = o.text.toList ++ texts.flatten := by
  induction h generalizing o with
  | nil => exact (List.append_nil _).symm
  | cons hp _ ih =>
    obtain ⟨file, number, rfl⟩ := hp
    rw [List.foldl_cons, ih, List.flatten_cons, ← List.append_assoc]
    congr 1
    change (o.text ++ String.ofList _).toList = _
    rw [String.toList_append, String.toList_ofList]

/-- Where texts of lines stand in the output. -/
theorem text_ofPieces_texts {texts : List (List Char)} {ps : List Piece} (h : Texts texts ps)
    (front back : List Piece) : ∃ more, (Output.ofPieces (front ++ ps ++ back)).text.toList =
      (Output.ofPieces front).text.toList ++ texts.flatten ++ more := by
  obtain ⟨⟨more, hmore⟩, -⟩ := Output.extends_foldl (Output.ofPieces (front ++ ps)) back
  refine ⟨more.toList, ?_⟩
  rw [Output.ofPieces_append (front ++ ps) back, hmore, String.toList_append, Output.ofPieces_append,
    text_foldl_texts h]

end Walks

/-! ### Runs -/

/-- **A directive that is left to the compiler is copied, and the lines it goes on in
are read as text.** Wherever a line of the files that are processed begins with a `#`
outside comments, but with no directive of this language, a run either ends at a line
in front, or passes the line as it is: it is never refused. The lines that it goes on
in come right behind it. The first of them in which a color or a bind is refused ends
the run; if there is none, then the run goes on behind them, and a source that it
gives has the line and what stands for them, one after the other, behind what was
written before. Lines in which nothing is found to replace stand for themselves. -/
theorem foreign_lines_read_on {C : Type} [Substitutions C] (setup : Setup C) (root : SourceUnit)
    (c : C) (v : Visit) (hmem : v ∈ setup.visits root) (hv : v.Foreign) :
    (∀ bound, (∀ u ∈ v.continuation, Quiet u.carry.zone u.line) →
      readOn bound v.continuation = .ok (v.continuation.map (·.line))) ∧
    ∃ passed back, setup.visits root = passed ++ v :: (v.continuation ++ back) ∧
      ∀ log out r log', process setup root { context := c } log = ((out, r), log') →
        (∃ e ps, out = .error e ∧ Walk setup c passed r.calls.toList ps (.error e) r.context) ∨
        ∃ calls₁ ps₁ c₁, Walk setup c passed calls₁ ps₁ (.ok ()) c₁ ∧
          ((∃ place fault,
              readOn (Substitutions.bound? c₁) v.continuation = .error (place, fault) ∧
              out = .error (.refused place fault)) ∨
            ∃ texts, readOn (Substitutions.bound? c₁) v.continuation = .ok texts ∧
              (∃ calls₂ ps₂, r.calls.toList = calls₁ ++ calls₂ ∧
                Walk setup c₁ back calls₂ ps₂ (out.map fun _ => ()) r.context) ∧
              ∀ source, out = .ok source → ∃ lead more, source.text.toList =
                (Output.ofPieces (.marker 0 1 :: ps₁ ++ lead)).text.toList ++
                  (v.line :: texts).flatten ++ more) := by
  obtain ⟨passed, back, hvisits⟩ := setup.splits_visits root v hmem hv.unread
  refine ⟨fun bound => readOn_of_quiet bound, passed, back, hvisits, ?_⟩
  intro log out r log' hrun
  obtain ⟨ps, hwalk, htext⟩ := walk_of_process hrun
  rw [hvisits] at hwalk
  rcases hwalk.split with ⟨e, hout, hfail⟩ | ⟨calls₁, ps₁, c₁, calls₂, ps₂, hcalls, rfl, hpassed, hrest⟩
  · left
    cases out with
    | ok source => cases hout
    | error e' =>
      cases hout
      exact ⟨e, ps, rfl, hfail⟩
  · right
    refine ⟨calls₁, ps₁, c₁, hpassed, ?_⟩
    obtain ⟨lead, file, ps', rfl, hbehind⟩ := hv.walk hrest
    have hcontinued : ∀ u ∈ v.continuation, u.carry.continued = true :=
      fun u hu => Visit.continued_of_mem_joined hv.unread hu
    rcases hbehind.reads_on hcontinued with ⟨place, fault, hread, hout⟩ |
      ⟨texts, ps₂, ps₃, hread, rfl, hps₂, hback⟩
    · left
      refine ⟨place, fault, hread, ?_⟩
      cases out with
      | ok source => cases hout
      | error e =>
        cases hout
        rfl
    · right
      refine ⟨texts, hread, ⟨calls₂, ps₃, hcalls, hback⟩, fun source hout => ?_⟩
      have htexts : Texts (v.line :: texts) (.line file v.number v.line :: ps₂) :=
        .cons ⟨file, v.number, rfl⟩ hps₂
      obtain ⟨more, hmore⟩ := text_ofPieces_texts htexts (.marker 0 1 :: ps₁ ++ lead) ps₃
      refine ⟨lead, more, ?_⟩
      rw [htext source hout, ← hmore]
      congr 3
      simp only [List.cons_append, List.append_assoc]

/-- No files, and no requests. -/
def emptySetup : Setup Unit := { files := {}, requests := ⟨[]⟩ }

/-- The first line of a unit, where nothing is open. -/
def firstVisit (unit : SourceUnit) (line : String) : Visit := ⟨[], unit, 1, {}, line.toList⟩

/-- A directive that goes on in a line with a bind. -/
def pragmaUnit : SourceUnit := .ofText ⟨"1.frag"⟩ "#pragma a \\\n@x\n"

/-- A pragma is left to the compiler, whatever unit it stands in. -/
theorem foreign_pragma (unit : SourceUnit) : (firstVisit unit "#pragma a \\\n").Foreign where
  atLineStart := rfl
  starts := rfl
  unread := rfl

theorem visits_pragmaUnit : emptySetup.visits pragmaUnit =
    firstVisit pragmaUnit "#pragma a \\\n" ::
      (firstVisit pragmaUnit "#pragma a \\\n").continuation := rfl

/-- The bind in the second line of the directive is refused. -/
theorem not_foreign_lines_verbatim : ¬∀ (setup : Setup Unit) root, ∀ v ∈ setup.visits root, v.Foreign →
    ∀ u ∈ v :: v.continuation, ∀ name,
      (process setup root { context := () } #[]).1.1 ≠ .error (.refused u.place (.unresolvedBind name)) := by
  intro h
  have hmem : firstVisit pragmaUnit "#pragma a \\\n" ∈ emptySetup.visits pragmaUnit := by
    rw [visits_pragmaUnit]
    exact List.mem_cons_self ..
  have hjoined : (firstVisit pragmaUnit "#pragma a \\\n").next "@x\n".toList ∈
      (firstVisit pragmaUnit "#pragma a \\\n").continuation := List.mem_cons_self ..
  refine h emptySetup pragmaUnit _ hmem (foreign_pragma _) _ (List.mem_cons_of_mem _ hjoined) "x" ?_
  decide +kernel

/-- A directive that goes on in a line where nothing is replaced. -/
def quietUnit : SourceUnit := .ofText ⟨"1.frag"⟩ "#pragma a \\\nb\n"

theorem visits_quietUnit : emptySetup.visits quietUnit =
    firstVisit quietUnit "#pragma a \\\n" ::
      (firstVisit quietUnit "#pragma a \\\n").continuation := rfl

theorem process_quietUnit : (process emptySetup quietUnit { context := () } #[]).1.1 =
    .ok ⟨"#line 1 0\n#pragma a \\\nb\n", ⟨[⟨"1.frag"⟩], [⟨2, 0, 1⟩]⟩⟩ := by decide +kernel

theorem quietUnit_verbatim :
    (∀ bound, readOn bound (firstVisit quietUnit "#pragma a \\\n").continuation =
      .ok ["b\n".toList]) ∧
    ∃ source front texts more, (process emptySetup quietUnit { context := () } #[]).1.1 = .ok source ∧
      readOn (fun _ => none) (firstVisit quietUnit "#pragma a \\\n").continuation = .ok texts ∧
      source.text.toList = front ++ ("#pragma a \\\n".toList :: texts).flatten ++ more := by
  have hmem : firstVisit quietUnit "#pragma a \\\n" ∈ emptySetup.visits quietUnit := by
    rw [visits_quietUnit]
    exact List.mem_cons_self ..
  have hquiet : ∀ u ∈ (firstVisit quietUnit "#pragma a \\\n").continuation,
      Quiet u.carry.zone u.line := by
    intro u hu
    have hu' : u ∈ [(firstVisit quietUnit "#pragma a \\\n").next "b\n".toList] := hu
    rw [List.mem_singleton.1 hu']
    exact quiet_of_notMem (by decide) (by decide)
  obtain ⟨hcopied, passed, back, -, hruns⟩ :=
    foreign_lines_read_on emptySetup quietUnit () _ hmem (foreign_pragma _)
  refine ⟨fun bound => hcopied bound hquiet, ?_⟩
  have hread := hcopied (fun _ => none) hquiet
  have hsource := process_quietUnit
  rcases hrun : process emptySetup quietUnit { context := () } #[] with ⟨⟨out, r⟩, log'⟩
  rw [hrun] at hsource
  rcases hruns #[] out r log' hrun with ⟨e, ps, hout, -⟩ | ⟨calls₁, ps₁, c₁, -, hline⟩
  · cases hsource.symm.trans hout
  · rcases hline with ⟨place, fault, hfault, -⟩ | ⟨texts, htexts, -, hwritten⟩
    · cases hread.symm.trans hfault
    · obtain ⟨lead, more, htext⟩ := hwritten _ hsource
      exact ⟨_, _, texts, more, hsource, htexts, htext⟩

end AudioShader
