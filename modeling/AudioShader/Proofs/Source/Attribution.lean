/-
# Which source line a line of the output is resolved to

A line that is not consumed writes one piece. The map resolves the output line
on which that piece begins to the source line, unless the source line is stray:
it goes on, by a backslash or in a comment opened behind one, from a line that
was consumed. The numbering only restarts where a directive can stand, so what
a stray line writes is still counted from the place before the consumed line
(`resolve_iff_not_stray`).

Key definitions: `SourceUnit.standing`, `Reachable`, `Placed`.
Key theorems: `Processed.account`, `resolve_iff_not_stray`.
-/
import AudioShader.Proofs.Source.Position
import AudioShader.Proofs.Source.Trace

namespace AudioShader

open AudioShader.Action (Gives)

variable {C : Type}

/-! ### What a line finds -/

/-- What the lines in front of a line left. -/
structure Standing where
  carry : Carry := {}
  /-- The line goes on from a consumed one. -/
  stray : Bool := false

namespace Standing

/-- The directive that the line is; none if it cannot be read. -/
def directive (s : Standing) (line : List Char) : Option Directive :=
  match lineDirective s.carry line with
  | .ok d => d
  | .error _ => none

/-- What the line leaves for the next one. -/
def next (s : Standing) (line : List Char) : Standing where
  carry := s.carry.after (s.directive line) line
  stray := !(s.carry.after (s.directive line) line).atLineStart &&
    (if s.carry.atLineStart then isConsumed (s.directive line) else s.stray)

end Standing

namespace SourceUnit

def lines (u : SourceUnit) : List (List Char) := Text.splitLines u.text.toList

/-- What the line at an index finds. -/
def standing (u : SourceUnit) (i : Nat) : Standing := (u.lines.take i).foldl Standing.next {}

theorem standing_succ {u : SourceUnit} {i : Nat} {line : List Char} (h : u.lines[i]? = some line) :
    u.standing (i + 1) = (u.standing i).next line := by
  simp only [standing, List.take_add_one, h, Option.toList_some, List.foldl_append, List.foldl_cons,
    List.foldl_nil]

theorem standing_succ_carry {u : SourceUnit} {i : Nat} {line : List Char}
    (h : u.lines[i]? = some line) :
    (u.standing i).carry.after ((u.standing i).directive line) line = (u.standing (i + 1)).carry := by
  rw [standing_succ h, Standing.next]

end SourceUnit

/-- The contexts that handlers can make of a context. -/
inductive Reachable (requests : RequestTable C) (c : C) : C → Prop
  | start : Reachable requests c c
  | call {c₁ c₂ name request tokens args} : Reachable requests c c₁ →
      requests.get? name = some request → coerceArgs request.signature tokens = .ok args →
      request.handler args c₁ = (.ok (), c₂) → Reachable requests c c₂

theorem Dispatched.reachable {requests : RequestTable C} {place : LineRef} {name : String}
    {tokens : List Token} {c : C} {r r' : Run C} (h : Dispatched requests place name tokens r r')
    (hr : Reachable requests c r.context) : Reachable requests c r'.context := by
  obtain ⟨hg, ha, hh⟩ := h
  exact hr.call hg ha hh

/-! ### Where a line is written -/

/-- The output is at a line of a file. -/
def At (r : List Piece) (file number : Nat) : Prop := (Output.ofPieces r).here = some (file, number)

/-- The output is at a line in front of the given one, or at one of another file. -/
def Off (units : List SourceUnit) (r : List Piece) (unit : SourceUnit) (file number : Nat) : Prop :=
  ∃ f l v, At r f l ∧ units[f]? = some v ∧ (f = file ∧ l < number ∨ v.origin ≠ unit.origin)

/-- A piece is what is written for the line at an index of a unit, in a context
that handlers can make of `c`. -/
def Renders [Substitutions C] (requests : RequestTable C) (c : C) (unit : SourceUnit) (file i : Nat)
    (p : Piece) : Prop :=
  ∃ line c' front, unit.lines[i]? = some line ∧ Reachable requests c c' ∧
    lineDirective (unit.standing i).carry line = .ok ((unit.standing i).directive line) ∧
    Stands c' (unit.standing i).carry file (i + 1) line ((unit.standing i).directive line) (front ++ [p])

/-- A piece stands for the line at an index of a unit: it begins where the
output is at that line, unless the line is stray. -/
structure Placed [Substitutions C] (requests : RequestTable C) (c : C) (units : List SourceUnit)
    (unit : SourceUnit) (file i : Nat) (before : List Piece) (p : Piece) : Prop where
  text : Renders requests c unit file i p
  right : (unit.standing i).stray = false → At before file (i + 1)
  wrong : (unit.standing i).stray = true → Off units before unit file (i + 1)

/-- What stands for a line that is not consumed is one piece, behind a guard
and a marker if it is a definition. -/
theorem Stands.split [Substitutions C] {c : C} {k : Carry} {file number : Nat} {line : List Char}
    {d : Option Directive} {ps : List Piece} (h : Stands c k file number line d ps) :
    isConsumed d = false ∧ ∃ front p, ps = front ++ [p] ∧ p.source? = some (file, number) ∧
      (front = [] ∨ d.isSome = true ∧ ∃ name, front = [.guard name, .marker file number]) := by
  cases h with
  | define hs => exact ⟨rfl, [_, _], _, rfl, rfl, .inr ⟨rfl, _, rfl⟩⟩
  | expand hc => exact ⟨rfl, [], _, rfl, rfl, .inl rfl⟩
  | verbatim hc => exact ⟨rfl, [], _, rfl, rfl, .inl rfl⟩
  | body hc hs => exact ⟨rfl, [], _, rfl, rfl, .inl rfl⟩

/-- The last piece of a line that ends with a line feed has one line feed. -/
theorem Stands.countBreaks [Substitutions C] {c : C} {k : Carry} {file number : Nat}
    {line : List Char} {d : Option Directive} {front : List Piece} {p : Piece}
    (h : Stands c k file number line d (front ++ [p])) (hd : lineDirective k line = .ok d)
    (hb : ∀ name text, Substitutions.bound? c name = some text → '\n' ∉ text.toList)
    (hl : Text.IsLine line) (he : Text.endsLine line = true) :
    Text.countBreaks p.body.toList = 1 := by
  have hone := hl.countBreaks_of_endsLine he
  generalize hps : front ++ [p] = ps at h
  have hlast : ps.getLast? = some p := by rw [← hps]; simp
  cases h with
  | @define name text inComment hs =>
    obtain rfl : Piece.line file number text = p := by simpa using hlast
    simp only [Piece.body, String.toList_ofList]
    rw [(scanDefine_breaksLike hb hs).count, hone]
  | @expand name control count hc =>
    obtain rfl : Piece.calls file number name count = p := by simpa using hlast
    exact countBreaks_expansion (unbroken_of_expand hl hd) _
  | verbatim hc =>
    obtain rfl : Piece.line file number line = p := by simpa using hlast
    simp only [Piece.body, String.toList_ofList]
    exact hone
  | @body text inComment hc hs =>
    obtain rfl : Piece.line file number text = p := by simpa using hlast
    simp only [Piece.body, String.toList_ofList]
    rw [(scan_breaksLike hb hs).count, hone]

theorem lineDirective_of_not_atLineStart {k : Carry} {line : List Char}
    (h : k.atLineStart = false) : lineDirective k line = .ok none := by
  simp [lineDirective, h]

theorem Standing.atLineStart_of_isConsumed {s : Standing} {line : List Char}
    (h : isConsumed (s.directive line) = true) : s.carry.atLineStart = true := by
  by_contra ha
  rw [Standing.directive, lineDirective_of_not_atLineStart (by simpa using ha)] at h
  cases h

namespace SourceUnit

theorem standing_succ_of_none {u : SourceUnit} {i : Nat} (h : u.lines[i]? = none) :
    u.standing (i + 1) = u.standing i := by
  simp only [standing, List.take_add_one, h, Option.toList_none, List.append_nil]

/-- A stray line has the numbering still to restart, and cannot restart it. -/
theorem standing_of_stray (u : SourceUnit) (i : Nat) (h : (u.standing i).stray = true) :
    (u.standing i).carry.pending = true ∧ (u.standing i).carry.atLineStart = false := by
  induction i with
  | zero => cases h
  | succ i ih =>
    cases hl : u.lines[i]? with
    | none =>
      rw [standing_succ_of_none hl] at h ⊢
      exact ih h
    | some line =>
      rw [standing_succ hl] at h ⊢
      simp only [Standing.next, Bool.and_eq_true, Bool.not_eq_true'] at h ⊢
      refine ⟨?_, h.1⟩
      by_cases ha : (u.standing i).carry.atLineStart = true
      · have hc : isConsumed ((u.standing i).directive line) = true := by simpa [ha] using h.2
        cases hd : (u.standing i).directive line with
        | none => rw [hd] at hc; cases hc
        | some d => rfl
      · have hp := ih (by simpa [ha] using h.2)
        simp [Carry.after, Carry.restarts, hp.1, hp.2]

/-- A line is stray if it goes on from a consumed one: no line behind that one
begins where a directive can stand. -/
theorem stray_iff (u : SourceUnit) (i : Nat) : (u.standing i).stray = true ↔
    ∃ j < i, (∃ line, u.lines[j]? = some line ∧
        isConsumed ((u.standing j).directive line) = true) ∧
      ∀ k, j < k → k ≤ i → (u.standing k).carry.atLineStart = false := by
  induction i with
  | zero => simp [standing]
  | succ i ih =>
    cases hl : u.lines[i]? with
    | none =>
      have hs := standing_succ_of_none hl
      rw [hs, ih]
      constructor
      · rintro ⟨j, hj, hc, hk⟩
        refine ⟨j, by omega, hc, fun k hjk hki => ?_⟩
        rcases Nat.eq_or_lt_of_le hki with rfl | hlt
        · rw [hs]
          exact hk i hj (Nat.le_refl _)
        · exact hk k hjk (by omega)
      · rintro ⟨j, hj, hc, hk⟩
        have hne : j ≠ i := by
          rintro rfl
          obtain ⟨line, hline, -⟩ := hc
          rw [hl] at hline
          cases hline
        exact ⟨j, by omega, hc, fun k hjk hki => hk k hjk (by omega)⟩
    | some line =>
      have hstray : (u.standing (i + 1)).stray = true ↔
          (u.standing (i + 1)).carry.atLineStart = false ∧
            (if (u.standing i).carry.atLineStart then isConsumed ((u.standing i).directive line)
              else (u.standing i).stray) = true := by
        rw [standing_succ hl]
        simp only [Standing.next, Bool.and_eq_true, Bool.not_eq_true']
      rw [hstray]
      constructor
      · rintro ⟨ha, hs⟩
        by_cases hstart : (u.standing i).carry.atLineStart = true
        · rw [if_pos hstart] at hs
          refine ⟨i, by omega, ⟨line, hl, hs⟩, fun k hik hki => ?_⟩
          obtain rfl : k = i + 1 := by omega
          exact ha
        · rw [if_neg hstart] at hs
          obtain ⟨j, hj, hc, hk⟩ := ih.1 hs
          refine ⟨j, by omega, hc, fun k hjk hki => ?_⟩
          rcases Nat.eq_or_lt_of_le hki with rfl | hlt
          · exact ha
          · exact hk k hjk (by omega)
      · rintro ⟨j, hj, hc, hk⟩
        refine ⟨hk (i + 1) (by omega) (Nat.le_refl _), ?_⟩
        rcases Nat.eq_or_lt_of_le (Nat.le_of_lt_succ hj) with rfl | hlt
        · -- a directive was read on the line, so it begins where one can stand
          obtain ⟨line', hl', hc⟩ := hc
          rw [hl] at hl'
          cases hl'
          rw [if_pos (Standing.atLineStart_of_isConsumed hc)]
          exact hc
        · rw [if_neg (by rw [hk i hlt (by omega)]; exact Bool.false_ne_true)]
          exact ih.2 ⟨j, hlt, hc, fun k hjk hki => hk k hjk (by omega)⟩

end SourceUnit

/-! ### Moving on -/

theorem at_marker (ps : List Piece) (file number : Nat) :
    At (ps ++ [.marker file number]) file number := by
  rw [At, Output.ofPieces_concat, Output.here_marker]

theorem not_marker_of_source? {p : Piece} {s : Nat × Nat} (h : p.source? = some s) :
    ∀ file line, p ≠ .marker file line := by
  rintro file line rfl
  cases h

theorem At.concat {ps : List Piece} {file number : Nat} (h : At ps file number) {p : Piece}
    {s : Nat × Nat} (hp : p.source? = some s) :
    At (ps ++ [p]) file (number + Text.countBreaks p.body.toList) := by
  rw [At, Output.ofPieces_concat,
    Output.here_write (Output.sound_ofPieces ps) (not_marker_of_source? hp), h]
  rfl

theorem getElem?_mono {α : Type} {xs ys : List α} (h : xs <+: ys) {i : Nat} {x : α}
    (hx : xs[i]? = some x) : ys[i]? = some x := by
  obtain ⟨t, rfl⟩ := h
  obtain ⟨hi, -⟩ := List.getElem?_eq_some_iff.1 hx
  rw [List.getElem?_append_left hi, hx]

section Off

variable {units units' : List SourceUnit} {ps : List Piece} {unit : SourceUnit} {file number : Nat}

theorem Off.mono (h : Off units ps unit file number) (hu : units <+: units') :
    Off units' ps unit file number := by
  obtain ⟨f, l, v, hat, hv, ho⟩ := h
  exact ⟨f, l, v, hat, getElem?_mono hu hv, ho⟩

theorem Off.succ (h : Off units ps unit file number) : Off units ps unit file (number + 1) := by
  obtain ⟨f, l, v, hat, hv, ⟨rfl, hl⟩ | ho⟩ := h
  · exact ⟨f, l, v, hat, hv, .inl ⟨rfl, by omega⟩⟩
  · exact ⟨f, l, v, hat, hv, .inr ho⟩

theorem Off.concat (h : Off units ps unit file number) {p : Piece} {s : Nat × Nat}
    (hp : p.source? = some s) (hone : Text.countBreaks p.body.toList = 1) :
    Off units (ps ++ [p]) unit file (number + 1) := by
  obtain ⟨f, l, v, hat, hv, ho⟩ := h
  have hat' := hat.concat hp
  rw [hone] at hat'
  rcases ho with ⟨rfl, hl⟩ | ho
  · exact ⟨f, l + 1, v, hat', hv, .inl ⟨rfl, by omega⟩⟩
  · exact ⟨f, l + 1, v, hat', hv, .inr ho⟩

theorem At.off (h : At ps file number) (hu : units[file]? = some unit) :
    Off units ps unit file (number + 1) := ⟨file, number, unit, h, hu, .inl ⟨rfl, Nat.lt_succ_self _⟩⟩

end Off

/-- In front of a line of a unit, with `outer` the files opened around it: the
output is at the line or off it, and off it only if the line is stray or the
numbering is about to restart. -/
structure Tracks (files : FileTree) (outer : List FileIdentity) (units : List SourceUnit)
    (unit : SourceUnit) (file i : Nat) (r : Run C) : Prop where
  paths : units.map (·.origin) = r.files.toList
  opened : units[file]? = some unit
  inside : ∃ f l v, At r.pieces.toList f l ∧ units[f]? = some v ∧ files.identity v.origin ∉ outer
  found : i < unit.lines.length → Off units r.pieces.toList unit file (i + 1) ∨
    (unit.standing i).stray = false ∧ At r.pieces.toList file (i + 1)
  right : i < unit.lines.length → (unit.standing i).stray = false →
    ((unit.standing i).carry.pending && (unit.standing i).carry.atLineStart) = false →
    At r.pieces.toList file (i + 1)

/-- What comes between two states of a run, of which `units` and `units'` are
the units opened so far: every piece for a source line is placed, and no line of
a unit opened meanwhile is left out. -/
structure Accounts [Substitutions C] (setup : Setup C) (c : C) (units units' : List SourceUnit)
    (r r' : Run C) : Prop where
  grows : units <+: units'
  paths : units'.map (·.origin) = r'.files.toList
  pieces : r.pieces.toList <+: r'.pieces.toList
  read : ∀ u ∈ units'.drop units.length, setup.files.readText u.origin = .ok u.text
  placed : ∀ before p rest file number, r'.pieces.toList = before ++ p :: rest →
    r.pieces.toList.length ≤ before.length → p.source? = some (file, number) →
    ∃ u i, number = i + 1 ∧ units'[file]? = some u ∧
      Placed setup.requests c units' u file i before p
  written : ∀ file u i line, units.length ≤ file → units'[file]? = some u →
    u.lines[i]? = some line → isConsumed ((u.standing i).directive line) = false →
    ∃ p ∈ r'.pieces.toList, p.source? = some (file, i + 1)

section Accounts

variable [Substitutions C] {setup : Setup C} {c : C} {units units₁ units' : List SourceUnit}
  {unit : SourceUnit} {file i : Nat} {r r₁ r' : Run C}

theorem Placed.mono {before : List Piece} {p : Piece}
    (h : Placed setup.requests c units unit file i before p) (hu : units <+: units') :
    Placed setup.requests c units' unit file i before p :=
  ⟨h.text, h.right, fun hs => (h.wrong hs).mono hu⟩

/-- Nothing was written, and no file was opened. -/
theorem Accounts.of_pieces_eq (hp : units.map (·.origin) = r'.files.toList)
    (h : r'.pieces.toList = r.pieces.toList) : Accounts setup c units units r r' := by
  refine ⟨List.prefix_refl _, hp, ⟨[], by rw [h, List.append_nil]⟩, by simp, ?_, ?_⟩
  · intro before p rest f n hs hlen
    rw [← h, hs] at hlen
    simp only [List.length_append, List.length_cons] at hlen
    omega
  · intro f u j line hf hu
    rw [List.getElem?_eq_none hf] at hu
    cases hu

theorem Accounts.trans (h₁ : Accounts setup c units units₁ r r₁)
    (h₂ : Accounts setup c units₁ units' r₁ r') : Accounts setup c units units' r r' := by
  refine ⟨h₁.grows.trans h₂.grows, h₂.paths, h₁.pieces.trans h₂.pieces, ?_, ?_, ?_⟩
  · intro u hu
    obtain ⟨t₁, rfl⟩ := h₁.grows
    obtain ⟨t₂, rfl⟩ := h₂.grows
    have hr₁ := h₁.read u
    have hr₂ := h₂.read u
    simp only [List.append_assoc, List.drop_left] at hr₁ hr₂ hu
    rcases List.mem_append.1 hu with hu | hu
    · exact hr₁ hu
    · exact hr₂ (by rwa [← List.append_assoc, List.drop_left])
  · intro before p rest f n hs hlen hsrc
    by_cases hin : r₁.pieces.toList.length ≤ before.length
    · exact h₂.placed before p rest f n hs hin hsrc
    · -- the piece was written before `r₁`
      obtain ⟨more, hmore⟩ := h₂.pieces
      have hs₁ : ∃ rest₁, r₁.pieces.toList = before ++ p :: rest₁ := by
        have hpre : before ++ [p] <+: r₁.pieces.toList := by
          have hall : before ++ [p] <+: r'.pieces.toList := ⟨rest, by simp [hs]⟩
          refine List.prefix_of_prefix_length_le hall ⟨more, hmore⟩ ?_
          simp only [List.length_append, List.length_singleton]
          omega
        obtain ⟨rest₁, hr₁⟩ := hpre
        exact ⟨rest₁, by simp [← hr₁]⟩
      obtain ⟨rest₁, hs₁⟩ := hs₁
      obtain ⟨u, j, hn, hu, hp⟩ := h₁.placed before p rest₁ f n hs₁ hlen hsrc
      exact ⟨u, j, hn, getElem?_mono h₂.grows hu, hp.mono h₂.grows⟩
  · intro f u j line hf hu hl hc
    by_cases hin : units₁.length ≤ f
    · exact h₂.written f u j line hin hu hl hc
    · have hu₁ : units₁[f]? = some u := by
        obtain ⟨t, rfl⟩ := h₂.grows
        rwa [List.getElem?_append_left (by omega)] at hu
      obtain ⟨p, hp, hsrc⟩ := h₁.written f u j line hf hu₁ hl hc
      exact ⟨p, h₂.pieces.subset hp, hsrc⟩

end Accounts

/-! ### One line -/

theorem Standing.directive_of_ok {s : Standing} {line : List Char} {d : Option Directive}
    (h : lineDirective s.carry line = .ok d) : s.directive line = d := by
  simp only [Standing.directive, h]

/-- How a line is left whose directive is known. -/
theorem SourceUnit.carry_succ {u : SourceUnit} {i : Nat} {line : List Char} {d : Option Directive}
    (hl : u.lines[i]? = some line) (hd : lineDirective (u.standing i).carry line = .ok d) :
    (u.standing i).carry.after d line = (u.standing (i + 1)).carry := by
  rw [← standing_succ_carry hl, Standing.directive_of_ok hd]

/-- Nothing that restarts the numbering stands for a source line. -/
theorem Carry.source?_of_mem_lead {k : Carry} {d : Option Directive} {file number : Nat} {p : Piece}
    (h : p ∈ k.lead d file number) : p.source? = none := by
  rw [Carry.lead] at h
  split at h
  · rw [List.mem_singleton.1 h]
    rfl
  · cases h

/-- Of the pieces of one line only the last one stands for a source line. -/
theorem split_of_silent {xs ys before rest : List Piece} {p q : Piece} {s : Nat × Nat}
    (h : xs ++ ys ++ [p] = before ++ q :: rest) (hlen : xs.length ≤ before.length)
    (hy : ∀ y ∈ ys, y.source? = none) (hq : q.source? = some s) : before = xs ++ ys ∧ q = p := by
  rcases List.eq_nil_or_concat rest with rfl | ⟨rest', z, rfl⟩
  · obtain ⟨hb, hp⟩ := List.append_inj' h rfl
    cases hp
    exact ⟨hb.symm, rfl⟩
  · exfalso
    rw [List.concat_eq_append, ← List.cons_append, ← List.append_assoc] at h
    obtain ⟨hb, -⟩ := List.append_inj' h rfl
    obtain ⟨b, rfl⟩ : xs <+: before :=
      List.prefix_of_prefix_length_le ⟨ys, hb⟩ ⟨q :: rest', rfl⟩ hlen
    rw [List.append_assoc] at hb
    have hmem : q ∈ ys := by rw [List.append_cancel_left hb]; simp
    rw [hy q hmem] at hq
    cases hq

section Line

variable {outer : List FileIdentity} {units : List SourceUnit} {unit : SourceUnit} {file i : Nat}
  {r : Run C} {line : List Char} {d : Option Directive}

/-- In front of the last piece of a line the output is where it should be. -/
theorem Tracks.before {front : List Piece} {files : FileTree}
    (ht : Tracks files outer units unit file i r) (hl : i < unit.lines.length)
    (hd : lineDirective (unit.standing i).carry line = .ok d) (hc : isConsumed d = false)
    (hfront : front = [] ∨ d.isSome = true ∧ ∃ name, front = [.guard name, .marker file (i + 1)]) :
    ((unit.standing i).stray = false →
        At (r.pieces.toList ++ ((unit.standing i).carry.lead d file (i + 1) ++ front)) file (i + 1)) ∧
      ((unit.standing i).stray = true →
        (unit.standing i).carry.lead d file (i + 1) ++ front = [] ∧
        Off units r.pieces.toList unit file (i + 1)) := by
  constructor
  · intro hs
    rcases hfront with rfl | ⟨-, name, rfl⟩
    · rw [List.append_nil]
      by_cases hr : (unit.standing i).carry.restarts d = true
      · rw [Carry.lead, if_pos hr]
        exact at_marker _ file (i + 1)
      · rw [Carry.lead, if_neg hr, List.append_nil]
        refine ht.right hl hs ?_
        simpa [Carry.restarts, hc] using hr
    · have := at_marker (r.pieces.toList ++ (unit.standing i).carry.lead d file (i + 1) ++
        [.guard name]) file (i + 1)
      simpa using this
  · intro hs
    obtain ⟨-, ha⟩ := unit.standing_of_stray i hs
    rw [lineDirective_of_not_atLineStart ha] at hd
    cases hd
    rcases hfront with rfl | ⟨hf, -⟩
    · refine ⟨by simp [Carry.lead, Carry.restarts, ha], ?_⟩
      rcases ht.found hl with ho | ⟨hn, -⟩
      · exact ho
      · rw [hs] at hn
        cases hn
    · cases hf

variable [Substitutions C] {setup : Setup C} {c : C}

/-- Behind a line that is written the output is at the next line or off it. -/
theorem Tracks.written {ps : List Piece} (hb : ∀ c', Reachable setup.requests c c' →
      ∀ name text, Substitutions.bound? c' name = some text → '\n' ∉ text.toList)
    (ht : Tracks setup.files outer units unit file i r)
    (hself : setup.files.identity unit.origin ∉ outer) (hl : unit.lines[i]? = some line)
    (hd : lineDirective (unit.standing i).carry line = .ok d)
    (hr : Reachable setup.requests c r.context)
    (hs : Stands r.context (unit.standing i).carry file (i + 1) line d ps) :
    let r' := r.add ((unit.standing i).carry.lead d file (i + 1) ++ ps)
    Accounts setup c units units r r' ∧ Tracks setup.files outer units unit file (i + 1) r' ∧
      ∃ p ∈ r'.pieces.toList, p.source? = some (file, i + 1) := by
  intro r'
  obtain ⟨hi, -⟩ := List.getElem?_eq_some_iff.1 hl
  obtain ⟨hc, front, p, rfl, hsrc, hfront⟩ := hs.split
  obtain ⟨hright, hwrong⟩ := ht.before hi hd hc hfront
  obtain ⟨hline, hends⟩ := Text.isLine_of_cut (Text.cut_splitLines unit.text.toList) hl
  have hdir := Standing.directive_of_ok hd
  set lead := (unit.standing i).carry.lead d file (i + 1) with hlead
  have hpieces : r'.pieces.toList = r.pieces.toList ++ (lead ++ front) ++ [p] := by
    simp only [r', Run.add_pieces, hlead, List.append_assoc]
  have hone : i + 1 < unit.lines.length → Text.countBreaks p.body.toList = 1 := fun h =>
    hs.countBreaks hd (hb _ hr) hline (hends h)
  have hat : i + 1 < unit.lines.length → (unit.standing i).stray = false →
      At r'.pieces.toList file (i + 1 + 1) := by
    intro hlt hst
    have := (hright hst).concat hsrc
    rwa [hone hlt, ← hpieces] at this
  have hnext := SourceUnit.standing_succ hl
  have hplaced : Placed setup.requests c units unit file i (r.pieces.toList ++ (lead ++ front)) p := by
    refine ⟨⟨line, r.context, front, hl, hr, ?_, ?_⟩, hright, fun h => ?_⟩
    · rw [hdir, hd]
    · rw [hdir]
      exact hs
    · obtain ⟨hnil, ho⟩ := hwrong h
      rwa [hnil, List.append_nil]
  refine ⟨⟨List.prefix_refl _, ht.paths, ⟨_, by rw [hpieces, List.append_assoc]⟩, by simp, ?_, ?_⟩,
    ⟨ht.paths, ht.opened, ?_, ?_, ?_⟩, ⟨p, by rw [hpieces]; simp, hsrc⟩⟩
  · intro before q rest f n heq hlen hq
    rw [hpieces] at heq
    have hsilent : ∀ y ∈ lead ++ front, y.source? = none := by
      intro y hy
      rcases List.mem_append.1 hy with hy | hy
      · exact Carry.source?_of_mem_lead (hlead ▸ hy)
      · rcases hfront with rfl | ⟨-, name, rfl⟩
        · cases hy
        · simp only [List.mem_cons, List.not_mem_nil, or_false] at hy
          rcases hy with rfl | rfl <;> rfl
    obtain ⟨rfl, rfl⟩ := split_of_silent heq hlen hsilent hq
    rw [hsrc] at hq
    cases hq
    exact ⟨unit, i, rfl, ht.opened, hplaced⟩
  · intro f u j line' hf hu
    rw [List.getElem?_eq_none hf] at hu
    cases hu
  · rw [hpieces]
    cases hst : (unit.standing i).stray with
    | false => exact ⟨_, _, unit, (hright hst).concat hsrc, ht.opened, hself⟩
    | true =>
      obtain ⟨hnil, -⟩ := hwrong hst
      obtain ⟨f, l, v, hat, hv, ho⟩ := ht.inside
      rw [hnil, List.append_nil]
      exact ⟨_, _, v, hat.concat hsrc, hv, ho⟩
  · intro hlt
    cases hst : (unit.standing i).stray with
    | false => exact .inr ⟨by simp [hnext, Standing.next, hdir, hc, hst], hat hlt hst⟩
    | true =>
      obtain ⟨hnil, ho⟩ := hwrong hst
      rw [hpieces, hnil, List.append_nil]
      exact .inl (ho.concat hsrc (hone hlt))
  · intro hlt hst' hpend
    cases hst : (unit.standing i).stray with
    | false => exact hat hlt hst
    | true =>
      -- the next line would restart the numbering
      obtain ⟨hp, ha⟩ := unit.standing_of_stray i hst
      rw [hnext] at hst' hpend
      simp only [Standing.next, hdir, ha, hst, Bool.false_eq_true, if_false, Bool.and_true,
        Bool.not_eq_false'] at hst' hpend
      rw [hst'] at hpend
      simp [Carry.after, Carry.restarts, hp, ha] at hpend

theorem atLineStart_of_directive {k : Carry} {d : Directive}
    (h : lineDirective k line = .ok (some d)) : k.atLineStart = true := by
  unfold lineDirective at h
  split at h
  · next ha => exact (Bool.and_eq_true_iff.1 ha).1
  · cases h

omit [Substitutions C] in
/-- Behind a consumed line the output is off the next one, which waits for the
numbering to restart or is stray. -/
theorem Tracks.consumed {d : Directive} {units' : List SourceUnit} {r' : Run C} {files : FileTree}
    (hl : unit.lines[i]? = some line) (hd : lineDirective (unit.standing i).carry line = .ok (some d))
    (hc : isConsumed (some d) = true) (hp : units'.map (·.origin) = r'.files.toList)
    (hu : units'[file]? = some unit)
    (hin : ∃ f l v, At r'.pieces.toList f l ∧ units'[f]? = some v ∧ files.identity v.origin ∉ outer)
    (ho : i < unit.lines.length → Off units' r'.pieces.toList unit file (i + 1 + 1)) :
    Tracks files outer units' unit file (i + 1) r' := by
  refine ⟨hp, hu, hin, fun h => .inl (ho (Nat.lt_of_succ_lt h)), fun _ hs hr => ?_⟩
  exfalso
  rw [SourceUnit.standing_succ hl] at hs hr
  have ha := atLineStart_of_directive hd
  simp only [Standing.next, Standing.directive_of_ok hd, ha, hc, if_true, Bool.and_true,
    Bool.not_eq_false'] at hs hr
  rw [hs] at hr
  simp [Carry.after] at hr

end Line

/-! ### A whole run -/

section Runs

variable [Substitutions C] {setup : Setup C} {c : C} {units units' : List SourceUnit}
  {unit : SourceUnit} {r r' : Run C}

/-- A file is opened, and its lines are processed. -/
theorem Accounts.opened {path : Path}
    (h : Accounts setup c (units ++ [unit]) units' (r.opened path) r')
    (hr : setup.files.readText unit.origin = .ok unit.text)
    (hw : ∀ i line, unit.lines[i]? = some line →
      isConsumed ((unit.standing i).directive line) = false →
      ∃ p ∈ r'.pieces.toList, p.source? = some (units.length, i + 1)) :
    Accounts setup c units units' r r' := by
  obtain ⟨more, hmore⟩ := h.pieces
  rw [Run.opened_pieces] at hmore
  refine ⟨(List.prefix_append _ _).trans h.grows, h.paths, ⟨_, by rw [← hmore, List.append_assoc]⟩,
    ?_, ?_, ?_⟩
  · intro u hu
    obtain ⟨t, rfl⟩ := h.grows
    have hread := h.read u
    simp only [List.append_assoc, List.drop_left, List.singleton_append, List.mem_cons] at hu
    rcases hu with rfl | hu
    · exact hr
    · exact hread (by rwa [List.drop_left])
  · intro before p rest f n hs hlen hsrc
    refine h.placed before p rest f n hs ?_ hsrc
    rw [Run.opened_pieces, List.length_append, List.length_singleton]
    by_contra hlt
    have hlen' : r.pieces.toList.length = before.length := by omega
    rw [← hmore, List.append_assoc] at hs
    obtain ⟨-, hp⟩ := List.append_inj hs hlen'
    cases hp
    cases hsrc
  · intro f u i line hf hu hl hc
    rcases Nat.eq_or_lt_of_le hf with rfl | hf
    · obtain ⟨t, rfl⟩ := h.grows
      rw [List.append_assoc, List.getElem?_append_right (Nat.le_refl _), Nat.sub_self] at hu
      cases hu
      exact hw i line hl hc
    · exact h.written f u i line (by simpa using Nat.succ_le_of_lt hf) hu hl hc

theorem getElem?_of_cons_eq_drop {α : Type} {ls rest : List α} {line : α} {i : Nat}
    (h : line :: rest = ls.drop i) : ls[i]? = some line ∧ rest = ls.drop (i + 1) := by
  constructor
  · rw [← List.head?_drop, ← h, List.head?_cons]
  · rw [← List.tail_drop, ← h, List.tail_cons]

/-- What holds of every line that is written behind a consumed one holds of every
line that is written from there on. -/
theorem SourceUnit.written_of_consumed {u : SourceUnit} {i : Nat} {line : List Char}
    {d : Option Directive} {P : Nat → Prop} (hl : u.lines[i]? = some line)
    (hd : lineDirective (u.standing i).carry line = .ok d) (hc : isConsumed d = true)
    (h : ∀ j line', i + 1 ≤ j → u.lines[j]? = some line' →
      isConsumed ((u.standing j).directive line') = false → P j) :
    ∀ j line', i ≤ j → u.lines[j]? = some line' →
      isConsumed ((u.standing j).directive line') = false → P j := by
  intro j line' hj hl' hwritten
  rcases Nat.eq_or_lt_of_le hj with rfl | hj
  · rw [hl] at hl'
    cases hl'
    rw [Standing.directive_of_ok hd, hc] at hwritten
    cases hwritten
  · exact h j line' hj hl' hwritten

/-- Every piece that a successful run writes for a source line is placed, no
line is left out, and the output is not at a line of a file opened around. -/
theorem Processed.account {stack : List FileIdentity} {file number : Nat} {k : Carry}
    {lines : List (List Char)} (hb : ∀ c', Reachable setup.requests c c' →
      ∀ name text, Substitutions.bound? c' name = some text → '\n' ∉ text.toList)
    (h : Processed setup stack unit file number k lines r r') :
    ∀ {outer : List FileIdentity} {units : List SourceUnit} {i : Nat},
      stack = outer ++ [setup.files.identity unit.origin] →
      setup.files.identity unit.origin ∉ outer →
      number = i + 1 → lines = unit.lines.drop i → k = (unit.standing i).carry →
      Reachable setup.requests c r.context → Tracks setup.files outer units unit file i r →
      ∃ units', Accounts setup c units units' r r' ∧ Reachable setup.requests c r'.context ∧
        (∃ f l v, At r'.pieces.toList f l ∧ units'[f]? = some v ∧
          setup.files.identity v.origin ∉ outer) ∧
        ∀ j line, i ≤ j → unit.lines[j]? = some line →
          isConsumed ((unit.standing j).directive line) = false →
          ∃ p ∈ r'.pieces.toList, p.source? = some (file, j + 1) := by
  induction h with
  | @done stack unit file number k r =>
    intro outer units i hstack hself hnum hlines hk hr ht
    refine ⟨units, .of_pieces_eq ht.paths rfl, hr, ht.inside, fun j line hj hl => ?_⟩
    have hlen : unit.lines.length ≤ i := by simpa using hlines.symm
    rw [List.getElem?_eq_none (by omega)] at hl
    cases hl
  | @includeFile stack unit file number k line rest r r₁ r' target path text hd hp hroom hin htext
      hnested hrest ihn ihr =>
    intro outer units i hstack hself hnum hlines hk hr ht
    subst hk hnum
    obtain ⟨hl, hlines⟩ := getElem?_of_cons_eq_drop hlines
    have hsize : units.length = r.files.size := by simpa using congrArg List.length ht.paths
    have ht₀ : Tracks setup.files stack (units ++ [unit.nested path text]) (unit.nested path text)
        r.files.size 0 (r.opened path) := by
      have hat : At (r.opened path).pieces.toList r.files.size 1 := by
        rw [Run.opened_pieces]
        exact at_marker _ _ _
      have hu : (units ++ [unit.nested path text])[r.files.size]? = some (unit.nested path text) := by
        rw [← hsize, List.getElem?_append_right (Nat.le_refl _), Nat.sub_self]
        rfl
      refine ⟨?_, hu, ⟨_, _, _, hat, hu, hin⟩, fun _ => .inr ⟨rfl, hat⟩, fun _ _ _ => hat⟩
      rw [List.map_append, ht.paths, Run.opened_files]
      rfl
    obtain ⟨units₁, hacc, hr₁, ⟨f, l, v, hat, hv, hforeign⟩, hall⟩ :=
      ihn rfl hin rfl rfl rfl hr ht₀
    have hacc₁ : Accounts setup c units units₁ r r₁ := by
      refine hacc.opened htext fun j line' hl' hc' => ?_
      rw [hsize]
      exact hall j line' (Nat.zero_le _) hl' hc'
    have hvout : setup.files.identity v.origin ∉ outer := fun hm =>
      hforeign (by rw [hstack]; exact List.mem_append_left _ hm)
    have hne : v.origin ≠ unit.origin := by
      intro he
      rw [he, hstack] at hforeign
      exact hforeign (by simp)
    have ht₁ : Tracks setup.files outer units₁ unit file (i + 1) r₁ :=
      .consumed hl hd rfl hacc₁.paths (getElem?_mono hacc₁.grows ht.opened)
        ⟨f, l, v, hat, hv, hvout⟩ fun _ => ⟨f, l, v, hat, hv, .inr hne⟩
    obtain ⟨units₂, hacc₂, hr₂, hout, hrest⟩ :=
      ihr hstack hself rfl hlines (SourceUnit.carry_succ hl hd) hr₁ ht₁
    exact ⟨units₂, hacc₁.trans hacc₂, hr₂, hout, SourceUnit.written_of_consumed hl hd rfl hrest⟩
  | @request stack unit file number k line rest r r₁ r' name args hd hdisp hrest ih =>
    intro outer units i hstack hself hnum hlines hk hr ht
    subst hk hnum
    obtain ⟨hl, hlines⟩ := getElem?_of_cons_eq_drop hlines
    have hsame : r₁.pieces = r.pieces ∧ r₁.files = r.files := by
      cases hdisp
      exact ⟨rfl, rfl⟩
    have hpaths : units.map (·.origin) = r₁.files.toList := by rw [hsame.2, ht.paths]
    have ht₁ : Tracks setup.files outer units unit file (i + 1) r₁ := by
      refine .consumed hl hd rfl hpaths ht.opened ?_ fun hlt => ?_ <;> rw [hsame.1]
      · exact ht.inside
      · rcases ht.found hlt with ho | ⟨-, hat⟩
        · exact ho.succ
        · exact hat.off ht.opened
    obtain ⟨units₂, hacc₂, hr₂, hout, hrest⟩ :=
      ih hstack hself rfl hlines (SourceUnit.carry_succ hl hd) (hdisp.reachable hr) ht₁
    have hacc₁ : Accounts setup c units units r r₁ := .of_pieces_eq hpaths (by rw [hsame.1])
    exact ⟨units₂, hacc₁.trans hacc₂, hr₂, hout, SourceUnit.written_of_consumed hl hd rfl hrest⟩
  | @written stack unit file number k line rest r r' d ps hd hs hrest ih =>
    intro outer units i hstack hself hnum hlines hk hr ht
    subst hk hnum
    obtain ⟨hl, hlines⟩ := getElem?_of_cons_eq_drop hlines
    obtain ⟨hacc₁, ht₁, p, hp, hsrc⟩ := ht.written hb hself hl hd hr hs
    obtain ⟨units₂, hacc₂, hr₂, hout, hrest⟩ :=
      ih hstack hself rfl hlines (SourceUnit.carry_succ hl hd) hr ht₁
    refine ⟨units₂, hacc₁.trans hacc₂, hr₂, hout, fun j line' hj hl' hc' => ?_⟩
    rcases Nat.eq_or_lt_of_le hj with rfl | hj
    · exact ⟨p, hacc₂.pieces.subset hp, hsrc⟩
    · exact hrest j line' hj hl' hc'

/-- The output line on which a placed piece begins is resolved to its source
line if and only if that line is not stray. -/
theorem Placed.resolve {before rest : List Piece} {p : Piece} {file i : Nat}
    (h : Placed setup.requests c units unit file i before p) (hu : units[file]? = some unit)
    (hpaths : units.map (·.origin) = r.files.toList)
    (hs : r.pieces.toList = before ++ p :: rest) :
    r.source.map.resolve (Output.ofPieces before).line = some ⟨unit.origin, i + 1⟩ ↔
      (unit.standing i).stray = false := by
  have hext : Output.Extends (Output.ofPieces before) (Output.ofPieces r.pieces.toList) := by
    rw [hs, Output.ofPieces_append]
    exact Output.extends_foldl _ _
  have hres := Output.resolve_line (Output.sound_ofPieces before) hext r.files.toList
  have hpath : ∀ {f : Nat} {v : SourceUnit}, units[f]? = some v → r.files.toList[f]? = some v.origin := by
    intro f v hv
    rw [← hpaths, List.getElem?_map, hv]
    rfl
  constructor
  · intro hto
    by_contra hst
    obtain ⟨f, l, v, hat, hv, ho⟩ := h.wrong (by simpa using hst)
    rw [At] at hat
    rw [hat] at hres
    simp only [Option.bind_some, hpath hv, Option.map_some] at hres
    have heq : (⟨v.origin, l⟩ : LineRef) = ⟨unit.origin, i + 1⟩ := Option.some.inj (hres.symm.trans hto)
    obtain ⟨ho', rfl⟩ : v.origin = unit.origin ∧ l = i + 1 := by simpa using heq
    rcases ho with ⟨-, hl⟩ | hne
    · exact Nat.lt_irrefl _ hl
    · exact hne ho'
  · intro hst
    have hat := h.right hst
    rw [At] at hat
    rw [hat] at hres
    simp only [Option.bind_some, hpath hu, Option.map_some] at hres
    exact hres

/-- What the map of a processed source says of the lines of its units: no line
that is not consumed is left out, and the output line on which the text of a
source line begins is resolved to that line if and only if it is not stray. -/
structure Attributed (setup : Setup C) (unit : SourceUnit) (c : C) (s : ProcessedSource)
    (pieces : List Piece) (units : List SourceUnit) : Prop where
  paths : units.map (·.origin) = s.map.files
  root : units.head? = some unit
  read : ∀ u ∈ units.tail, setup.files.readText u.origin = .ok u.text
  written : ∀ file u i line, units[file]? = some u → u.lines[i]? = some line →
    isConsumed ((u.standing i).directive line) = false →
    ∃ p ∈ pieces, p.source? = some (file, i + 1)
  resolved : ∀ before p rest file number, pieces = before ++ p :: rest →
    p.source? = some (file, number) →
    ∃ u i front back, number = i + 1 ∧ units[file]? = some u ∧
      Renders setup.requests c u file i p ∧ s.text = front ++ p.body ++ back ∧
      front = (Output.ofPieces before).text ∧
      (s.map.resolve (1 + Text.countBreaks front.toList) = some ⟨u.origin, number⟩ ↔
        (u.standing i).stray = false)

/-- Whatever is included and whatever handlers do, the lines that the map
misplaces are the stray ones. -/
theorem resolve_iff_not_stray {s : ProcessedSource}
    (hb : ∀ c', Reachable setup.requests c c' →
      ∀ name text, Substitutions.bound? c' name = some text → '\n' ∉ text.toList)
    (h : Gives (process setup unit) { context := c } s r') :
    ∃ units, Attributed setup unit c s r'.pieces.toList units := by
  obtain ⟨hproc, rfl⟩ := processed_of_process h
  set r₀ : Run C := { context := c } with hr₀
  have hat : At (r₀.opened unit.origin).pieces.toList 0 1 := by
    rw [Run.opened_pieces]
    exact at_marker _ _ _
  have ht : Tracks setup.files [] [unit] unit 0 0 (r₀.opened unit.origin) :=
    ⟨rfl, rfl, ⟨0, 1, unit, hat, rfl, by simp⟩, fun _ => .inr ⟨rfl, hat⟩, fun _ _ _ => hat⟩
  obtain ⟨units, hacc, -, -, hall⟩ :=
    hproc.account hb rfl (by simp) rfl rfl rfl .start ht
  obtain ⟨more, rfl⟩ := hacc.grows
  obtain ⟨written, hwritten⟩ := hacc.pieces
  refine ⟨_, hacc.paths, rfl, fun u hu => hacc.read u hu, ?_, ?_⟩
  · intro file u i line hu hl hc
    rcases Nat.eq_zero_or_pos file with rfl | hf
    · cases hu
      exact hall i line (Nat.zero_le _) hl hc
    · exact hacc.written file u i line hf hu hl hc
  · intro before p rest file number hs hsrc
    have hlen : (r₀.opened unit.origin).pieces.toList.length ≤ before.length := by
      -- the first piece is the marker of the unit
      cases before with
      | nil =>
        rw [← hwritten] at hs
        cases hs
        cases hsrc
      | cons q before => simp [Run.opened, hr₀]
    obtain ⟨u, i, rfl, hu, hp⟩ := hacc.placed before p rest file number hs hlen hsrc
    have hsound := Output.sound_ofPieces before
    obtain ⟨back, hback⟩ :=
      (Output.extends_foldl ((Output.ofPieces before).write p) rest).text
    refine ⟨u, i, (Output.ofPieces before).text, back, rfl, hu, hp.text, ?_, rfl, ?_⟩
    · rw [Output.write_of_not_marker _ (not_marker_of_source? hsrc)] at hback
      simp only [Run.source, hs, Output.ofPieces_append, List.foldl_cons]
      rw [Output.write_of_not_marker _ (not_marker_of_source? hsrc)]
      exact hback
    · rw [← hsound.line]
      exact hp.resolve hu hacc.paths hs

end Runs

/-! ### A line that goes on from a request -/

/-- A request that takes no arguments and does nothing. -/
def idleSetup : Setup Unit where
  files := {}
  requests := ⟨[{ name := "idle", signature := "", handler := fun _ => pure () }]⟩

/-- The request line ends with a backslash, so the next line goes on from it. -/
def continuedRequest : SourceUnit := .ofText ⟨"1.frag"⟩ "#request idle // \\\nfloat x;\n"

theorem process_continuedRequest :
    Gives (process idleSetup continuedRequest) { context := () }
      ⟨"#line 1 0\nfloat x;\n", ⟨[⟨"1.frag"⟩], [⟨2, 0, 1⟩]⟩⟩
      (process idleSetup continuedRequest { context := () } #[]).1.2 :=
  .of_eq_ok (by decide +kernel)

theorem attributed_continuedRequest : ∃ units,
    Attributed idleSetup continuedRequest () ⟨"#line 1 0\nfloat x;\n", ⟨[⟨"1.frag"⟩], [⟨2, 0, 1⟩]⟩⟩
      (process idleSetup continuedRequest { context := () } #[]).1.2.pieces.toList units :=
  resolve_iff_not_stray (fun _ _ _ _ h => by cases h) process_continuedRequest

/-- The second line of the unit is written to the second line of the output,
which is resolved to the first line of the unit. -/
theorem resolve_continuedRequest : ∃ s r', Gives (process idleSetup continuedRequest) { context := () } s r' ∧
    continuedRequest.lines[1]? = some "float x;\n".toList ∧ s.text = "#line 1 0\n" ++ "float x;\n" ∧
    s.map.resolve 2 = some ⟨⟨"1.frag"⟩, 1⟩ :=
  ⟨_, _, process_continuedRequest, by decide, by decide, by decide⟩

end AudioShader
