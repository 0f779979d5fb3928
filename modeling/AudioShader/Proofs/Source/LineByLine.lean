/-
# Lines are processed one by one

No line of a unit is looked at before the lines in front of it are done, and what was
done for these stays. So the first lines of a unit, alone, make what the whole unit
begins with; and a run that fails does so at one line of the unit, whatever comes
behind it: up to this line the unit fails alike, without it it succeeds.

Key definitions: `Run.Grows`, `ProcessedSource.Precedes`, `Carry.next`, `Setup.include`,
`SourceUnit.withText`, `SourceUnit.firstLines`, `AtLineBreak`.
Key theorems: `processLines_append`, `exists_first_failure`, `grows_include`,
`place_of_fails_include`, `exists_failing_line`, `lines_processed_in_turn`.
-/
import AudioShader.Proofs.Source.Nesting
import AudioShader.Proofs.Source.Position
import AudioShader.Proofs.Text.Lines

namespace AudioShader

open AudioShader.Action (Gives Fails)

/-- Work goes on alike, if it does behind all that what is in front of it can give. -/
theorem Action.bind_congr {σ ε α β : Type} {a : Action σ ε α} {f g : α → Action σ ε β}
    (h : ∀ s x s', Gives a s x s' → f x = g x) : a >>= f = a >>= g := by
  funext s log
  rw [bind_apply, bind_apply]
  rcases ha : a s log with ⟨⟨e | x, s'⟩, log'⟩
  · rfl
  · dsimp only
    rw [h s x s' ⟨log, log', ha⟩]

variable {C : Type}

/-! ### What was done stays -/

/-- What one run has opened, written and called comes first in what the other has. -/
structure Run.Grows (r r' : Run C) : Prop where
  files : r.files.toList <+: r'.files.toList
  pieces : r.pieces.toList <+: r'.pieces.toList
  calls : r.calls.toList <+: r'.calls.toList

namespace Run.Grows

variable {r r₁ r' : Run C}

theorem refl (r : Run C) : Grows r r := ⟨List.prefix_refl _, List.prefix_refl _, List.prefix_refl _⟩

theorem trans (h : Grows r r₁) (h' : Grows r₁ r') : Grows r r' :=
  ⟨h.files.trans h'.files, h.pieces.trans h'.pieces, h.calls.trans h'.calls⟩

theorem add (r : Run C) (ps : List Piece) : Grows r (r.add ps) where
  files := List.prefix_refl _
  pieces := by
    rw [add_pieces]
    exact List.prefix_append ..
  calls := List.prefix_refl _

theorem opened (r : Run C) (path : Path) : Grows r (r.opened path) where
  files := by
    rw [opened_files]
    exact List.prefix_append ..
  pieces := by
    rw [opened_pieces]
    exact List.prefix_append ..
  calls := List.prefix_refl _

theorem dispatched {requests : RequestTable C} {place : LineRef} {name : String}
    {tokens : List Token} (h : Dispatched requests place name tokens r r') : Grows r r' := by
  obtain ⟨-, -, -⟩ := h
  refine ⟨List.prefix_refl _, List.prefix_refl _, ?_⟩
  rw [Array.toList_push]
  exact List.prefix_append ..

end Run.Grows

/-- What one source is comes first in the other one. -/
structure ProcessedSource.Precedes (s s' : ProcessedSource) : Prop where
  text : s.text.toList <+: s'.text.toList
  files : s.map.files <+: s'.map.files
  markers : s.map.markers <+: s'.map.markers

theorem Run.Grows.precedes {r r' : Run C} (h : r.Grows r') : r.source.Precedes r'.source := by
  obtain ⟨ps, hps⟩ := h.pieces
  have hextends := Output.extends_foldl (Output.ofPieces r.pieces.toList) ps
  rw [← Output.ofPieces_append, hps] at hextends
  obtain ⟨⟨more, hmore⟩, -, later, hlater, -⟩ := hextends
  refine ⟨⟨more.toList, ?_⟩, h.files, later, hlater.symm⟩
  rw [← String.toList_append]
  exact congrArg String.toList hmore.symm

/-! ### Where a failure is placed -/

theorem TurnedDown.place {requests : RequestTable C} {place : LineRef} {name : String}
    {tokens : List Token} {c c' : C} {e : SourceError} {calls : List Call}
    (h : TurnedDown requests place name tokens c e calls c') : e.place? = some place := by
  cases h <;> rfl

/-- A file that cannot be opened fails at its include, or at no line. -/
theorem place_of_fails_openInclude {setup : Setup C} {stack : List FileIdentity} {unit : SourceUnit}
    {place : LineRef} {path : Path} {r r' : Run C} {e : SourceError}
    (h : Fails (openInclude setup stack unit place path) r e r') : ∀ p ∈ e.place?, p = place := by
  unfold openInclude at h
  dsimp only at h
  split at h
  · obtain h | ⟨⟨⟩, r₁, h, -⟩ := h.bind
    · obtain ⟨rfl, -⟩ := h.of_throw
      rintro p ⟨⟩
      rfl
    · exact h.of_throw.elim
  · split at h
    · obtain ⟨rfl, -⟩ := h.of_throw
      nofun
    · obtain h | ⟨⟨⟩, r₁, -, h⟩ := h.bind
      · exact h.of_record.elim
      · exact h.of_pure.elim

variable [Substitutions C] {setup : Setup C}

/-! ### Lines in two parts -/

/-- What a line leaves for the next one, if it can be read. -/
def Carry.next (k : Carry) (line : List Char) : Carry :=
  match lineDirective k line with
  | .ok d => k.after d line
  | .error _ => k

section Lines

variable {nested : LineRef → String → Action (Run C) SourceError Unit} {origin : Path} {file : Nat}

theorem eq_next_of_processLine {place : LineRef} {k k' : Carry} {line : List Char} {r r' : Run C}
    (h : Gives (processLine setup nested file place k line) r k' r') : k' = k.next line := by
  obtain ⟨d, hd, rfl, -⟩ := of_processLine h
  rw [Carry.next, hd]

/-- Lines are processed in two parts, the second one with what the first one leaves. -/
theorem processLines_append (xs ys : List (List Char)) : ∀ (n : Nat) (k : Carry),
    processLines setup nested origin file n k (xs ++ ys) =
      processLines setup nested origin file n k xs >>= fun _ =>
        processLines setup nested origin file (n + xs.length) (xs.foldl Carry.next k) ys := by
  induction xs with
  | nil =>
    intro n k
    rfl
  | cons x xs ih =>
    intro n k
    have hnumber : n + (x :: xs).length = n + 1 + xs.length := by
      rw [List.length_cons]
      omega
    rw [hnumber, List.cons_append, processLines, processLines, bind_assoc]
    -- what the first line leaves is told by the line alone, so the rest begins alike
    refine Action.bind_congr fun r k' r' h => ?_
    obtain rfl := eq_next_of_processLine h
    exact ih (n + 1) (k.next x)

/-- Where lines fail there is a first one that does. -/
theorem exists_first_failure {r' : Run C} {log' : Log} {e : SourceError} :
    ∀ {lines : List (List Char)} {n : Nat} {k : Carry} {r : Run C} {log : Log},
      processLines setup nested origin file n k lines r log = ((.error e, r'), log') →
      ∃ front line back r₁ log₁, lines = front ++ line :: back ∧
        processLines setup nested origin file n k front r log = ((.ok (), r₁), log₁) ∧
        processLine setup nested file ⟨origin, n + front.length⟩ (front.foldl Carry.next k) line r₁ log₁ =
          ((.error e, r'), log')
  | [], n, k, r, log, h => by cases h
  | line :: rest, n, k, r, log, h => by
    rw [processLines, Action.bind_apply] at h
    rcases hline : processLine setup nested file ⟨origin, n⟩ k line r log with ⟨⟨e' | k', r₁⟩, log₁⟩
    · rw [hline] at h
      cases h
      exact ⟨[], line, rest, r, log, rfl, rfl, hline⟩
    · rw [hline] at h
      obtain rfl := eq_next_of_processLine ⟨log, log₁, hline⟩
      obtain ⟨front, last, back, r₂, log₂, rfl, hfront, hlast⟩ := exists_first_failure h
      have hnumber : n + (line :: front).length = n + 1 + front.length := by
        rw [List.length_cons]
        omega
      refine ⟨line :: front, last, back, r₂, log₂, rfl, ?_, ?_⟩
      · rw [processLines, Action.bind_apply, hline]
        exact hfront
      · rw [hnumber]
        exact hlast

end Lines

/-! ### Units -/

/-- What the includes of a unit do, with room for more levels. -/
def Setup.include (setup : Setup C) (room : Nat) (stack : List FileIdentity) (unit : SourceUnit)
    (place : LineRef) (target : String) : Action (Run C) SourceError Unit := do
  let path ← Run.orRefuse place (unit.resolve target)
  match room with
  | 0 => Run.refuse place (.includeDepth setup.maxDepth)
  | room + 1 =>
    let (included, key) ← openInclude setup stack unit place path
    processUnit setup room (stack ++ [key]) included

/-- A unit is processed line by line from where its file is opened. -/
theorem processUnit_eq (room : Nat) (stack : List FileIdentity) (unit : SourceUnit) (r : Run C)
    (log : Log) : processUnit setup room stack unit r log =
      processLines setup (setup.include room stack unit) unit.origin r.files.size 1 {} unit.lines
        (r.opened unit.origin) log := by
  cases room <;> rfl

/-- A unit with another text. -/
def SourceUnit.withText (u : SourceUnit) (cs : List Char) : SourceUnit :=
  { u with text := String.ofList cs }

theorem SourceUnit.lines_withText (u : SourceUnit) (cs : List Char) :
    (u.withText cs).lines = Text.splitLines cs := by
  rw [lines, withText, String.toList_ofList]

theorem SourceUnit.withText_text (u : SourceUnit) : u.withText u.text.toList = u := by
  rw [withText, String.ofList_toList]

/-- What a unit includes does not depend on its text. -/
theorem Setup.include_withText (room : Nat) (stack : List FileIdentity) (unit : SourceUnit)
    (cs : List Char) : setup.include room stack (unit.withText cs) = setup.include room stack unit := by
  cases room <;> rfl

theorem grows_processLine {nested : LineRef → String → Action (Run C) SourceError Unit} {file : Nat}
    {place : LineRef} {k k' : Carry} {line : List Char} {r r' : Run C}
    (hnested : ∀ target, Gives (nested place target) r () r' → r.Grows r')
    (h : Gives (processLine setup nested file place k line) r k' r') : r.Grows r' := by
  obtain ⟨d, -, -, ⟨target, -, h⟩ | ⟨name, args, -, h⟩ | ⟨ps, -, rfl⟩⟩ := of_processLine h
  · exact hnested target h
  · exact .dispatched h
  · exact .add r _

theorem grows_processLines {nested : LineRef → String → Action (Run C) SourceError Unit}
    {origin : Path} {file : Nat}
    (hnested : ∀ {place target r r'}, Gives (nested place target) r () r' → r.Grows r') :
    ∀ {lines : List (List Char)} {n : Nat} {k : Carry} {r r' : Run C},
      Gives (processLines setup nested origin file n k lines) r () r' → r.Grows r'
  | [], _, _, r, r', h => by
    obtain ⟨-, rfl⟩ := Gives.of_pure h
    exact .refl r
  | _ :: _, _, _, r, r', h => by
    obtain ⟨k', r₁, hline, hrest⟩ := h.bind
    exact (grows_processLine (fun _ => hnested) hline).trans (grows_processLines hnested hrest)

/-- What a unit and all that it includes do comes behind what was done before. -/
theorem grows_include : ∀ {room : Nat} {stack : List FileIdentity} {unit : SourceUnit}
    {place : LineRef} {target : String} {r r' : Run C},
      Gives (setup.include room stack unit place target) r () r' → r.Grows r'
  | 0, stack, unit, place, target, r, r', h => by
    obtain ⟨path, r₁, -, h⟩ := h.bind
    exact (Gives.of_throw h).elim
  | room + 1, stack, unit, place, target, r, r', h => by
    obtain ⟨path, r₁, hpath, h⟩ := h.bind
    obtain ⟨-, rfl⟩ := Run.of_orRefuse hpath
    obtain ⟨p, r₂, hopen, h⟩ := h.bind
    obtain ⟨text, -, -, rfl, rfl⟩ := of_openInclude hopen
    obtain ⟨log, log', h⟩ := h
    dsimp only at h
    rw [processUnit_eq] at h
    have hlines := grows_processLines (fun h => grows_include h) ⟨log, log', h⟩
    exact (Run.Grows.opened r _).trans hlines

/-- A line fails at its place, or what it includes does. -/
theorem place_of_fails_processLine {nested : LineRef → String → Action (Run C) SourceError Unit}
    {file : Nat} {place : LineRef} {k : Carry} {line : List Char} {r r' : Run C} {e : SourceError}
    (h : Fails (processLine setup nested file place k line) r e r') :
    e.place? = some place ∨ ∃ target, Fails (nested place target) r e r' := by
  obtain ⟨fault, -, rfl, -⟩ | ⟨d, -, hfails⟩ := of_processLine_fails h
  · exact .inl rfl
  obtain ⟨target, -, h⟩ | ⟨name, args, -, h⟩ | ⟨fault, -, rfl, -, -⟩ := hfails
  · exact .inr ⟨target, h⟩
  · obtain ⟨calls, hdown, -⟩ := turnedDown_of_dispatch h
    exact .inl hdown.place
  · exact .inl rfl

/-- What an include does fails at its place or in a file that was not open. -/
theorem place_of_fails_include : ∀ {room : Nat} {stack : List FileIdentity} {unit : SourceUnit}
    {place : LineRef} {target : String} {r r' : Run C} {e : SourceError},
      Fails (setup.include room stack unit place target) r e r' →
      ∀ p ∈ e.place?, p = place ∨ setup.files.identity p.file ∉ stack
  | 0, stack, unit, place, target, r, r', e, h => by
    obtain h | ⟨path, r₁, -, h⟩ := h.bind
    · obtain ⟨fault, -, rfl, -⟩ := Run.fails_orRefuse h
      rintro p ⟨⟩
      exact .inl rfl
    · obtain ⟨rfl, -⟩ := h.of_throw
      rintro p ⟨⟩
      exact .inl rfl
  | room + 1, stack, unit, place, target, r, r', e, h => by
    obtain h | ⟨path, r₁, -, h⟩ := h.bind
    · obtain ⟨fault, -, rfl, -⟩ := Run.fails_orRefuse h
      rintro p ⟨⟩
      exact .inl rfl
    obtain h | ⟨q, r₂, hopen, h⟩ := h.bind
    · exact fun p hp => .inl (place_of_fails_openInclude h p hp)
    obtain ⟨text, hnew, -, rfl, rfl⟩ := of_openInclude hopen
    obtain ⟨log, log', h⟩ := h
    dsimp only at h
    rw [processUnit_eq] at h
    obtain ⟨front, line, back, r₂, log₂, -, -, hline⟩ := exists_first_failure h
    intro p hp
    right
    rcases place_of_fails_processLine ⟨log₂, log', hline⟩ with hplace | ⟨target', hnested⟩
    · rw [hplace] at hp
      cases hp
      exact hnew
    · rcases place_of_fails_include hnested p hp with rfl | hout
      · exact hnew
      · exact fun hin => hout (List.mem_append_left _ hin)

/-! ### Root units -/

/-- Lines of a root unit, processed from where its file is opened. -/
def Setup.rootLines (setup : Setup C) (root : SourceUnit) (c : C) (lines : List (List Char)) (log : Log) :
    (Except SourceError Unit × Run C) × Log :=
  processLines setup (setup.include setup.maxDepth [setup.key root] root) root.origin 0 1 {} lines
    (({ context := c } : Run C).opened root.origin) log

section Root

variable {root : SourceUnit} {c : C} {cs : List Char} {lines : List (List Char)} {r : Run C}
  {log log' : Log} {s : ProcessedSource} {e : SourceError}

theorem processUnit_root (cs : List Char) (log : Log) :
    processUnit setup setup.maxDepth [setup.key root] (root.withText cs) { context := c } log =
      setup.rootLines root c (Text.splitLines cs) log := by
  rw [processUnit_eq, Setup.include_withText, SourceUnit.lines_withText]
  rfl

theorem process_of_ok (h : setup.rootLines root c (Text.splitLines cs) log = ((.ok (), r), log')) :
    ∃ log₁, process setup (root.withText cs) { context := c } log = ((.ok r.source, r), log₁) := by
  have hunit : processUnit setup setup.maxDepth [setup.files.identity (root.withText cs).origin]
      (root.withText cs) { context := c } log = ((.ok (), r), log') := (processUnit_root cs log).trans h
  unfold process
  rw [Action.bind_apply, hunit]
  exact ⟨_, rfl⟩

theorem process_of_error
    (h : setup.rootLines root c (Text.splitLines cs) log = ((.error e, r), log')) :
    process setup (root.withText cs) { context := c } log = ((.error e, r), log') := by
  have hunit : processUnit setup setup.maxDepth [setup.files.identity (root.withText cs).origin]
      (root.withText cs) { context := c } log = ((.error e, r), log') := (processUnit_root cs log).trans h
  unfold process
  rw [Action.bind_apply, hunit]

theorem rootLines_of_ok
    (h : process setup (root.withText cs) { context := c } log = ((.ok s, r), log')) :
    ∃ log₁, setup.rootLines root c (Text.splitLines cs) log = ((.ok (), r), log₁) ∧ s = r.source := by
  rcases hroot : setup.rootLines root c (Text.splitLines cs) log with ⟨⟨e | ⟨⟩, r₁⟩, log₁⟩
  · cases (process_of_error hroot).symm.trans h
  · obtain ⟨log₂, hok⟩ := process_of_ok hroot
    cases hok.symm.trans h
    exact ⟨log₁, rfl, rfl⟩

theorem rootLines_of_error
    (h : process setup (root.withText cs) { context := c } log = ((.error e, r), log')) :
    setup.rootLines root c (Text.splitLines cs) log = ((.error e, r), log') := by
  rcases hroot : setup.rootLines root c (Text.splitLines cs) log with ⟨⟨e' | ⟨⟩, r₁⟩, log₁⟩
  · cases (process_of_error hroot).symm.trans h
    rfl
  · obtain ⟨log₂, hok⟩ := process_of_ok hroot
    cases hok.symm.trans h

/-- Lines of a root unit that can be processed go on from what the first of them do. -/
theorem rootLines_of_append {xs ys : List (List Char)}
    (h : setup.rootLines root c (xs ++ ys) log = ((.ok (), r), log')) :
    ∃ r₁ log₁, setup.rootLines root c xs log = ((.ok (), r₁), log₁) ∧ r₁.Grows r := by
  rw [Setup.rootLines, processLines_append, Action.bind_apply] at h
  rcases hxs : setup.rootLines root c xs log with ⟨⟨e | ⟨⟩, r₁⟩, log₁⟩
  · rw [Setup.rootLines] at hxs
    rw [hxs] at h
    cases h
  · refine ⟨r₁, log₁, rfl, ?_⟩
    rw [Setup.rootLines] at hxs
    rw [hxs] at h
    exact grows_processLines (fun h => grows_include h) ⟨log₁, log', h⟩

/-- A run of a root unit fails at one of its lines: up to this line it fails alike,
without it it does not fail. -/
theorem exists_failing_line (h : setup.rootLines root c lines log = ((.error e, r), log')) :
    ∃ n < lines.length,
      (∃ r₁ log₁, setup.rootLines root c (lines.take n) log = ((.ok (), r₁), log₁)) ∧
      setup.rootLines root c (lines.take (n + 1)) log = ((.error e, r), log') ∧
      ∀ l, e.place? = some ⟨root.origin, l⟩ → l = n + 1 := by
  obtain ⟨front, line, back, r₁, log₁, rfl, hfront, hline⟩ := exists_first_failure h
  have htake : (front ++ line :: back).take (front.length + 1) = front ++ [line] := by
    rw [List.take_length_add_append, List.take_succ_cons, List.take_zero]
  refine ⟨front.length, by simp, ⟨r₁, log₁, ?_⟩, ?_, fun l hl => ?_⟩
  · rw [List.take_left]
    exact hfront
  · rw [htake, Setup.rootLines, processLines_append, Action.bind_apply, hfront]
    dsimp only
    rw [processLines, Action.bind_apply, hline]
  · rcases place_of_fails_processLine ⟨log₁, log', hline⟩ with hplace | ⟨target, hnested⟩
    · rw [hplace] at hl
      cases hl
      exact Nat.add_comm ..
    · -- the file of the root unit is open, so no included one is at its path
      rcases place_of_fails_include hnested _ hl with hplace | hout
      · cases hplace
        exact Nat.add_comm ..
      · exact absurd (List.mem_singleton_self _) hout

end Root

/-! ### First lines -/

/-- The unit of the first lines of a unit. -/
def SourceUnit.firstLines (u : SourceUnit) (n : Nat) : SourceUnit :=
  u.withText (u.lines.take n).flatten

/-- No line goes from the first text on into the second one. -/
def AtLineBreak (front back : List Char) : Prop :=
  front = [] ∨ Text.endsLine front = true ∨ back = []

theorem AtLineBreak.splitLines {front back : List Char} (h : AtLineBreak front back) :
    Text.splitLines (front ++ back) = Text.splitLines front ++ Text.splitLines back := by
  obtain rfl | h | rfl := h
  · rfl
  · exact Text.splitLines_append h back
  · rw [List.append_nil]
    exact (List.append_nil _).symm

/-- **No line is decided by what comes behind it.** A root unit is cut at any line
break. If all of it can be processed, so can what is in front of the cut, and the
text, the files, the markers and the calls of handlers that this makes come first in
those that all of it makes. And a run that fails does so at one line of the root unit:
the lines in front of it alone can be processed, and with it, but nothing behind it,
they fail with the same failure, behind the same calls. If the failure is about a line
of the root unit, it is this one. -/
theorem lines_processed_in_turn (setup : Setup C) (root : SourceUnit) (c : C) (log : Log) :
    (∀ front back s r log', AtLineBreak front back →
      process setup (root.withText (front ++ back)) { context := c } log = ((.ok s, r), log') →
      ∃ s₁ r₁ log₁, process setup (root.withText front) { context := c } log = ((.ok s₁, r₁), log₁) ∧
        s₁.Precedes s ∧ r₁.calls.toList <+: r.calls.toList) ∧
    ∀ e r log', process setup root { context := c } log = ((.error e, r), log') →
      ∃ n < root.lines.length,
        (∃ s₁ r₁ log₁, process setup (root.firstLines n) { context := c } log = ((.ok s₁, r₁), log₁)) ∧
        process setup (root.firstLines (n + 1)) { context := c } log = ((.error e, r), log') ∧
        ∀ l, e.place? = some ⟨root.origin, l⟩ → l = n + 1 := by
  refine ⟨fun front back s r log' hbreak h => ?_, fun e r log' h => ?_⟩
  · obtain ⟨log₁, hall, rfl⟩ := rootLines_of_ok h
    rw [hbreak.splitLines] at hall
    obtain ⟨r₁, log₂, hfront, hgrows⟩ := rootLines_of_append hall
    obtain ⟨log₃, hok⟩ := process_of_ok hfront
    exact ⟨_, r₁, log₃, hok, hgrows.precedes, hgrows.calls⟩
  · rw [← root.withText_text] at h
    obtain ⟨n, hn, ⟨r₁, log₁, hfront⟩, hfails, hplace⟩ := exists_failing_line (rootLines_of_error h)
    have hlines (n : Nat) : Text.splitLines (root.lines.take n).flatten = root.lines.take n :=
      Text.splitLines_flatten_take root.text.toList n
    refine ⟨n, hn, ?_, ?_, hplace⟩
    · obtain ⟨log₂, hok⟩ := process_of_ok ((congrArg (setup.rootLines root c · log) (hlines n)).trans hfront)
      exact ⟨_, r₁, log₂, hok⟩
    · exact process_of_error ((congrArg (setup.rootLines root c · log) (hlines (n + 1))).trans hfails)

/-- A request, a line that can be written and one that cannot. -/
def unboundUnit : SourceUnit := .ofText ⟨"1.frag"⟩ "#request idle\nfloat x;\n@y\nfloat z;\n"

/-- The third line fails, also without the fourth, and the first two do not; the first
one alone makes what both of them begin with. -/
theorem unboundUnit_in_turn :
    (∃ s r log, process idleSetup (unboundUnit.firstLines 2) { context := () } #[] = ((.ok s, r), log)) ∧
      (process idleSetup (unboundUnit.firstLines 3) { context := () } #[]).1.1 =
        .error (.refused ⟨⟨"1.frag"⟩, 3⟩ (.unresolvedBind "y")) ∧
      ∃ s r log s₁ r₁ log₁,
        process idleSetup (unboundUnit.withText ("#request idle\n".toList ++ "float x;\n".toList))
          { context := () } #[] = ((.ok s, r), log) ∧
        process idleSetup (unboundUnit.withText "#request idle\n".toList)
          { context := () } #[] = ((.ok s₁, r₁), log₁) ∧
        s₁.Precedes s ∧ r₁.calls.toList <+: r.calls.toList := by
  obtain ⟨hcut, hfirst⟩ := lines_processed_in_turn idleSetup unboundUnit () #[]
  have hfails : (process idleSetup unboundUnit { context := () } #[]).1.1 =
      .error (.refused ⟨⟨"1.frag"⟩, 3⟩ (.unresolvedBind "y")) := by decide +kernel
  have hpasses : (process idleSetup
      (unboundUnit.withText ("#request idle\n".toList ++ "float x;\n".toList))
      { context := () } #[]).1.1.isOk = true := by decide +kernel
  rcases hrun : process idleSetup unboundUnit { context := () } #[] with ⟨⟨out, r⟩, log⟩
  rw [hrun] at hfails
  obtain rfl : out = _ := hfails
  obtain ⟨n, -, hpassed, hfailed, hplace⟩ := hfirst _ _ _ hrun
  obtain rfl : n = 2 := by
    have := hplace 3 rfl
    omega
  refine ⟨hpassed, by rw [hfailed], ?_⟩
  rcases hboth : process idleSetup (unboundUnit.withText ("#request idle\n".toList ++ "float x;\n".toList))
    { context := () } #[] with ⟨⟨e | s, r₂⟩, log₂⟩
  · rw [hboth] at hpasses
    cases hpasses
  · have hbreak : AtLineBreak "#request idle\n".toList "float x;\n".toList := .inr (.inl (by decide))
    obtain ⟨s₁, r₁, log₁, hfront, hprecedes, hcalls⟩ := hcut _ _ s r₂ log₂ hbreak hboth
    exact ⟨s, r₂, log₂, s₁, r₁, log₁, rfl, hfront, hprecedes, hcalls⟩

end AudioShader
