/-
# Comments are opaque

A run over a unit and a run over the same unit with blanks in its comments go
side by side, line by line: both fail alike, or both succeed, call the same
handlers, open the same files and differ in blanks in comments only.  And the
comments of the lines that are written stand, unchanged and in order, in
comments of the output.

This holds as long as no line goes on in the next one in the middle of anything
but a comment with marks on both sides, no such comment is opened on a line of
which nothing is written, and neither the defaults of binds nor what stands for
them open or close anything.

Key definitions: `SourceUnit.Tidy`, `Orderly`, `Abreast`.
Key theorems: `alongside_processLine`, `alongside_processLines`, `alongside_process`.
-/
import AudioShader.Proofs.Alongside
import AudioShader.Proofs.Source.Written

namespace AudioShader

open AudioShader.Action (Gives Fails Alongside)
open Lexer (Passes)

variable {C : Type}

/-- The contexts that the handlers make of one, call by call. -/
abbrev Setup.Contexts (setup : Setup C) : C → C → Prop :=
  Relation.ReflTransGen fun c c' => ∃ name request args,
    setup.requests.get? name = some request ∧ request.handler args c = (.ok (), c')

/-- The comments of lines that are written, in the order of a run. -/
abbrev Commented [Substitutions C] (setup : Setup C) :=
  Inlines (C := C) Lexer.comments (fun _ _ => []) setup

/-- Lines in which comments are where they seem to be: the next line begins with
nothing open but a comment, not even that behind a line that is replaced, and
all that is put in place of something else is read through. -/
structure SourceUnit.Tidy (bound : String → Option String) (u : SourceUnit) : Prop
    extends u.Settled where
  apart : ∀ s line, u.HasLine s line → s.replaces line = true → Text.endsLine line = true →
    (s.run line).joined = false
  binds : ∀ s line, u.HasLine s line → s.keeps line = true →
    Lexer.Binds (Bind.Harmless bound) s line
  called : ∀ s line name control, u.HasLine s line →
    s.directive line = .ok (some (.expand name control)) → Passes {} name.toList

/-- All that a run reads is tidy, with whatever names are bound on the way, and
no file that is included leaves anything open. -/
structure Orderly [Substitutions C] (setup : Setup C) (root : SourceUnit) (c : C) : Prop where
  tidy : ∀ u, Reaches setup.files root u → ∀ c', setup.Contexts c c' →
    u.Tidy (Substitutions.bound? c')
  closes : ∀ u, Reaches setup.files root u → ∀ v ∈ u.includes setup.files,
    (Lexer.run {} v.text.toList).Closes

/-- Behind a line that is replaced nothing goes on. -/
theorem SourceUnit.Tidy.run_replaced {bound : String → Option String} {u : SourceUnit}
    (h : u.Tidy bound) {s : Lexer} {line : List Char} (hl : u.HasLine s line)
    (hr : s.replaces line = true) (he : Text.endsLine line = true) : s.run line = {} := by
  have hm := h.mode s line hl he
  have ho := h.replaced s line hl hr he
  have hj := h.apart s line hl hr he
  have hh := Lexer.held_of_endsLine he s
  rcases hs : s.run line with ⟨mode, held, joined⟩
  rw [hs] at hm ho hj hh
  subst hj hh
  rcases hm with rfl | rfl
  · rfl
  · cases ho

/-! ### Steps side by side -/

namespace Run

variable {α β : Type} {r r' : Run C}

/-- Where a line is refused in one run it is refused in the other. -/
theorem alongside_orRefuse_bind {γ δ : Type} {Q : γ → Run C → δ → Run C → Prop} {place : LineRef}
    {e : Except LineFault α} {e' : Except LineFault β} {p : α → β} (he : e' = e.map p)
    {f : α → Action (Run C) SourceError γ} {g : β → Action (Run C) SourceError δ}
    (h : ∀ x, e = .ok x → Alongside Q (f x) r (g (p x)) r') :
    Alongside Q (orRefuse place e >>= f) r (orRefuse place e' >>= g) r' := by
  subst he
  cases e with
  | ok x => exact h x rfl
  | error fault => exact .throw _

theorem alongside_emit_bind {Q : α → Run C → β → Run C → Prop} {p p' : Piece}
    {f : Unit → Action (Run C) SourceError α} {g : Unit → Action (Run C) SourceError β}
    (h : Alongside Q (f ()) (r.add [p]) (g ()) (r'.add [p'])) :
    Alongside Q (emit p >>= f) r (emit p' >>= g) r' := by
  refine Alongside.modify_bind ?_
  simpa [add] using h

theorem alongside_emit_or_skip {Q : α → Run C → β → Run C → Prop} {b : Bool} {p : Piece}
    {f : Unit → Action (Run C) SourceError α} {g : Unit → Action (Run C) SourceError β}
    (h : Alongside Q (f ()) (r.add (if b = true then [p] else []))
      (g ()) (r'.add (if b = true then [p] else []))) :
    Alongside Q (if b = true then emit p >>= f else f ()) r
      (if b = true then emit p >>= g else g ()) r' := by
  cases b with
  | true => exact alongside_emit_bind h
  | false => simpa using h

end Run

/-- What the run has written in front of the lines `rest` of a unit is read like
the lines in front of them, or ends where a line of its own begins. -/
structure Abreast (k : Carry) (s : Lexer) (o : Output) (rest : List (List Char)) : Prop where
  follows : rest ≠ [] → k.Follows s
  written : o.reading = s ∨ o.Closed ∧ (rest ≠ [] → k.pending = true ∧ s = {})

/-- Before a line is written the numbering may restart, and then its own line
begins; where nothing is written the next line of the output has nothing open. -/
theorem Abreast.lead {k : Carry} {s : Lexer} {line : List Char} {rest : List (List Char)}
    {r r' : Run C} (h : Abreast k s r.output (line :: rest)) (hb : r.Beside r')
    {d : Option Directive} (hd : s.directive line = .ok d) (file number : Nat) :
    (r.add (k.lead d file number)).Beside (r'.add (k.lead d file number)) ∧
      (r.add (k.lead d file number)).output.comments = r.output.comments ∧
      (isConsumed d = true → (r.add (k.lead d file number)).output.Closed) ∧
      (isConsumed d = false → (r.add (k.lead d file number)).output.reading = s) := by
  have hf := h.follows (by simp)
  have hclosed : s = {} → r.output.Closed := by
    rintro rfl
    rcases h.written with hr | ⟨hc, -⟩
    · exact Output.closed_of_reading hr
    · exact hc
  unfold Carry.lead
  by_cases hr : k.restarts d = true
  · rw [if_pos hr]
    simp only [Carry.restarts, Bool.and_eq_true, Bool.not_eq_true'] at hr
    obtain ⟨⟨-, hstart⟩, hc⟩ := hr
    rw [hf.atLineStart, decide_eq_true_iff] at hstart
    subst hstart
    have hcl := hclosed rfl
    rw [Run.output_add]
    exact ⟨hb.add (Output.blanked_write_marker hcl file number).symm,
      Output.comments_write_marker hcl file number, fun h => absurd (hc.symm.trans h) (by decide),
      fun _ => Output.reading_write_marker hcl file number⟩
  · rw [if_neg hr, Run.add_nil, Run.add_nil]
    refine ⟨hb, rfl, fun hc => ?_, fun hc => ?_⟩
    · cases d with
      | none => cases hc
      | some d => exact hclosed (Lexer.eq_start_of_directive hd)
    · rcases h.written with hr' | ⟨-, hpend⟩
      · exact hr'
      · obtain ⟨hp, rfl⟩ := hpend (by simp)
        refine absurd ?_ hr
        simp [Carry.restarts, hp, hf.atLineStart, hc]

theorem Run.Beside.add_line {r r' : Run C} (h : r.Beside r') (file number : Nat)
    (text : List Char) : (r.add [.line file number text]).Beside
      (r'.add [.line file number (r.output.reading.blank text)]) :=
  h.add (Output.blanked_write_line _ file number text).symm

/-- Both runs write a piece that is read through. -/
theorem Run.Beside.add_passes {r r' : Run C} (h : r.Beside r') (hr : r.output.reading = {})
    {p : Piece} (hp : ∀ file line, p ≠ .marker file line) (hpass : Passes {} p.body.toList) :
    (r.add [p]).Beside (r'.add [p]) ∧ (r.add [p]).output.reading = {} ∧
      (r.add [p]).output.comments = r.output.comments := by
  rw [Run.output_add]
  exact ⟨h.add (Output.blanked_write hp hr hpass).symm, Output.reading_write hp hr hpass,
    Output.comments_write hp hr hpass⟩

theorem Run.Beside.add_marker {r r' : Run C} (h : r.Beside r') (hr : r.output.Closed)
    (file number : Nat) : (r.add [.marker file number]).Beside (r'.add [.marker file number]) ∧
      (r.add [.marker file number]).output.reading = {} ∧
      (r.add [.marker file number]).output.comments = r.output.comments := by
  rw [Run.output_add]
  exact ⟨h.add (Output.blanked_write_marker hr file number).symm,
    Output.reading_write_marker hr file number, Output.comments_write_marker hr file number⟩

/-- The same handler is called. -/
theorem Run.Beside.alongside_dispatch {requests : RequestTable C} {place : LineRef} {name : String}
    {tokens : List Token} {r r' : Run C} (h : r.Beside r') :
    Alongside (fun _ t _ t' => Dispatched requests place name tokens r t ∧ t.Beside t' ∧
      t.output = r.output) (dispatch requests place name tokens) r
      (dispatch requests place name tokens) r' := by
  unfold dispatch
  cases hr : requests.get? name with
  | none => exact .throw _
  | some request =>
    dsimp only
    cases ha : coerceArgs request.signature tokens with
    | error fault => exact .throw _
    | ok args =>
      refine Alongside.record_bind (Alongside.get_bind ?_)
      rw [h.context]
      rcases hh : request.handler args r.context with ⟨outcome, c⟩
      refine Alongside.set_bind ?_
      cases outcome with
      | error reason => exact .throw _
      | ok v => exact .pure ⟨.intro hr ha hh, ⟨rfl, h.files, by rw [h.calls], h.output⟩, rfl⟩

/-- The same file is opened. -/
theorem Run.Beside.alongside_openFile {r r' : Run C} (h : r.Beside r') (path : Path) :
    Alongside (fun n t n' t' => n = n' ∧ t.Beside t' ∧ t.output = r.output ∧ t.context = r.context)
      (Run.openFile path) r (Run.openFile path) r' := by
  refine Alongside.get_bind (Alongside.set_bind (.pure ⟨by rw [h.files], ?_, rfl, rfl⟩))
  exact ⟨h.context, by rw [h.files], h.calls, h.output⟩

/-- The same include is found, with blanks in its comments. -/
theorem alongside_openInclude {setup : Setup C} {stack : List FileIdentity} {u : SourceUnit} {place : LineRef}
    {path : Path} {r r' : Run C} :
    Alongside (fun p t p' t' => t = r ∧ t' = r' ∧ ∃ text, setup.files.readText path = .ok text ∧
        p.1 = u.nested path text ∧ p'.1 = (u.nested path text).blanked ∧ p'.2 = p.2)
      (openInclude setup stack u place path) r
      (openInclude setup.blanked stack u.blanked place path) r' := by
  have hkey : setup.blanked.files.identity path = setup.files.identity path :=
    FileTree.identity_mapText _ path
  have htext : setup.blanked.files.readText path = (setup.files.readText path).map blankText :=
    FileTree.readText_mapText _ path
  unfold openInclude
  rw [hkey, htext]
  dsimp only
  by_cases hin : stack.contains (setup.files.identity path) = true
  · rw [if_pos hin, if_pos hin]
    exact .throw _
  · rw [if_neg hin, if_neg hin]
    cases ht : setup.files.readText path with
    | error fault => exact .throw _
    | ok text => exact .record_bind (.pure ⟨rfl, rfl, text, rfl, rfl, rfl, rfl⟩)

/-! ### A line -/

variable [Substitutions C] {setup : Setup C}

/-- A run goes through contexts that handlers make. -/
theorem Inlines.contexts {copied : Lexer → List Char → List Char} {called : String → Nat → List Char}
    {u : SourceUnit} {s : Lexer} {lines : List (List Char)} {c c' : C} {text : List Char}
    {paths : List Path} (h : Inlines copied called setup u s lines c text paths c') :
    setup.Contexts c c' := by
  induction h with
  | done => exact .refl
  | includeFile _ _ _ _ _ ihn ihr => exact ihn.trans ihr
  | request _ hget _ hcall _ ih => exact .head ⟨_, _, _, hget, hcall⟩ ih
  | expand _ _ _ ih => exact ih
  | kept _ _ _ ih => exact ih

/-- A line was processed in two runs side by side: what it adds to the comments
of the output is what it adds to the comments of the unit. -/
structure Passed (setup : Setup C) (u : SourceUnit) (s : Lexer) (line : List Char)
    (rest : List (List Char)) (r : Run C) (k : Carry) (t : Run C) (k' : Carry) (t' : Run C) : Prop where
  carry : k' = k
  beside : t.Beside t'
  abreast : Abreast k (s.run line) t.output rest
  context : setup.Contexts r.context t.context
  comments : ∃ own ownPaths, t.output.comments = r.output.comments ++ own ∧
    ∀ {text paths c}, Commented setup u (s.run line) rest t.context text paths c →
      Commented setup u s (line :: rest) r.context (own ++ text) (ownPaths ++ paths) c

section Line

variable {u : SourceUnit} {s : Lexer} {line : List Char} {rest : List (List Char)} {k : Carry}
  {bound : String → Option String} (htidy : u.Tidy bound) (hl : u.HasLine s line)
  (hline : Text.IsLine line) (hend : rest ≠ [] → Text.endsLine line = true) (hf : k.Follows s)

include htidy hl hline hend hf

/-- Both runs write what stands for the line. -/
theorem Passed.of_written {d : Option Directive} (hd : s.directive line = .ok d)
    (hkept : ∀ d', d = some d' → d'.isReplaced = false) {r r₁ r₁' : Run C} (hb : r₁.Beside r₁')
    (hr : r₁.output.reading = s) (hc : r₁.context = r.context)
    (hcomments : r₁.output.comments = r.output.comments) {t : List Char} (hrun : s.run t = s.run line)
    (ht : s.comments t = s.comments line) {k₁ : Carry} (ho : k₁.inComment = (s.run line).isOpen)
    (hcont : k₁.continued = isContinued line) (file number : Nat) :
    Passed setup u s line rest r k₁ (r₁.add [.line file number t]) k₁
      (r₁'.add [.line file number (s.blank t)]) where
  carry := rfl
  beside := by
    have := hb.add_line file number t
    rwa [hr] at this
  abreast :=
    { follows := fun hne => hf.next hline (hend hne) (htidy.mode s line hl (hend hne)) ho hcont
      written := by
        rw [Run.output_add]
        exact .inl (by rw [List.foldl_cons, List.foldl_nil, Output.reading_write_line, hr, hrun]) }
  context := by
    change setup.Contexts r.context r₁.context
    rw [hc]
  comments := by
    refine ⟨s.comments line, [], ?_, fun h => ?_⟩
    · rw [Run.output_add, List.foldl_cons, List.foldl_nil, Output.comments_write_line, hr, ht,
        hcomments]
    · exact .kept hd hkept (hc ▸ h)

/-- Both runs do what the line asks for; behind it a line of its own begins. -/
theorem Passed.of_replaced {d : Directive} (hd : s.directive line = .ok (some d))
    (hreplaced : d.isReplaced = true) {r t t' : Run C} (hb : t.Beside t') (hclosed : t.output.Closed)
    {k₁ : Carry} (hp : k₁.pending = true) (hi : k₁.inComment = k.inComment)
    (hcont : k₁.continued = isContinued line) (hc : setup.Contexts r.context t.context)
    (own : List Char) (ownPaths : List Path)
    (hcomments : t.output.comments = r.output.comments ++ own)
    (hown : ∀ {text paths c}, Commented setup u (s.run line) rest t.context text paths c →
      Commented setup u s (line :: rest) r.context (own ++ text) (ownPaths ++ paths) c) :
    Passed setup u s line rest r k₁ t k₁ t' where
  carry := rfl
  beside := hb
  abreast := by
    have hr : s.replaces line = true := by simp only [Lexer.replaces, hd, hreplaced]
    have hrun : rest ≠ [] → s.run line = {} := fun hne => htidy.run_replaced hl hr (hend hne)
    have hs := Lexer.eq_start_of_directive hd
    refine ⟨fun hne => hf.next hline (hend hne) ?_ ?_ hcont, .inr ⟨hclosed, fun hne => ⟨hp, hrun hne⟩⟩⟩
    · exact .inl (by rw [hrun hne])
    · rw [hrun hne, hi, hf.inComment, hs]
  context := hc
  comments := ⟨own, ownPaths, hcomments, hown⟩

end Line

/-- An include was processed in two runs side by side. -/
structure Included (setup : Setup C) (u : SourceUnit) (target : String) (r t t' : Run C) : Prop where
  beside : t.Beside t'
  closed : t.output.Closed
  inlined : ∃ path text own ownPaths, u.resolve target = .ok path ∧
    setup.files.readText path = .ok text ∧
    Commented setup (u.nested path text) {} (u.nested path text).lines r.context own ownPaths
      t.context ∧ t.output.comments = r.output.comments ++ own

/-- A line with blanks in its comments is processed like the line. -/
theorem alongside_processLine {u : SourceUnit} {s : Lexer} {line : List Char}
    {rest : List (List Char)} {k : Carry} {r r' : Run C} {file : Nat} {place : LineRef}
    {nested nested' : LineRef → String → Action (Run C) SourceError Unit}
    (htidy : u.Tidy (Substitutions.bound? r.context)) (hl : u.HasLine s line)
    (hline : Text.IsLine line) (hend : rest ≠ [] → Text.endsLine line = true)
    (h : Abreast k s r.output (line :: rest)) (hb : r.Beside r')
    (hn : ∀ target, s.directive line = .ok (some (.includeFile target)) → r.output.Closed →
      Alongside (fun _ t _ t' => Included setup u target r t t') (nested place target) r
        (nested' place target) r') :
    Alongside (Passed setup u s line rest r) (processLine setup nested file place k line) r
      (processLine setup.blanked nested' file place k (s.blankLine line)) r' := by
  have hf := h.follows (by simp)
  unfold processLine
  rw [hf.lineDirective, hf.lineDirective, Lexer.directive_blankLine,
    Lexer.isContinued_blankLine hf.held hline]
  refine Run.alongside_orRefuse_bind (p := id) (by cases s.directive line <;> rfl) fun d hd => ?_
  refine Run.alongside_emit_or_skip ?_
  obtain ⟨hb₁, hcomments, hclosed, hreading⟩ := h.lead hb hd file place.line
  change Alongside _ _ (r.add (k.lead d file place.line)) _ (r'.add (k.lead d file place.line))
  have hconsumed : isConsumed d = true → k.lead d file place.line = [] := by
    intro hc
    simp [Carry.lead, Carry.restarts, hc]
  generalize hr₁ : r.add (k.lead d file place.line) = r₁ at *
  generalize hr₁' : r'.add (k.lead d file place.line) = r₁' at *
  have hc : r₁.context = r.context := by rw [← hr₁]; rfl
  cases d with
  | none =>
    have hkeeps : s.keeps line = true := by simp [Lexer.keeps, hd]
    have hr := hreading rfl
    rw [Lexer.blankLine, if_pos hkeeps]
    dsimp only
    have hcopies : (k.atLineStart && startsDirective (s.blank line)) = k.copies line := by
      rw [hf.copies, hf.atLineStart]
      by_cases hs : s = {}
      · rw [hs, Lexer.startsDirective_blank]
      · simp [hs]
    rw [hcopies]
    change Alongside _ (if k.copies line = true then _ else _) _ _ _
    by_cases hcopy : k.copies line = true
    · rw [if_pos hcopy, if_pos hcopy]
      have hs : s = {} := by
        rw [hf.copies, Bool.and_eq_true, decide_eq_true_iff] at hcopy
        exact hcopy.1
      subst hs
      have hopen := endsInComment_eq (.code line) hline
      rw [endsInComment_eq (.code _) (Lexer.isLine_blank hline), Lexer.run_blank, hopen]
      refine Run.alongside_emit_bind (.pure ?_)
      exact Passed.of_written htidy hl hline hend hf hd (by rintro _ ⟨⟩) hb₁ hr hc hcomments rfl rfl rfl rfl file
        place.line
    · rw [if_neg hcopy, if_neg hcopy]
      have hreads := scan_reads (hf.fits line) hline (htidy.binds _ line hl hkeeps)
      refine Alongside.get_bind ?_
      rw [hb₁.context, hc]
      refine Run.alongside_orRefuse_bind hreads.blank ?_
      rintro ⟨text, inComment⟩ ht
      refine Run.alongside_emit_bind (.pure ?_)
      exact Passed.of_written htidy hl hline hend hf hd (by rintro _ ⟨⟩) hb₁ hr hc hcomments (hreads.run ht)
        (hreads.comments ht) (hreads.isOpen ht) rfl file place.line
  | some d =>
    cases d with
    | includeFile target =>
      rw [hconsumed rfl, Run.add_nil] at hr₁ hr₁'
      subst hr₁ hr₁'
      refine Alongside.bind (hn target hd (hclosed rfl)) fun _ t _ t' hin => ?_
      obtain ⟨path, text, own, ownPaths, hp, ht, hinner, hcom⟩ := hin.inlined
      exact .pure (Passed.of_replaced htidy hl hline hend hf hd rfl hin.beside hin.closed rfl rfl rfl
        hinner.contexts own (path :: ownPaths) hcom fun houter => .includeFile hd hp ht hinner houter)
    | request name args =>
      refine Alongside.bind hb₁.alongside_dispatch ?_
      rintro _ t _ t' ⟨hdisp, hb₂, hout⟩
      have hcl := hclosed rfl
      rw [← hout] at hcl hcomments
      cases hdisp with
      | intro hget hargs hcall =>
        rw [hc] at hcall
        refine .pure (Passed.of_replaced htidy hl hline hend hf hd rfl hb₂ hcl rfl rfl rfl
          (.single ⟨_, _, _, hget, hcall⟩) [] [] (by rw [hcomments, List.append_nil]) fun htext => ?_)
        exact .request hd hget hargs hcall htext
    | define name =>
      have hs := Lexer.eq_start_of_directive hd
      subst hs
      obtain ⟨hb₂, hr₂, hc₂⟩ := hb₁.add_passes (hreading rfl) (p := .guard name) (by simp)
        (Piece.passes_guard (passes_of_define (Lexer.of_directive hd).2))
      obtain ⟨hb₃, hr₃, hc₃⟩ := hb₂.add_marker (Output.closed_of_reading hr₂) file place.line
      refine Run.alongside_emit_bind (Run.alongside_emit_bind (Alongside.get_bind ?_))
      have hkeeps : Lexer.keeps {} line = true := by simp [Lexer.keeps, hd, Directive.isReplaced]
      have hreads := scanDefine_reads hline (htidy.binds _ line hl hkeeps)
      rw [hb₃.context, Lexer.blankLine, if_pos hkeeps]
      change Alongside _ (Run.orRefuse _ (scanDefine (Substitutions.bound? r₁.context) _) >>= _) _
        (Run.orRefuse _ (scanDefine (Substitutions.bound? r₁.context) _) >>= _) _
      rw [hc]
      refine Run.alongside_orRefuse_bind hreads.blank ?_
      rintro ⟨text, inComment⟩ ht
      refine Run.alongside_emit_bind (.pure ?_)
      exact Passed.of_written htidy hl hline hend hf hd (by rintro _ ⟨⟩; rfl) hb₃ hr₃ hc
        (by rw [hc₃, hc₂, hcomments]) (hreads.run ht) (hreads.comments ht) (hreads.isOpen ht) rfl
        file place.line
    | expand name control =>
      have hs := Lexer.eq_start_of_directive hd
      subst hs
      refine Alongside.get_bind ?_
      rw [hb₁.context]
      cases hcount : Substitutions.count? r₁.context control with
      | none => exact .throw _
      | some count =>
        have hpass := Piece.passes_calls (htidy.called _ line name control hl hd) file place.line count
        obtain ⟨hb₂, hr₂, hc₂⟩ := hb₁.add_passes (hreading rfl) (by simp) hpass
        refine Run.alongside_emit_bind (.pure ?_)
        refine Passed.of_replaced htidy hl hline hend hf hd rfl hb₂ (Output.closed_of_reading hr₂) rfl
          rfl rfl ?_ [] [] (by rw [hc₂, hcomments, List.append_nil]) fun htext => ?_
        · change setup.Contexts r.context r₁.context
          rw [hc]
        change Commented setup u _ rest r₁.context _ _ _ at htext
        rw [hc] at htext hcount
        exact .expand hd hcount htext

/-! ### Lines, units and runs -/

/-- Lines were processed in two runs side by side. -/
structure Ended (setup : Setup C) (u : SourceUnit) (s : Lexer) (lines : List (List Char))
    (r t t' : Run C) : Prop where
  beside : t.Beside t'
  written : t.output.reading = s.run lines.flatten ∨ t.output.Closed
  comments : ∃ text paths, Commented setup u s lines r.context text paths t.context ∧
    t.output.comments = r.output.comments ++ text

section Units

variable {root : SourceUnit} {c : C} (ho : Orderly setup root c)

include ho

theorem alongside_processLines {u : SourceUnit} (hu : Reaches setup.files root u)
    {nested nested' : LineRef → String → Action (Run C) SourceError Unit} {file : Nat}
    (hn : ∀ {s line target place} {r r' : Run C}, u.HasLine s line →
      s.directive line = .ok (some (.includeFile target)) → setup.Contexts c r.context →
      r.Beside r' → r.output.Closed →
      Alongside (fun _ t _ t' => Included setup u target r t t') (nested place target) r
        (nested' place target) r') :
    ∀ {lines : List (List Char)} (front : List (List Char)) {number : Nat} {k : Carry} {r r' : Run C},
      u.lines = front ++ lines → Abreast k (Lexer.run {} front.flatten) r.output lines →
      r.Beside r' → setup.Contexts c r.context →
      Alongside (fun _ t _ t' => Ended setup u (Lexer.run {} front.flatten) lines r t t')
        (processLines setup nested u.origin file number k lines) r
        (processLines setup.blanked nested' u.origin file number k
          ((Lexer.run {} front.flatten).blankLines lines)) r'
  | [], front, number, k, r, r', hlines, h, hb, hc => by
    refine .pure ⟨hb, ?_, [], [], .done, (List.append_nil _).symm⟩
    exact h.written.imp id And.left
  | line :: rest, front, number, k, r, r', hlines, h, hb, hc => by
    have hl := SourceUnit.hasLine_of_eq hlines
    obtain ⟨hline, hend⟩ := SourceUnit.isLine_of_eq hlines
    refine Alongside.bind (alongside_processLine (ho.tidy u hu _ hc) hl hline hend h hb
      fun target hd hcl => hn hl hd hc hb hcl) ?_
    rintro k₁ t k₂ t' ⟨rfl, hb₁, h₁, hc₁, own, ownPaths, hcomments, hown⟩
    have hlines' : u.lines = (front ++ [line]) ++ rest := by simp [hlines]
    have h₁' : Abreast k₂ (Lexer.run {} (front ++ [line]).flatten) t.output rest := by
      rwa [Lexer.run_concat_line]
    have hrest : Alongside _ (processLines setup nested u.origin file (number + 1) k₂ rest) t
        (processLines setup.blanked nested' u.origin file (number + 1) k₂
          (Lexer.blankLines _ rest)) t' :=
      alongside_processLines hu hn _ hlines' h₁' hb₁ (hc.trans hc₁)
    rw [Lexer.run_concat_line] at hrest
    refine hrest.mono fun _ t₂ _ t₂' hend => ?_
    obtain ⟨hb₂, hw, text, paths, htext, hcom⟩ := hend
    refine ⟨hb₂, ?_, _, _, hown htext, ?_⟩
    · rwa [List.flatten_cons, Lexer.run_append]
    · rw [hcom, hcomments, List.append_assoc]

theorem alongside_processText {u : SourceUnit} (hu : Reaches setup.files root u)
    {nested nested' : LineRef → String → Action (Run C) SourceError Unit}
    (hn : ∀ {s line target place} {r r' : Run C}, u.HasLine s line →
      s.directive line = .ok (some (.includeFile target)) → setup.Contexts c r.context →
      r.Beside r' → r.output.Closed →
      Alongside (fun _ t _ t' => Included setup u target r t t') (nested place target) r
        (nested' place target) r') {r r' : Run C} (hb : r.Beside r') (hcl : r.output.Closed)
    (hc : setup.Contexts c r.context) :
    Alongside (fun _ t _ t' => Ended setup u {} u.lines r t t') (processText setup nested u) r
      (processText setup.blanked nested' u.blanked) r' := by
  unfold processText
  refine Alongside.bind (hb.alongside_openFile u.origin) ?_
  rintro file r₁ _ r₁' ⟨rfl, hb₁, ho₁, hc₁⟩
  rw [← hc₁] at hc
  rw [← ho₁] at hcl
  obtain ⟨hb₂, hr₂, hcom₂⟩ := hb₁.add_marker hcl file 1
  refine Run.alongside_emit_bind ?_
  have hlines : Text.splitLines u.blanked.text.toList = Lexer.blankLines {} u.lines :=
    SourceUnit.lines_blanked u
  rw [hlines]
  have habreast : Abreast {} {} (r₁.add [.marker file 1]).output u.lines := ⟨fun _ => .start, .inl hr₂⟩
  have hprocess : Alongside _ (processLines setup nested u.origin file 1 {} u.lines) _
      (processLines setup.blanked nested' u.origin file 1 {} (Lexer.blankLines {} u.lines)) _ :=
    alongside_processLines ho hu hn [] rfl habreast hb₂ hc
  refine hprocess.mono ?_
  rintro _ t _ t' ⟨hb₃, hw, text, paths, htext, hcom⟩
  change Commented setup u _ _ r₁.context _ _ _ at htext
  rw [hc₁] at htext
  exact ⟨hb₃, hw, text, paths, htext, by rw [hcom, hcom₂, ho₁]⟩

theorem alongside_processUnit : ∀ {room : Nat} {stack : List FileIdentity} {u : SourceUnit}
    {r r' : Run C}, Reaches setup.files root u → r.Beside r' → r.output.Closed →
      setup.Contexts c r.context →
      Alongside (fun _ t _ t' => Ended setup u {} u.lines r t t') (processUnit setup room stack u) r
        (processUnit setup.blanked room stack u.blanked) r'
  | 0, stack, u, r, r', hu, hb, hcl, hc => by
    refine alongside_processText ho hu ?_ hb hcl hc
    intro s line target place r r' _ _ _ _ _
    refine Run.alongside_orRefuse_bind (p := id) ?_ fun path _ => .throw _
    cases hp : u.resolve target <;> simp [hp, Except.map]
  | room + 1, stack, u, r, r', hu, hb, hcl, hc => by
    refine alongside_processText ho hu ?_ hb hcl hc
    intro s line target place r r' hl hd hc hb hcl
    refine Run.alongside_orRefuse_bind (p := id) ?_ fun path hp => ?_
    · cases hp : u.resolve target <;> simp [hp, Except.map]
    refine Alongside.bind alongside_openInclude ?_
    rintro ⟨v, key⟩ _ ⟨v', key'⟩ _ ⟨rfl, rfl, text, ht, rfl, rfl, rfl⟩
    have hin := SourceUnit.mem_includes hl hd hp ht
    refine (alongside_processUnit (hu.tail hin) hb hcl hc).mono ?_
    rintro _ t _ t' ⟨hb₁, hw, own, ownPaths, hown, hcom⟩
    refine ⟨hb₁, ?_, path, text, own, ownPaths, hp, ht, hown, hcom⟩
    rcases hw with hw | hw
    · refine Output.closed_of_closes (Output.sound_ofPieces _) ?_
      rw [hw, SourceUnit.lines, Text.flatten_splitLines]
      exact ho.closes u hu _ hin
    · exact hw

/-- **Comments are opaque.** Blanks in comments change nothing that a run does:
both runs fail with the same error, or both succeed, and then they call the same
handlers, open the same files and come to the same context and map, and the text
is the same up to blanks in its comments. And the comments of the lines that are
written, in the order of the run, are the comments of the text. -/
theorem alongside_process :
    Alongside (fun s r s' r' => s' = s.blanked ∧ r'.context = r.context ∧ r'.files = r.files ∧
        r'.calls = r.calls ∧ ∃ paths,
          Commented setup root {} root.lines c (Lexer.comments {} s.text.toList) paths r.context)
      (process setup root) { context := c } (process setup.blanked root.blanked) { context := c } := by
  unfold process
  have hroot : Run.Beside ({ context := c } : Run C) { context := c } := ⟨rfl, rfl, rfl, rfl⟩
  have hid : setup.blanked.files.identity root.blanked.origin =
      setup.files.identity root.origin := FileTree.identity_mapText _ _
  rw [hid]
  refine Alongside.bind (alongside_processUnit ho .refl hroot rfl .refl) ?_
  rintro _ t _ t' ⟨hb, -, text, paths, htext, hcom⟩
  refine Alongside.get_bind (Alongside.record_bind (.pure ⟨hb.source, hb.context, hb.files, hb.calls, ?_⟩))
  have hcomments : Lexer.comments {} t.source.text.toList = text := hcom
  exact ⟨paths, hcomments ▸ htext⟩

end Units

/-! ### A unit full of comments -/

/-- The line is an expansion. -/
def Lexer.expands (s : Lexer) (line : List Char) : Bool :=
  match s.directive line with
  | .ok (some (.expand _ _)) => true
  | _ => false

/-- Without binds and expansions nothing is put in place of what was written. -/
theorem SourceUnit.Settled.tidy {bound : String → Option String} {u : SourceUnit} (h : u.Settled)
    (hplain : ∀ p ∈ Lexer.readings {} u.lines,
      (p.1.binds p.2).isEmpty = true ∧ p.1.expands p.2 = false ∧ (p.1.run p.2).joined = false) :
    u.Tidy bound where
  toSettled := h
  apart _ _ hl _ _ := (hplain _ hl).2.2
  binds s line hl _ := by
    have hnone := (hplain _ hl).1
    rw [List.isEmpty_iff] at hnone
    intro b hb
    rw [hnone] at hb
    cases hb
  called s line name control hl hd := by
    have hexpands := (hplain _ hl).2.1
    simp [Lexer.expands, hd] at hexpands

/-- Every line has a comment that seems to hold a directive, a color or a bind;
one goes on over two lines. -/
def commentedUnit : SourceUnit :=
  .ofText ⟨"1.frag"⟩ "#include <a> // @x\n/* @y #request none\n#12 */ float x; // #1\n"

/-- The file that is included has such a comment too; there are no requests. -/
def commentedSetup : Setup Unit where
  files := { files := [(["a"], "float y; /* #request none */\n".toUTF8)] }
  requests := ⟨[]⟩

def commentedSource : ProcessedSource :=
  ⟨"#line 1 0\n#line 1 1\nfloat y; /* #request none */\n#line 2 0\n/* @y #request none\n#12 */ float x; // #1\n",
    ⟨[⟨"1.frag"⟩, ⟨"./a"⟩], [⟨2, 0, 1⟩, ⟨3, 1, 1⟩, ⟨5, 0, 2⟩]⟩⟩

def commentedUnits : List SourceUnit :=
  [commentedUnit, commentedUnit.nested ⟨"./a"⟩ "float y; /* #request none */\n"]

theorem orderly_commentedUnit : Orderly commentedSetup commentedUnit () := by
  have hmem {u : SourceUnit} (h : Reaches commentedSetup.files commentedUnit u) :
      u ∈ commentedUnits := h.mem (by simp [commentedUnits]) (by decide +kernel)
  have hsettled : ∀ u ∈ commentedUnits, u.Settled := by decide +kernel
  have hplain : ∀ u ∈ commentedUnits, ∀ p ∈ Lexer.readings {} u.lines,
      (p.1.binds p.2).isEmpty = true ∧ p.1.expands p.2 = false ∧ (p.1.run p.2).joined = false := by
    decide +kernel
  have hcloses : ∀ u ∈ commentedUnits, ∀ v ∈ u.includes commentedSetup.files,
      (Lexer.run {} v.text.toList).Closes := by decide +kernel
  exact ⟨fun u hu _ _ => (hsettled u (hmem hu)).tidy (hplain u (hmem hu)),
    fun u hu => hcloses u (hmem hu)⟩

/-- Nothing in the comments counts, and all of them but the one behind the
include are in the output. -/
theorem alongside_commentedUnit :
    Lexer.comments {} commentedSource.text.toList =
        " #request none */ @y #request none\n#12 */ #1".toList ∧
      ∃ r s' r' paths,
        Gives (process commentedSetup commentedUnit) { context := () } commentedSource r ∧
        Gives (process commentedSetup.blanked commentedUnit.blanked) { context := () } s' r' ∧
        s' = commentedSource.blanked ∧ r'.calls = r.calls ∧
        Commented commentedSetup commentedUnit {} commentedUnit.lines ()
          (Lexer.comments {} commentedSource.text.toList) paths r.context := by
  have hcomments : Lexer.comments {} commentedSource.text.toList =
      " #request none */ @y #request none\n#12 */ #1".toList := by decide +kernel
  have hprocess : Gives (process commentedSetup commentedUnit) { context := () } commentedSource
      (process commentedSetup commentedUnit { context := () } #[]).1.2 :=
    .of_eq_ok (by decide +kernel)
  have halong := @alongside_process _ _ commentedSetup commentedUnit () orderly_commentedUnit
  obtain ⟨s', r', hgives, hsame⟩ := halong.gives hprocess
  obtain ⟨hs, -, -, hcalls, paths, htext⟩ := hsame
  exact ⟨hcomments, _, s', r', paths, hprocess, hgives, hs, hcalls, htext⟩

/-! ### A comment over a joined line -/

/-- A comment to the end of the line, which goes on in the next one. -/
def joinedUnit : SourceUnit := .ofText ⟨"1.frag"⟩ "// \\\n@x\n"

/-- The bind is part of a comment, but it is refused; with blanks in its place
the unit is processed. -/
theorem not_alongside_joinedUnit :
    Lexer.comments {} joinedUnit.text.toList = " \\\n@x".toList ∧
      (∃ r, Fails (process commentedSetup joinedUnit) { context := () }
        (.refused ⟨⟨"1.frag"⟩, 2⟩ (.unresolvedBind "x")) r) ∧
      ¬Alongside (fun _ _ _ _ => True) (process commentedSetup joinedUnit) { context := () }
        (process commentedSetup.blanked joinedUnit.blanked) { context := () } := by
  have hfails : Fails (process commentedSetup joinedUnit) { context := () }
      (.refused ⟨⟨"1.frag"⟩, 2⟩ (.unresolvedBind "x"))
      (process commentedSetup joinedUnit { context := () } #[]).1.2 :=
    .of_eq_error (by decide +kernel)
  refine ⟨by decide, ⟨_, hfails⟩, fun h => absurd (h.isOk_eq #[] #[]) ?_⟩
  decide +kernel

end AudioShader
