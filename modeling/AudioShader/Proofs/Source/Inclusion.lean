/-
# Lines of a unit, as the shading language reads them

Reading a unit from its first line tells in front of every line what is open
there, so it tells which lines are directives and which units are included. The
carry of a run follows this reading as long as no line goes on in the next one
in the middle of something, and no comment is opened on a line that is replaced.

Key definitions: `SourceUnit.HasLine`, `Reaches`, `SourceUnit.Settled`,
`Carry.Follows`, `Inlines`.
Key theorems: `Carry.Follows.lineDirective`, `Carry.Follows.next`.
-/
import Mathlib.Logic.Relation
import AudioShader.Proofs.Source.Attribution
import AudioShader.Proofs.Source.Blanking

namespace AudioShader

/-- A directive in place of which something else is written, or nothing. -/
def Directive.isReplaced : Directive → Bool
  | .define _ => false
  | _ => true

/-- The line is a directive that is replaced. -/
def Lexer.replaces (s : Lexer) (line : List Char) : Bool :=
  match s.directive line with
  | .ok (some d) => d.isReplaced
  | _ => false

/-- Lines, each with the reading in front of it. -/
def Lexer.readings : Lexer → List (List Char) → List (Lexer × List Char)
  | _, [] => []
  | s, line :: rest => (s, line) :: Lexer.readings (s.run line) rest

namespace SourceUnit

/-- A line of the unit, with the reading in front of it. -/
def HasLine (u : SourceUnit) (s : Lexer) (line : List Char) : Prop :=
  (s, line) ∈ Lexer.readings {} u.lines

/-- The unit that a line includes. -/
def included? (files : FileTree) (u : SourceUnit) (s : Lexer) (line : List Char) :
    Option SourceUnit :=
  match s.directive line with
  | .ok (some (.includeFile target)) =>
    match u.resolve target with
    | .ok path =>
      match files.readText path with
      | .ok text => some (u.nested path text)
      | .error _ => none
    | .error _ => none
  | _ => none

/-- The units that the lines of a unit include. -/
def includes (files : FileTree) (u : SourceUnit) : List SourceUnit :=
  (Lexer.readings {} u.lines).filterMap fun p => u.included? files p.1 p.2

/-- Where a line ends nothing is open but a comment, and no comment where the
line is replaced. -/
structure Settled (u : SourceUnit) : Prop where
  mode : ∀ s line, u.HasLine s line → Text.endsLine line = true →
    (s.run line).mode = .code ∨ (s.run line).mode = .block
  replaced : ∀ s line, u.HasLine s line → s.replaces line = true → Text.endsLine line = true →
    (s.run line).isOpen = false

instance (u : SourceUnit) : Decidable u.Settled :=
  decidable_of_iff
    ((∀ p ∈ Lexer.readings {} u.lines, Text.endsLine p.2 = true →
        (p.1.run p.2).mode = .code ∨ (p.1.run p.2).mode = .block) ∧
      ∀ p ∈ Lexer.readings {} u.lines, p.1.replaces p.2 = true → Text.endsLine p.2 = true →
        (p.1.run p.2).isOpen = false)
    ⟨fun h => ⟨fun _ _ hl => h.1 _ hl, fun _ _ hl => h.2 _ hl⟩,
      fun h => ⟨fun _ hl => h.mode _ _ hl, fun _ hl => h.replaced _ _ hl⟩⟩

end SourceUnit

/-- A unit and what it includes, on lines of its own or of what it includes. -/
abbrev Reaches (files : FileTree) : SourceUnit → SourceUnit → Prop :=
  Relation.ReflTransGen fun u v => v ∈ u.includes files

/-- What is reached from a list of units that holds whatever they include. -/
theorem Reaches.mem {files : FileTree} {units : List SourceUnit} {u v : SourceUnit}
    (h : Reaches files u v) (hu : u ∈ units)
    (hclosed : ∀ u ∈ units, ∀ v ∈ u.includes files, v ∈ units) : v ∈ units := by
  induction h with
  | refl => exact hu
  | tail _ hv ih => exact hclosed _ ih _ hv

theorem Lexer.mem_readings (s : Lexer) (front rest : List (List Char)) (line : List Char) :
    (s.run front.flatten, line) ∈ s.readings (front ++ line :: rest) := by
  induction front generalizing s with
  | nil => exact List.mem_cons_self ..
  | cons l front ih =>
    rw [List.flatten_cons, Lexer.run_append, List.cons_append, Lexer.readings]
    exact List.mem_cons_of_mem _ (ih _)

namespace SourceUnit

variable {u : SourceUnit} {front rest : List (List Char)} {line : List Char}

theorem hasLine_of_eq (h : u.lines = front ++ line :: rest) :
    u.HasLine (Lexer.run {} front.flatten) line := by
  rw [HasLine, h]
  exact Lexer.mem_readings {} front rest line

theorem mem_includes {files : FileTree} {s : Lexer} {target : String} {path : Path} {text : String}
    (hl : u.HasLine s line) (hd : s.directive line = .ok (some (.includeFile target)))
    (hp : u.resolve target = .ok path) (ht : files.readText path = .ok text) :
    u.nested path text ∈ u.includes files := by
  refine List.mem_filterMap.2 ⟨_, hl, ?_⟩
  simp only [included?, hd, hp, ht]

/-- A line of a unit has a line feed at most at its end, and the last line only
may have none. -/
theorem isLine_of_eq (h : u.lines = front ++ line :: rest) :
    Text.IsLine line ∧ (rest ≠ [] → Text.endsLine line = true) := by
  have hl : u.lines[front.length]? = some line := by simp [h]
  obtain ⟨hi, he⟩ := Text.isLine_of_cut (Text.cut_splitLines u.text.toList) hl
  refine ⟨hi, fun hne => he ?_⟩
  rw [← SourceUnit.lines, h, List.length_append, List.length_cons]
  have := List.length_pos_iff.2 hne
  omega

end SourceUnit

/-- A directive is read at the start only. -/
theorem Lexer.eq_start_of_directive {s : Lexer} {line : List Char} {d : Directive}
    (h : s.directive line = .ok (some d)) : s = {} := by
  unfold Lexer.directive at h
  split at h
  · next hs => exact hs.1
  · cases h

theorem Lexer.of_directive {s : Lexer} {line : List Char} {d : Directive}
    (h : s.directive line = .ok (some d)) :
    startsDirective line = true ∧ readDirective line = .ok (some d) := by
  unfold Lexer.directive at h
  split at h
  · next hs => exact ⟨hs.2, h⟩
  · cases h

variable {C : Type}

/-- The lines of a unit amount to a text, read from the first of them on: a line
that is left to the compiler and a definition to what `copied` makes of it, an
include to the text that the included unit amounts to, a request to nothing and
an expansion to what `called` makes of its calls. `paths` are the files that are
opened on the way, and the context goes from the first to the second one. -/
inductive Inlines [Substitutions C] (copied : Lexer → List Char → List Char)
    (called : String → Nat → List Char) (setup : Setup C) :
    SourceUnit → Lexer → List (List Char) → C → List Char → List Path → C → Prop
  | done {u s c} : Inlines copied called setup u s [] c [] [] c
  | includeFile {u s line rest c c₁ c₂ target path text inner innerPaths outer outerPaths} :
      s.directive line = .ok (some (.includeFile target)) → u.resolve target = .ok path →
      setup.files.readText path = .ok text →
      Inlines copied called setup (u.nested path text) {} (u.nested path text).lines c inner
        innerPaths c₁ →
      Inlines copied called setup u (s.run line) rest c₁ outer outerPaths c₂ →
      Inlines copied called setup u s (line :: rest) c (inner ++ outer)
        (path :: innerPaths ++ outerPaths) c₂
  | request {u s line rest c c₁ c₂ name tokens args request text paths} :
      s.directive line = .ok (some (.request name tokens)) →
      setup.requests.get? name = some request → coerceArgs request.signature tokens = .ok args →
      request.handler args c = (.ok (), c₁) →
      Inlines copied called setup u (s.run line) rest c₁ text paths c₂ →
      Inlines copied called setup u s (line :: rest) c text paths c₂
  | expand {u s line rest c c₁ name control count text paths} :
      s.directive line = .ok (some (.expand name control)) →
      Substitutions.count? c control = some count →
      Inlines copied called setup u (s.run line) rest c text paths c₁ →
      Inlines copied called setup u s (line :: rest) c (called name count ++ text) paths c₁
  | kept {u s line rest c c₁ d text paths} : s.directive line = .ok d →
      (∀ d', d = some d' → d'.isReplaced = false) →
      Inlines copied called setup u (s.run line) rest c text paths c₁ →
      Inlines copied called setup u s (line :: rest) c (copied s line ++ text) paths c₁

/-- What lines amount to is determined by them. -/
theorem Inlines.unique {copied : Lexer → List Char → List Char} {called : String → Nat → List Char}
    [Substitutions C] {setup : Setup C} {u : SourceUnit} {s : Lexer} {lines : List (List Char)} {c c₁ c₂ : C}
    {text₁ text₂ : List Char} {paths₁ paths₂ : List Path}
    (h₁ : Inlines copied called setup u s lines c text₁ paths₁ c₁)
    (h₂ : Inlines copied called setup u s lines c text₂ paths₂ c₂) :
    text₁ = text₂ ∧ paths₁ = paths₂ ∧ c₁ = c₂ := by
  induction h₁ generalizing text₂ paths₂ c₂ with
  | done =>
    cases h₂
    exact ⟨rfl, rfl, rfl⟩
  | includeFile hd hp ht _ _ ihn ihr =>
    cases h₂ with
    | includeFile hd' hp' ht' hn' hr' =>
      rw [hd] at hd'
      cases hd'
      rw [hp] at hp'
      cases hp'
      rw [ht] at ht'
      cases ht'
      obtain ⟨rfl, rfl, rfl⟩ := ihn hn'
      obtain ⟨rfl, rfl, rfl⟩ := ihr hr'
      exact ⟨rfl, rfl, rfl⟩
    | request hd' => rw [hd] at hd'; cases hd'
    | expand hd' => rw [hd] at hd'; cases hd'
    | kept hd' hk =>
      rw [hd] at hd'
      cases hd'
      cases hk _ rfl
  | request hd hg ha hc _ ih =>
    cases h₂ with
    | request hd' hg' ha' hc' hr' =>
      rw [hd] at hd'
      cases hd'
      rw [hg] at hg'
      cases hg'
      rw [ha] at ha'
      cases ha'
      rw [hc] at hc'
      cases hc'
      exact ih hr'
    | includeFile hd' => rw [hd] at hd'; cases hd'
    | expand hd' => rw [hd] at hd'; cases hd'
    | kept hd' hk =>
      rw [hd] at hd'
      cases hd'
      cases hk _ rfl
  | expand hd hc _ ih =>
    cases h₂ with
    | expand hd' hc' hr' =>
      rw [hd] at hd'
      cases hd'
      rw [hc] at hc'
      cases hc'
      obtain ⟨rfl, rfl, rfl⟩ := ih hr'
      exact ⟨rfl, rfl, rfl⟩
    | includeFile hd' => rw [hd] at hd'; cases hd'
    | request hd' => rw [hd] at hd'; cases hd'
    | kept hd' hk =>
      rw [hd] at hd'
      cases hd'
      cases hk _ rfl
  | kept hd hk _ ih =>
    cases h₂ with
    | kept hd' hk' hr' =>
      obtain ⟨rfl, rfl, rfl⟩ := ih hr'
      exact ⟨rfl, rfl, rfl⟩
    | includeFile hd' =>
      rw [hd] at hd'
      cases hd'
      cases hk _ rfl
    | request hd' =>
      rw [hd] at hd'
      cases hd'
      cases hk _ rfl
    | expand hd' =>
      rw [hd] at hd'
      cases hd'
      cases hk _ rfl

/-! ### The carry follows the reading -/

/-- What the lines in front left is what reading them leaves. -/
structure Carry.Follows (k : Carry) (s : Lexer) : Prop where
  inComment : k.inComment = s.isOpen
  continued : k.continued = s.joined
  held : s.held = none
  mode : s.mode = .code ∨ s.mode = .block

namespace Carry.Follows

variable {k k' : Carry} {s : Lexer} {line : List Char}

theorem start : Carry.Follows {} {} := ⟨rfl, rfl, rfl, .inl rfl⟩

/-- A directive can stand where the reading is as at the start. -/
theorem atLineStart (h : k.Follows s) : k.atLineStart = decide (s = {}) := by
  obtain ⟨hi, hc, hh, hm⟩ := h
  obtain ⟨mode, held, joined⟩ := s
  subst hh
  rw [Carry.atLineStart, hi, hc]
  rcases hm with rfl | rfl <;> cases joined <;> rfl

theorem lineDirective (h : k.Follows s) (line : List Char) :
    lineDirective k line = s.directive line := by
  unfold AudioShader.lineDirective Lexer.directive
  rw [h.atLineStart]
  by_cases hs : s = {} <;> simp [hs]

theorem copies (h : k.Follows s) (line : List Char) :
    k.copies line = (decide (s = {}) && startsDirective line) := by
  rw [Carry.copies, h.atLineStart]

/-- A scan of the next line begins where the reading is. -/
theorem fits (h : k.Follows s) (cs : List Char) : Fits k.zone s cs := by
  obtain ⟨hi, -, hh, hm⟩ := h
  obtain ⟨mode, held, joined⟩ := s
  subst hh
  rw [Carry.zone, hi]
  rcases hm with rfl | rfl
  · exact ⟨rfl, fun _ _ _ => ⟨rfl, by rintro _ ⟨⟩, by rintro ⟨⟩, by rintro ⟨⟩, by rintro ⟨⟩⟩⟩
  · exact ⟨rfl, fun _ _ _ => ⟨rfl, by rintro _ ⟨⟩, by rintro ⟨⟩, by rintro ⟨⟩, by rintro ⟨⟩⟩⟩

end Carry.Follows

/-- Nothing is held behind a line feed. -/
theorem Lexer.held_of_endsLine {line : List Char} (h : Text.endsLine line = true) (s : Lexer) :
    (s.run line).held = none := by
  obtain ⟨front, rfl⟩ := List.getLast?_eq_some_iff.1 (by simpa [Text.endsLine] using h)
  rw [run_concat, step, if_pos rfl]
  cases (s.run front).held <;> rfl

namespace Carry.Follows

variable {k k' : Carry} {s : Lexer} {line : List Char}

/-- The carry goes on following, if the line leaves the comment open that the
reading does. -/
theorem next (h : k.Follows s) (hl : Text.IsLine line) (he : Text.endsLine line = true)
    (hm : (s.run line).mode = .code ∨ (s.run line).mode = .block)
    (ho : k'.inComment = (s.run line).isOpen) (hc : k'.continued = isContinued line) :
    k'.Follows (s.run line) := by
  have hheld := Lexer.held_of_endsLine he s
  have hne : line ≠ [] := by
    rintro rfl
    cases he
  refine ⟨ho, ?_, hheld, hm⟩
  rw [hc, Lexer.isContinued_eq h.held hl hne, hheld]
  simp

end Carry.Follows

theorem Lexer.run_concat_line (front : List (List Char)) (line : List Char) :
    Lexer.run {} (front ++ [line]).flatten = (Lexer.run {} front.flatten).run line := by
  rw [List.flatten_append, Lexer.run_append, List.flatten_singleton]

/-- Behind a line the carry follows the reading, if it holds the comment that
the reading leaves open. -/
theorem Carry.Follows.behind {k : Carry} {d : Option Directive} {front rest : List (List Char)}
    {line : List Char} {unit : SourceUnit} (hf : k.Follows (Lexer.run {} front.flatten)) (hs : unit.Settled)
    (hlines : unit.lines = front ++ line :: rest)
    (ho : Text.endsLine line = true →
      (k.after d line).inComment = ((Lexer.run {} front.flatten).run line).isOpen) :
    rest ≠ [] → (k.after d line).Follows (Lexer.run {} (front ++ [line]).flatten) := by
  intro hne
  obtain ⟨hi, he⟩ := SourceUnit.isLine_of_eq hlines
  rw [Lexer.run_concat_line]
  exact hf.next hi (he hne) (hs.mode _ line (SourceUnit.hasLine_of_eq hlines) (he hne)) (ho (he hne)) rfl

/-- Behind a line that is replaced no comment is open. -/
theorem Carry.Follows.behind_replaced {k : Carry} {d : Directive} {front rest : List (List Char)}
    {line : List Char} {unit : SourceUnit} (hf : k.Follows (Lexer.run {} front.flatten)) (hs : unit.Settled)
    (hlines : unit.lines = front ++ line :: rest)
    (hd : (Lexer.run {} front.flatten).directive line = .ok (some d)) (hr : d.isReplaced = true) :
    rest ≠ [] → (k.after (some d) line).Follows (Lexer.run {} (front ++ [line]).flatten) := by
  refine hf.behind hs hlines fun he => ?_
  have hreplaces : (Lexer.run {} front.flatten).replaces line = true := by
    simp only [Lexer.replaces, hd, hr]
  have ho := hs.replaced _ line (SourceUnit.hasLine_of_eq hlines) hreplaces he
  have hk : (k.after (some d) line).inComment = k.inComment := by
    cases d <;> first | rfl | cases hr
  rw [hk, hf.inComment, ho, Lexer.eq_start_of_directive hd]
  rfl

/-- A line that is left to the compiler or defines a macro stands as one text,
behind a guard and a marker if it is a definition, and the text is read like the
line. -/
theorem Stands.copied [Substitutions C] {c : C} {k : Carry} {s : Lexer} {file number : Nat}
    {line : List Char} {d : Option Directive} {ps : List Piece}
    (h : Stands c k file number line d ps) (hf : k.Follows s)
    (hd : s.directive line = .ok d) (hk : ∀ d', d = some d' → d'.isReplaced = false)
    (hline : Text.IsLine line)
    (hb : Lexer.Binds (Bind.Harmless (Substitutions.bound? c)) s line) :
    ∃ t, (ps = [.line file number t] ∨
        ∃ name, d = some (.define name) ∧ ps = [.guard name, .marker file number, .line file number t]) ∧
      s.run t = s.run line ∧ s.comments t = s.comments line ∧
      (k.after d line).inComment = (s.run line).isOpen := by
  cases h with
  | @define name t inComment ht =>
    obtain rfl := Lexer.eq_start_of_directive hd
    have hr := scanDefine_reads hline hb
    refine ⟨t, .inr ⟨name, rfl, rfl⟩, hr.run ht, hr.comments ht, ?_⟩
    rw [← hr.isOpen ht]
    exact scanDefine_leavesOpen ht
  | expand hc => cases hk _ rfl
  | verbatim hc =>
    rw [hf.copies, Bool.and_eq_true, decide_eq_true_iff] at hc
    obtain rfl := hc.1
    refine ⟨line, .inl rfl, rfl, rfl, ?_⟩
    have hcopies : k.copies line = true := by rw [hf.copies]; simp [hc.2]
    simp only [Carry.after, Carry.leavesComment, hcopies, if_true]
    exact endsInComment_eq (.code line) hline
  | @body t inComment hc ht =>
    have hr := scan_reads (hf.fits line) hline hb
    refine ⟨t, .inl rfl, hr.run ht, hr.comments ht, ?_⟩
    rw [← hr.isOpen ht]
    simp only [Carry.after, Carry.leavesComment, hc, Bool.false_eq_true, if_false]
    exact scan_leavesOpen ht

end AudioShader
