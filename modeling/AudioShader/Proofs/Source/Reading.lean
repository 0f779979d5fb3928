/-
# Where a scan is in the reading of a line

A scan of a line and the reading of it go side by side: the zone of the scan is
the one that the mode of the reading belongs to, at every place where the scan
looks. So the comment that a scan leaves open is the one that the reading does.

Key definitions: `LexMode.zone?`, `Within`, `Fits`.
Key theorems: `Fits.copy`, `isOpen_of_finish`, `endsInComment_eq`.
-/
import AudioShader.Proofs.Source.Lexing

namespace AudioShader

/-- The zone that a mode is scanned in; no scan goes on in a comment to the end
of the line. -/
def LexMode.zone? : LexMode → Option Zone
  | .code | .slash => some .code
  | .text | .escape => some .text
  | .block | .star => some .comment
  | .line => none

/-- In front of a character, a scan in a zone and the reading have come equally
far. -/
structure Within (z : Zone) (s : Lexer) (c : Char) : Prop where
  mode : s.mode.zone? = some z
  held : ∀ m, s.held = some m → m.zone? = some z
  whole : s.mode ≠ .escape
  slash : s.mode = .slash → c ≠ '/' ∧ c ≠ '*'
  star : s.mode = .star → c ≠ '/'

/-- A scan of a text in a zone and the reading of it begin equally far. -/
structure Fits (z : Zone) (s : Lexer) (cs : List Char) : Prop where
  isOpen : s.isOpen = decide (z = .comment)
  next : ∀ c rest, cs = c :: rest → Within z s c

theorem Lexer.isOpen_of_zone? {s : Lexer} {z : Zone} (h : s.mode.zone? = some z) :
    s.isOpen = decide (z = .comment) := by
  obtain ⟨mode, held, joined⟩ := s
  cases mode <;> cases z <;> first | rfl | cases h

theorem Within.code (c : Char) : Within .code {} c :=
  ⟨rfl, nofun, nofun, nofun, nofun⟩

theorem Fits.code (cs : List Char) : Fits .code {} cs :=
  ⟨rfl, fun c _ _ => .code c⟩

theorem LexMode.zone?_ended {m : LexMode} {z : Zone} (h : m.zone? = some z) :
    m.ended.zone? = some (if z = .comment then .comment else .code) := by
  cases m <;> cases h <;> rfl

/-- A character that neither opens nor closes anything. -/
structure Lies (z : Zone) (c : Char) (rest : List Char) : Prop where
  code : z = .code → c ≠ '"' ∧ (c = '/' → rest.head? ≠ some '/' ∧ rest.head? ≠ some '*')
  text : z = .text → c ≠ '"' ∧ (c = '\\' → rest = [])
  comment : z = .comment → c = '*' → rest.head? ≠ some '/'

theorem Within.next {z : Zone} {s : Lexer} {c : Char} {rest : List Char} (h : Within z s c)
    (hc : Lies z c rest) : (s.mode.next c).zone? = some z ∧
      (∀ d more, rest = d :: more → s.mode.next c ≠ .escape ∧
      (s.mode.next c = .slash → d ≠ '/' ∧ d ≠ '*') ∧ (s.mode.next c = .star → d ≠ '/')) := by
  obtain ⟨hm, -, hwhole, hslash, hstar⟩ := h
  obtain ⟨hcode, htext, hcomment⟩ := hc
  generalize s.mode = m at *
  cases z <;> cases m <;> simp [LexMode.zone?] at hm hwhole hslash hstar hcode htext hcomment <;>
    (unfold LexMode.next; split <;> simp_all [LexMode.zone?]) <;> grind

theorem Within.step {z : Zone} {s : Lexer} {c : Char} {rest : List Char} (h : Within z s c)
    (hc : Lies z c rest) (hline : Text.IsLine (c :: rest)) : Fits z (s.step c) rest := by
  by_cases hb : c = '\n'
  · subst hb
    obtain rfl : rest = [] := by
      by_contra hne
      exact hline.unbroken (a := ['\n']) hne (by simp)
    refine ⟨?_, nofun⟩
    unfold Lexer.step
    cases hh : s.held with
    | some m => simpa using Lexer.isOpen_of_zone? (s := ⟨m, none, true⟩) (h.held m hh)
    | none =>
      have := Lexer.isOpen_of_zone? (s := ⟨s.mode.ended, none, false⟩) (LexMode.zone?_ended h.mode)
      cases z <;> simpa using this
  · obtain ⟨hm, hnext⟩ := h.next hc
    refine ⟨?_, fun d more hr => ?_⟩
    · have := Lexer.isOpen_of_zone? (s := s.step c) (z := z)
      refine this ?_
      unfold Lexer.step
      simp only [hb, if_false]
      split_ifs <;> exact hm
    · obtain ⟨hwhole, hslash, hstar⟩ := hnext d more hr
      unfold Lexer.step
      simp only [hb, if_false]
      have hheld := h.held
      have hmode := h.mode
      split_ifs
      · exact ⟨hm, by rintro m ⟨⟩; exact hmode, hwhole, hslash, hstar⟩
      · exact ⟨hm, hheld, hwhole, hslash, hstar⟩
      · exact ⟨hm, nofun, hwhole, hslash, hstar⟩

/-! ### Marks -/

theorem mode_of_within_text {s : Lexer} {c : Char} (h : Within .text s c) : s.mode = .text := by
  obtain ⟨hm, -, hw, -, -⟩ := h
  revert hm hw
  cases s.mode <;> simp [LexMode.zone?]

theorem inCode_of_within {s : Lexer} {c : Char} (h : Within .code s c) : s.inCode = true := by
  have := h.mode
  unfold Lexer.inCode
  revert this
  cases s.mode <;> simp [LexMode.zone?]

/-- The marks that open and close texts and comments. -/
theorem Within.run_closing {s : Lexer} (h : Within .comment s '*') : s.run ['*', '/'] = {} := by
  have hm := h.mode
  obtain ⟨mode, held, joined⟩ := s
  cases mode <;> simp [LexMode.zone?, Lexer.step, LexMode.next] at hm ⊢

theorem Within.run_block {s : Lexer} (h : Within .code s '/') :
    s.run ['/', '*'] = ⟨.block, none, false⟩ := by
  have hs : s.mode ≠ .slash := fun hs => (h.slash hs).1 rfl
  have hm := h.mode
  obtain ⟨mode, held, joined⟩ := s
  cases mode <;> simp [LexMode.zone?, Lexer.step, LexMode.next] at hm hs ⊢

theorem Within.run_line {s : Lexer} (h : Within .code s '/') :
    s.run ['/', '/'] = ⟨.line, none, false⟩ := by
  have hs : s.mode ≠ .slash := fun hs => (h.slash hs).1 rfl
  have hm := h.mode
  obtain ⟨mode, held, joined⟩ := s
  cases mode <;> simp [LexMode.zone?, Lexer.step, LexMode.next] at hm hs ⊢

theorem Within.step_opening {s : Lexer} (h : Within .code s '"') :
    s.step '"' = ⟨.text, none, false⟩ := by
  have hm := h.mode
  obtain ⟨mode, held, joined⟩ := s
  cases mode <;> simp [LexMode.zone?, Lexer.step, LexMode.next] at hm ⊢

theorem Within.step_closing {s : Lexer} (h : Within .text s '"') : s.step '"' = {} := by
  simp [Lexer.step, mode_of_within_text h, LexMode.next]

theorem Fits.text (cs : List Char) : Fits .text ⟨.text, none, false⟩ cs :=
  ⟨rfl, fun _ _ _ => ⟨rfl, nofun, nofun, nofun, nofun⟩⟩

theorem Fits.comment (cs : List Char) : Fits .comment ⟨.block, none, false⟩ cs :=
  ⟨rfl, fun _ _ _ => ⟨rfl, nofun, nofun, nofun, nofun⟩⟩

theorem Lexer.run_pair (s : Lexer) (c d : Char) : s.run [c, d] = (s.step c).step d := rfl

/-- Behind a backslash any character is part of a quoted text. -/
theorem Within.escape {s : Lexer} {c : Char} {rest : List Char} (h : Within .text s '\\')
    (hline : Text.IsLine ('\\' :: c :: rest)) : Fits .text (s.run ['\\', c]) rest := by
  have hmode := mode_of_within_text h
  have hstep : s.step '\\' = ⟨.escape, some .text, false⟩ := by
    simp [Lexer.step, hmode, LexMode.next]
  rw [Lexer.run_pair, hstep]
  by_cases hb : c = '\n'
  · subst hb
    obtain rfl : rest = [] := by
      by_contra hne
      exact hline.unbroken (a := ['\\', '\n']) hne (by simp)
    exact ⟨rfl, by rintro _ _ ⟨⟩⟩
  · have hnext : LexMode.next .escape c = .text := rfl
    unfold Lexer.step
    simp only [hb, if_false, hnext]
    split_ifs
    all_goals
      refine ⟨rfl, fun d more _ => ⟨rfl, ?_, by rintro ⟨⟩, by rintro ⟨⟩, by rintro ⟨⟩⟩⟩
      rintro m ⟨⟩
      try rfl

section Fits

variable {s : Lexer} {c : Char} {cs : List Char}

/-- In a comment a character is passed over that does not begin its closing mark. -/
theorem Fits.step_comment (h : Fits .comment s (c :: cs)) (hline : Text.IsLine (c :: cs))
    (hc : ∀ more, c = '*' → cs = '/' :: more → False) : Fits .comment (s.step c) cs := by
  refine (h.next _ _ rfl).step ⟨nofun, nofun, fun _ hstar hs => ?_⟩ hline
  obtain ⟨more, rfl⟩ := List.head?_eq_some_iff.1 hs
  exact hc more hstar rfl

theorem Fits.step_text (h : Fits .text s (c :: cs)) (hline : Text.IsLine (c :: cs))
    (hescape : ∀ d more, c = '\\' → cs = d :: more → False) (hq : c = '"' → False) :
    Fits .text (s.step c) cs := by
  refine (h.next _ _ rfl).step ⟨nofun, fun _ => ⟨hq, fun hb => ?_⟩, nofun⟩ hline
  cases cs with
  | nil => rfl
  | cons d more => exact (hescape d more hb rfl).elim

theorem Fits.step_code (h : Fits .code s (c :: cs)) (hline : Text.IsLine (c :: cs))
    (hl : ∀ more, c = '/' → cs = '/' :: more → False)
    (hb : ∀ more, c = '/' → cs = '*' :: more → False) (hq : c = '"' → False) :
    Fits .code (s.step c) cs := by
  refine (h.next _ _ rfl).step ⟨fun _ => ⟨hq, fun hs => ⟨fun hh => ?_, fun hh => ?_⟩⟩, nofun, nofun⟩
    hline
  · obtain ⟨more, rfl⟩ := List.head?_eq_some_iff.1 hh
    exact hl more hs rfl
  · obtain ⟨more, rfl⟩ := List.head?_eq_some_iff.1 hh
    exact hb more hs rfl

end Fits

theorem Fits.copy {z z' : Zone} {s : Lexer} {cs lead rest : List Char} (h : Fits z s cs)
    (hline : Text.IsLine cs) (hl : look z cs = .copy lead z' rest) : Fits z' (s.run lead) rest := by
  have hn := h.next
  revert hl
  fun_cases look z cs with
  | case1 => rintro ⟨⟩
  | case2 =>
    rintro ⟨⟩
    rw [(hn _ _ rfl).run_closing]
    exact .code rest
  | case3 c _ hc =>
    rintro ⟨⟩
    exact h.step_comment hline hc
  | case4 c =>
    rintro ⟨⟩
    exact (hn _ _ rfl).escape hline
  | case5 =>
    rintro ⟨⟩
    rw [Lexer.run_cons, (hn _ _ rfl).step_closing]
    exact .code rest
  | case6 c _ hescape hq =>
    rintro ⟨⟩
    exact h.step_text hline hescape hq
  | case7 => rintro ⟨⟩
  | case8 =>
    rintro ⟨⟩
    rw [(hn _ _ rfl).run_block]
    exact .comment rest
  | case9 =>
    rintro ⟨⟩
    rw [Lexer.run_cons, (hn _ _ rfl).step_opening]
    exact .text rest
  | case10 =>
    rintro ⟨⟩
    have hrun : s.run ['#', '#'] = {} := by
      rw [Lexer.run_pair, Lexer.step_plain (inCode_of_within (hn _ _ rfl)) (by decide)]
      decide
    rw [hrun]
    exact .code rest
  | case11 =>
    unfold lookAtHash
    split <;> rintro ⟨⟩
    rw [Lexer.run_cons, Lexer.step_plain (inCode_of_within (hn _ _ rfl)) (by decide)]
    exact .code rest
  | case12 =>
    unfold lookAtBind
    split <;> rintro ⟨⟩
    rw [Lexer.run_cons, Lexer.step_plain (inCode_of_within (hn _ _ rfl)) (by decide)]
    exact .code rest
  | case13 c _ hl hb hq =>
    rintro ⟨⟩
    exact h.step_code hline hl hb hq

theorem look_color_zone {z : Zone} {cs : List Char} {color : Color} {rest : List Char}
    (hl : look z cs = .color color rest) : z = .code := by
  revert hl
  fun_cases look z cs with
  | _ => first | exact fun _ => rfl | rintro ⟨⟩

theorem look_bind_zone {z : Zone} {cs : List Char} {b : Bind} (hl : look z cs = .bind b) : z = .code := by
  revert hl
  fun_cases look z cs with
  | _ => first | exact fun _ => rfl | rintro ⟨⟩

/-! ### Where a scan ends -/

/-- A comment to the end of the line leaves no other one open. -/
theorem Lexer.isOpen_of_line {s : Lexer} (hm : s.mode = .line) (hh : ∀ m, s.held = some m → m = .line) :
    ∀ {cs : List Char}, Text.IsLine cs → (s.run cs).isOpen = false
  | [], _ => by simp [Lexer.isOpen, hm]
  | c :: cs, hline => by
    by_cases hc : c = '\n'
    · subst hc
      obtain rfl : cs = [] := by
        by_contra hne
        exact hline.unbroken (a := ['\n']) hne (by simp)
      rw [Lexer.run_cons, Lexer.run_nil, Lexer.isOpen, Lexer.mode_step, if_pos rfl]
      cases hs : s.held with
      | some m => simp [hh m hs]
      | none => simp [hm, LexMode.ended]
    · have hnext : s.mode.next c = .line := by rw [hm]; rfl
      refine Lexer.isOpen_of_line (s := s.step c) ?_ ?_ (hline.suffix (a := [c]))
      · rw [Lexer.mode_step, if_neg hc, hnext]
      · unfold Lexer.step
        simp only [hc, if_false]
        split_ifs
        · rintro m ⟨⟩
          exact hm
        · exact hh
        · rintro _ ⟨⟩

theorem look_finish {z : Zone} {cs : List Char} (hl : look z cs = .finish) :
    cs = [] ∨ z = .code ∧ ∃ more, cs = '/' :: '/' :: more := by
  revert hl
  fun_cases look z cs with
  | case1 => exact fun _ => .inl rfl
  | case7 more => exact fun _ => .inr ⟨rfl, more, rfl⟩
  | case11 cs =>
    unfold lookAtHash
    split <;> rintro ⟨⟩
  | case12 cs =>
    unfold lookAtBind
    split <;> rintro ⟨⟩
  | _ => rintro ⟨⟩

theorem isOpen_of_finish {z : Zone} {s : Lexer} {cs : List Char} (h : Fits z s cs)
    (hline : Text.IsLine cs) (hl : look z cs = .finish) :
    (s.run cs).isOpen = decide (z = .comment) := by
  rcases look_finish hl with rfl | ⟨rfl, more, rfl⟩
  · exact h.isOpen
  · rw [show '/' :: '/' :: more = ['/', '/'] ++ more from rfl, Lexer.run_append,
      (h.next _ _ rfl).run_line]
    exact Lexer.isOpen_of_line (s := ⟨.line, none, false⟩) rfl nofun (hline.suffix (a := ['/', '/']))

/-- A line that is left to the compiler is read as well. -/
theorem endsInComment_eq : ∀ {z : Zone} {s : Lexer} {cs : List Char}, Fits z s cs → Text.IsLine cs →
    endsInComment z cs = (s.run cs).isOpen := by
  intro z s cs h hline
  have hn := h.next
  fun_induction endsInComment z cs generalizing s with
  | case1 z => exact h.isOpen.symm
  | case2 cs ih =>
    rw [show '*' :: '/' :: cs = ['*', '/'] ++ cs from rfl, Lexer.run_append,
      (hn _ _ rfl).run_closing]
    exact ih (.code cs) (hline.suffix (a := ['*', '/'])) (Fits.code cs).next
  | case3 c cs hc ih =>
    have hfit := h.step_comment hline hc
    exact ih hfit (hline.suffix (a := [c])) hfit.next
  | case4 c cs ih =>
    have hfit := (hn _ _ rfl).escape hline
    exact ih hfit (hline.suffix (a := ['\\', c])) hfit.next
  | case5 cs ih =>
    rw [Lexer.run_cons, (hn _ _ rfl).step_closing]
    exact ih (.code cs) (hline.suffix (a := ['"'])) (Fits.code cs).next
  | case6 c cs hescape hq ih =>
    have hfit := h.step_text hline hescape hq
    exact ih hfit (hline.suffix (a := [c])) hfit.next
  | case7 cs =>
    rw [show '/' :: '/' :: cs = ['/', '/'] ++ cs from rfl, Lexer.run_append, (hn _ _ rfl).run_line]
    exact (Lexer.isOpen_of_line (s := ⟨.line, none, false⟩) rfl nofun
      (hline.suffix (a := ['/', '/']))).symm
  | case8 cs ih =>
    rw [show '/' :: '*' :: cs = ['/', '*'] ++ cs from rfl, Lexer.run_append, (hn _ _ rfl).run_block]
    exact ih (.comment cs) (hline.suffix (a := ['/', '*'])) (Fits.comment cs).next
  | case9 cs ih =>
    rw [Lexer.run_cons, (hn _ _ rfl).step_opening]
    exact ih (.text cs) (hline.suffix (a := ['"'])) (Fits.text cs).next
  | case10 c cs hl hb hq ih =>
    have hfit := h.step_code hline hl hb hq
    exact ih hfit (hline.suffix (a := [c])) hfit.next

end AudioShader
