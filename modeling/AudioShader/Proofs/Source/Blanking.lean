/-
# Scanning with the comments left out

A scan does not look into comments: where they are filled with blanks it finds
the same colors and binds, fails alike and writes the same with blanks in the
same places. If no bind opens or closes anything by its default or by what
stands for it, then what a scan writes is read like the line, and has its
comments (`scan_reads`).

Key definitions: `Bind.Harmless`, `Reads`.
Key theorems: `look_blank`, `scan_reads`.
-/
import AudioShader.Proofs.Source.Reading

namespace AudioShader

open Lexer (Passes Inert isPlain)

/-! ### Names, colors and binds -/

theorem isPlain_of_isNameChar {c : Char} (h : Text.isNameChar c = true) : isPlain c = true := by
  simp only [isPlain, Bool.and_eq_true, bne_iff_ne]
  refine ⟨⟨⟨⟨⟨?_, ?_⟩, ?_⟩, ?_⟩, ?_⟩, ?_⟩ <;> rintro rfl <;> exact absurd h (by decide)

theorem isPlain_of_isHexDigit {c : Char} (h : isHexDigit c = true) : isPlain c = true := by
  simp only [isPlain, Bool.and_eq_true, bne_iff_ne]
  refine ⟨⟨⟨⟨⟨?_, ?_⟩, ?_⟩, ?_⟩, ?_⟩, ?_⟩ <;> rintro rfl <;> exact absurd h (by decide)

theorem takeWhile_eq_of_head? {p : Char → Bool} {w x x' : List Char} (hx : x.head? = x'.head?)
    (h : (w ++ x).takeWhile p = w) : (w ++ x').takeWhile p = w := by
  induction w with
  | nil =>
    cases x <;> cases x' <;> simp_all
  | cons c w ih =>
    simp only [List.cons_append, List.takeWhile_cons] at h ⊢
    split at h
    · next hc => rw [if_pos hc, ih (List.cons.inj h).2]
    · cases h

theorem Color.scan_congr {digits x x' : List Char} (hx : x.head? = x'.head?)
    (hd : ((digits ++ x).take maxHexDigits).takeWhile isHexDigit = digits) :
    Color.scan (digits ++ x') = (Color.scan (digits ++ x)).map (Option.map fun p => (p.1, x')) := by
  have hd' : ((digits ++ x').take maxHexDigits).takeWhile isHexDigit = digits := by
    have hle : digits.length ≤ maxHexDigits := by
      rw [← hd]
      exact (List.takeWhile_prefix _).length_le.trans (List.length_take_le _ _)
    rw [List.take_append, List.take_of_length_le hle] at hd ⊢
    refine takeWhile_eq_of_head? ?_ hd
    cases maxHexDigits - digits.length <;> simp [List.head?_take, hx]
  unfold Color.scan
  rw [hd, hd']
  simp only [List.drop_left, ← hx]
  simp only [bind, Except.bind, pure, Except.pure, throw, throwThe, MonadExceptOf.throw]
  cases x.head? with
  | none =>
    by_cases hn : digits = []
    · simp [hn, Except.map]
    · cases hc : Color.ofHex (String.ofList digits) <;> simp [hn, Except.map]
  | some c =>
    by_cases hc : Text.isNameChar c = true
    · by_cases hh : digits ≠ [] ∧ isHexDigit c = true <;> simp [hc, hh, Except.map]
    · by_cases hn : digits = []
      · simp [hc, hn, Except.map]
      · cases Color.ofHex (String.ofList digits) <;> simp [hc, hn, Except.map]

/-- The run of digits that a color is read from. -/
theorem Color.split_digits (cs : List Char) : ∃ digits x, cs = digits ++ x ∧
    ((digits ++ x).take maxHexDigits).takeWhile isHexDigit = digits ∧ Passes {} digits := by
  have hpre : (cs.take maxHexDigits).takeWhile isHexDigit <+: cs :=
    (List.takeWhile_prefix _).trans (List.take_prefix _ _)
  obtain ⟨x, hx⟩ := hpre
  refine ⟨_, x, hx.symm, by rw [hx], Lexer.passes_of_plain (List.all_eq_true.2 fun c hc => ?_)⟩
  exact isPlain_of_isHexDigit (List.mem_takeWhile_imp hc)

/-- The digits of a color are plain, and what is behind them is not looked at
but for its first character. -/
theorem Color.scan_blank (cs : List Char) : Color.scan (Lexer.blank {} cs) =
    (Color.scan cs).map (Option.map fun p => (p.1, Lexer.blank {} p.2)) := by
  obtain ⟨digits, x, rfl, hd, hp⟩ := Color.split_digits cs
  have hblank := hp.blank_append x
  have hhead := Lexer.head?_blank (s := {}) rfl x
  rw [hblank, Color.scan_congr hhead.symm hd]
  rcases hs : Color.scan (digits ++ x) with fault | _ | ⟨color, rest⟩
  · rfl
  · rfl
  · have hrest := Color.scan_congr (rfl : x.head? = x.head?) hd
    rw [hs] at hrest
    simp only [Except.map, Option.map, Except.ok.injEq, Option.some.injEq, Prod.mk.injEq] at hrest
    simp only [Except.map, Option.map, hrest.2]

theorem isPlain_of_isDigit {c : Char} (h : c.isDigit = true) : isPlain c = true :=
  isPlain_of_isNameChar (by simp [Text.isNameChar, Char.isAlphanum, h])

theorem mem_intercalate {separator : String} {parts : List String} {c : Char}
    (h : c ∈ (String.intercalate separator parts).toList) :
    c ∈ separator.toList ∨ ∃ s ∈ parts, c ∈ s.toList := by
  induction parts with
  | nil => simp at h
  | cons s parts ih =>
    cases parts with
    | nil => exact .inr ⟨s, List.mem_cons_self .., by simpa using h⟩
    | cons t parts =>
      simp only [String.intercalate_cons_cons, String.toList_append, List.mem_append] at h
      rcases h with (h | h) | h
      · exact .inr ⟨s, List.mem_cons_self .., h⟩
      · exact .inl h
      · rcases ih h with h | ⟨u, hu, h⟩
        · exact .inl h
        · exact .inr ⟨u, List.mem_cons_of_mem s hu, h⟩

theorem Color.inert_toGlsl (c : Color) : Inert c.toGlsl.toList := by
  have hp : ∀ d ∈ c.toGlsl.toList, isPlain d = true := by
    intro d hd
    have hfront : "vec4(".toList.all isPlain = true := by decide
    have hbetween : ", ".toList.all isPlain = true := by decide
    have hback : ")".toList.all isPlain = true := by decide
    rw [List.all_eq_true] at hfront hbetween hback
    simp only [Color.toGlsl, String.toList_append, List.mem_append] at hd
    rcases hd with (hd | hd) | hd
    · exact hfront d hd
    · rcases mem_intercalate hd with hd | ⟨s, hs, hd⟩
      · exact hbetween d hd
      · obtain ⟨x, -, rfl⟩ := List.mem_map.1 hs
        rcases Binary.mem_fixed hd with hd | rfl
        · exact isPlain_of_isDigit hd
        · decide
    · exact hback d hd
  refine Lexer.inert_of_plain (fun hnil => ?_) (List.all_eq_true.2 hp)
  simp only [Color.toGlsl, String.toList_append, List.append_eq_nil_iff] at hnil
  exact absurd hnil.1.1 (by decide)

theorem bindDefault_congr {x x' : List Char} (hx : x.head? = x'.head?) :
    ∀ {depth : Nat} {d : List Char}, bindDefault depth (d ++ x) = d → bindDefault depth (d ++ x') = d
  | depth, [], h => by
    cases x with
    | nil => cases x' with
      | nil => rfl
      | cons c' x' => cases hx
    | cons c x =>
      cases x' with
      | nil => cases hx
      | cons c' x' =>
        obtain rfl : c = c' := by simpa using hx
        simp only [List.nil_append] at h ⊢
        unfold bindDefault at h ⊢
        grind
  | depth, c :: d, h => by
    have ih := fun depth => @bindDefault_congr _ _ hx depth d
    simp only [List.cons_append] at h ⊢
    unfold bindDefault at h ⊢
    grind

/-- The bind of a name with what is behind it. -/
def Bind.behind (name : String) (x : List Char) : Bind :=
  match x with
  | ':' :: more =>
    match bindDefault 0 more with
    | [] => ⟨name, none, ':' :: more⟩
    | text => ⟨name, some text, more.drop text.length⟩
  | rest => ⟨name, none, rest⟩

theorem readBind?_cons (c : Char) (tail : List Char) : readBind? (c :: tail) =
    if Text.isNameStart c = true then
      some (Bind.behind (String.ofList ((c :: tail).takeWhile Text.isNameChar))
        ((c :: tail).dropWhile Text.isNameChar))
    else none := by
  by_cases hc : Text.isNameStart c = true
  · simp only [readBind?, hc, if_true, Bind.behind]
    generalize (c :: tail).dropWhile Text.isNameChar = x
    by_cases hx : ∃ more, x = ':' :: more
    · obtain ⟨more, rfl⟩ := hx
      cases hd : bindDefault 0 more <;> simp only [hd]
    · have hnone : ∀ more, x ≠ ':' :: more := fun more h => hx ⟨more, h⟩
      simp only
  · simp [readBind?, hc]

theorem Bind.behind_blank {name : String} {x : List Char}
    (h : ∀ text, (Bind.behind name x).fallback = some text → Passes {} text) :
    (∃ taken, x = taken ++ (Bind.behind name x).rest ∧ Passes {} taken) ∧
      Bind.behind name (Lexer.blank {} x) =
        { Bind.behind name x with rest := Lexer.blank {} (Bind.behind name x).rest } := by
  by_cases hx : ∃ more, x = ':' :: more
  · obtain ⟨more, rfl⟩ := hx
    have hblank : Lexer.blank {} (':' :: more) = ':' :: Lexer.blank {} more := rfl
    obtain ⟨y, hy⟩ := (bindDefault_split 0 more).1
    generalize hd : bindDefault 0 more = d at hy
    subst hy
    have hpass : Passes {} d := by
      cases d with
      | nil => exact Lexer.passes_nil
      | cons e d => exact h _ (by simp only [Bind.behind, hd])
    have hhead := Lexer.head?_blank (s := {}) rfl y
    have hd' := bindDefault_congr hhead.symm hd
    rw [hblank, hpass.blank_append]
    cases d with
    | nil =>
      simp only [Bind.behind, hd, hd']
      exact ⟨⟨[], rfl, Lexer.passes_nil⟩, rfl⟩
    | cons e d =>
      simp only [Bind.behind, hd, hd', List.drop_left]
      exact ⟨⟨':' :: e :: d, rfl, ⟨hpass.run, hpass.comments⟩⟩, trivial⟩
  · have hnone : ∀ x', x'.head? = x.head? → Bind.behind name x' = ⟨name, none, x'⟩ := by
      intro x' hx'
      unfold Bind.behind
      split
      · next more =>
        cases x with
        | nil => cases hx'
        | cons c x =>
          obtain rfl : ':' = c := by simpa using hx'
          exact absurd ⟨x, rfl⟩ hx
      · rfl
    rw [hnone x rfl, hnone _ (Lexer.head?_blank rfl x)]
    exact ⟨⟨[], rfl, Lexer.passes_nil⟩, rfl⟩

/-- What a bind is read from is read through up to its end, and what is behind
it is not looked at but for its first character. -/
theorem readBind?_blank {cs : List Char} {b : Bind} (h : readBind? cs = some b)
    (hd : ∀ text, b.fallback = some text → Passes {} text) :
    (∃ taken, cs = taken ++ b.rest ∧ Passes {} taken) ∧
      readBind? (Lexer.blank {} cs) = some { b with rest := Lexer.blank {} b.rest } := by
  cases cs with
  | nil => cases h
  | cons c tail =>
  rw [readBind?_cons] at h
  split at h
  · next hc =>
    cases h
    have hsplit := List.takeWhile_append_dropWhile (p := Text.isNameChar) (l := c :: tail)
    have hblankc : Lexer.blank {} (c :: tail) = c :: Lexer.blank (Lexer.step {} c) tail := rfl
    rw [hblankc, readBind?_cons, if_pos hc, ← hblankc]
    generalize hw : (c :: tail).takeWhile Text.isNameChar = w at *
    generalize hx : (c :: tail).dropWhile Text.isNameChar = x at *
    have hpass : Passes {} w := Lexer.passes_of_plain (List.all_eq_true.2 fun d hd =>
      isPlain_of_isNameChar (List.mem_takeWhile_imp (hw ▸ hd)))
    have hblank : Lexer.blank {} (c :: tail) = w ++ Lexer.blank {} x := by
      rw [← hsplit, hpass.blank_append]
    have hname : (w ++ Lexer.blank {} x).takeWhile Text.isNameChar = w := by
      refine takeWhile_eq_of_head? (Lexer.head?_blank (s := {}) rfl x).symm ?_
      rw [hsplit, hw]
    have hrest : (w ++ Lexer.blank {} x).dropWhile Text.isNameChar = Lexer.blank {} x := by
      have := List.takeWhile_append_dropWhile (p := Text.isNameChar) (l := w ++ Lexer.blank {} x)
      rw [hname] at this
      exact List.append_cancel_left this
    obtain ⟨⟨taken, ht, htaken⟩, hbehind⟩ := Bind.behind_blank hd
    refine ⟨⟨w ++ taken, by rw [List.append_assoc, ← ht, hsplit], hpass.append htaken⟩, ?_⟩
    rw [hblank, hname, hrest, hbehind]
  · cases h

theorem Color.scan_passes {cs rest : List Char} {color : Color}
    (h : Color.scan cs = .ok (some (color, rest))) : ∃ digits, cs = digits ++ rest ∧ Passes {} digits := by
  obtain ⟨digits, x, rfl, hd, hp⟩ := Color.split_digits cs
  have hx := Color.scan_congr (rfl : x.head? = x.head?) hd
  rw [h] at hx
  simp only [Except.map, Option.map, Except.ok.injEq, Option.some.injEq, Prod.mk.injEq] at hx
  exact ⟨digits, by rw [hx.2], hp⟩

/-! ### What a scan finds -/

/-- What is found where comments are blank. -/
def Sight.blank (s : Lexer) : Sight → Sight
  | .finish => .finish
  | .copy lead zone rest => .copy (s.blank lead) zone ((s.run lead).blank rest)
  | .color c rest => .color c (Lexer.blank {} rest)
  | .badColor fault => .badColor fault
  | .bind b => .bind { b with rest := Lexer.blank {} b.rest }

theorem Lexer.blank_cons (s : Lexer) (c : Char) (cs : List Char) :
    s.blank (c :: cs) = s.blankChar c :: (s.step c).blank cs := rfl

/-- No character is blanked to anything but a blank. -/
theorem Lexer.eq_of_blankChar {s : Lexer} {c d : Char} (h : s.blankChar c = d) (hd : d ≠ ' ') :
    c = d := by
  unfold Lexer.blankChar at h
  split at h
  · exact absurd h.symm hd
  · exact h

theorem Lexer.blank_lead {s : Lexer} {lead : List Char} (h : s.comments lead = []) (rest : List Char) :
    s.blank (lead ++ rest) = lead ++ (s.run lead).blank rest := by
  rw [Lexer.blank_append, Lexer.blank_of_comments h]

/-- The first two characters of a text in which no comment stands in front of the second -/
theorem Lexer.comments_single {s : Lexer} (h : s.inComment = false) (c : Char) : s.comments [c] = [] := by
  simp [Lexer.comments, Lexer.covers, h]

theorem Lexer.comments_pair {s : Lexer} {c : Char} (h : s.inComment = false)
    (hc : (s.step c).inComment = false) (d : Char) : s.comments [c, d] = [] := by
  simp [Lexer.comments, Lexer.covers, h, hc]

theorem comments_code {s : Lexer} {c : Char} (h : Within .code s c) : s.comments [c] = [] :=
  Lexer.comments_single (Lexer.inComment_of_inCode (inCode_of_within h)) c

theorem LexMode.inComment_of_zone? {m : LexMode} (h : m.zone? = some .code) : m.inComment = false := by
  cases m <;> first | rfl | cases h

theorem LexMode.inComment_next {m : LexMode} {c : Char} (h : m.zone? = some .code)
    (hs : m = .slash → c ≠ '/' ∧ c ≠ '*') : (m.next c).inComment = false := by
  cases m with
  | code =>
    unfold next
    split <;> first | rfl | simp_all
  | slash =>
    obtain ⟨hslash, hstar⟩ := hs rfl
    unfold next
    split <;> first | rfl | simp_all
  | _ => cases h

/-- Behind one character of code no comment is open yet. -/
theorem inComment_step {s : Lexer} {c : Char} (h : Within .code s c) : (s.step c).inComment = false := by
  unfold Lexer.inComment
  rw [Lexer.mode_step]
  split
  · cases hh : s.held with
    | some m => exact LexMode.inComment_of_zone? (h.held m hh)
    | none => exact LexMode.inComment_of_zone? (LexMode.zone?_ended h.mode)
  · exact LexMode.inComment_next h.mode h.slash

theorem comments_slash {s : Lexer} (h : Within .code s '/') (c : Char) : s.comments ['/', c] = [] :=
  Lexer.comments_pair (Lexer.inComment_of_inCode (inCode_of_within h)) (inComment_step h) c

theorem exists_cons_of_blank {s : Lexer} (h : s.inComment = false) {cs more : List Char} {c : Char}
    (hc : s.blank cs = c :: more) : ∃ cs', cs = c :: cs' := by
  have hhead := Lexer.head?_blank h cs
  rw [hc] at hhead
  exact List.head?_eq_some_iff.1 hhead.symm

theorem readBind?_blank_none {cs : List Char} (h : readBind? cs = none) :
    readBind? (Lexer.blank {} cs) = none := by
  cases cs with
  | nil => rfl
  | cons c cs =>
    have hc : Text.isNameStart c = false := by
      by_contra hc
      rw [readBind?_cons, if_pos (by simpa using hc)] at h
      cases h
    have hblank : Lexer.blank {} (c :: cs) = c :: Lexer.blank (Lexer.step {} c) cs := rfl
    rw [hblank, readBind?_cons, hc]
    rfl

/-- A piece in which no comment stands is copied from a text with blank comments
as it is from the text. -/
theorem look_blank_copy {z z' : Zone} {s : Lexer} (lead : List Char) {rest : List Char}
    (hlead : s.comments lead = [])
    (h : look z (lead ++ (s.run lead).blank rest) = .copy lead z' ((s.run lead).blank rest)) :
    look z (s.blank (lead ++ rest)) = (Sight.copy lead z' rest).blank s := by
  rw [Lexer.blank_lead hlead, Sight.blank, Lexer.blank_of_comments hlead, h]

theorem comments_text {s : Lexer} {c : Char} (h : Within .text s c) : s.comments [c] = [] :=
  Lexer.comments_single (by simp [Lexer.inComment, mode_of_within_text h]) c

theorem comments_escape {s : Lexer} (h : Within .text s '\\') (c : Char) :
    s.comments ['\\', c] = [] := by
  have hmode := mode_of_within_text h
  refine Lexer.comments_pair ?_ ?_ c <;> simp [Lexer.inComment, Lexer.step, LexMode.next, hmode]

/-- The marks that end a comment stand where its text is blank. -/
theorem blank_close {s : Lexer} (h : Within .comment s '*') : s.blank ['*', '/'] = ['*', '/'] := by
  have hmode := h.mode
  obtain ⟨mode, held, joined⟩ := s
  cases mode <;> simp [LexMode.zone?, Lexer.blank, Lexer.blankChar, Lexer.step, LexMode.next,
    Lexer.inComment] at hmode ⊢

theorem lookAtHash_blank {s : Lexer} (hs : s.inCode = true) (cs : List Char) :
    lookAtHash (Lexer.blank {} cs) = (lookAtHash cs).blank s := by
  have hpass := Lexer.inert_of_plain (w := ['#']) (by simp) (by decide) s hs
  rw [lookAtHash, lookAtHash, Color.scan_blank]
  rcases Color.scan cs with fault | _ | ⟨color, rest⟩
  · rfl
  · simp only [Except.map, Option.map, Sight.blank, hpass.run, Lexer.blank_of_comments hpass.comments]
  · rfl

theorem lookAtBind_blank {s : Lexer} (hs : s.inCode = true) {cs : List Char}
    (hb : ∀ b, readBind? cs = some b → ∀ text, b.fallback = some text → Passes {} text) :
    lookAtBind (Lexer.blank {} cs) = (lookAtBind cs).blank s := by
  have hpass := Lexer.inert_of_plain (w := ['@']) (by simp) (by decide) s hs
  unfold lookAtBind
  cases hr : readBind? cs with
  | none =>
    rw [readBind?_blank_none hr]
    simp only [Sight.blank, hpass.run, Lexer.blank_of_comments hpass.comments]
  | some b =>
    rw [(readBind?_blank hr (hb b hr)).2]
    rfl

theorem look_blank {z : Zone} {s : Lexer} {cs : List Char} (h : Fits z s cs)
    (hb : ∀ b, look z cs = .bind b → ∀ text, b.fallback = some text → Passes {} text) :
    look z (s.blank cs) = (look z cs).blank s := by
  have hn := h.next
  revert hb
  fun_cases look z cs with
  | case1 =>
    intro _
    cases z <;> rfl
  | case2 cs =>
    intro _
    have hclose := blank_close (hn _ _ rfl)
    have hblank : s.blank ('*' :: '/' :: cs) = '*' :: '/' :: (s.run ['*', '/']).blank cs := by
      rw [show '*' :: '/' :: cs = ['*', '/'] ++ cs from rfl, Lexer.blank_append, hclose]
      rfl
    rw [hblank, Sight.blank, hclose]
    exact look.eq_2 _
  | case3 c cs hc =>
    intro _
    rw [Lexer.blank_cons, look.eq_3]
    · rw [Sight.blank, Lexer.blank_cons]
      rfl
    · intro more hstar hslash
      have hcs := Lexer.eq_of_blankChar hstar (by decide)
      cases cs with
      | nil => cases hslash
      | cons d cs =>
        have hd := (List.cons.inj hslash).1
        exact hc cs hcs (by rw [Lexer.eq_of_blankChar hd (by decide)])
  | case4 c cs =>
    intro _
    exact look_blank_copy ['\\', c] (comments_escape (hn _ _ rfl) c) (look.eq_4 _ _)
  | case5 cs =>
    intro _
    exact look_blank_copy ['"'] (comments_text (hn _ _ rfl)) (look.eq_5 _)
  | case6 c cs hesc hq =>
    intro _
    refine look_blank_copy [c] (comments_text (hn _ _ rfl)) (look.eq_6 _ _ ?_ hq)
    rintro d more rfl hcs
    cases cs with
    | nil => cases hcs
    | cons e cs => exact hesc e cs rfl rfl
  | case7 cs =>
    intro _
    have hlead := comments_slash (hn _ _ rfl) '/'
    rw [show '/' :: '/' :: cs = ['/', '/'] ++ cs from rfl, Lexer.blank_lead hlead, Sight.blank]
    exact look.eq_7 _
  | case8 cs =>
    intro _
    exact look_blank_copy ['/', '*'] (comments_slash (hn _ _ rfl) '*') (look.eq_8 _)
  | case9 cs =>
    intro _
    exact look_blank_copy ['"'] (comments_code (hn _ _ rfl)) (look.eq_9 _)
  | case10 cs =>
    intro _
    have hpass := Lexer.inert_of_plain (w := ['#', '#']) (by simp) (by decide) s
      (inCode_of_within (hn _ _ rfl))
    exact look_blank_copy ['#', '#'] hpass.comments (look.eq_10 _)
  | case11 cs hcs =>
    intro _
    have hcode := inCode_of_within (hn _ _ rfl)
    have hpass := Lexer.inert_of_plain (w := ['#']) (by simp) (by decide) s hcode
    have hblank : s.blank ('#' :: cs) = '#' :: Lexer.blank {} cs := hpass.blank_append cs
    rw [hblank, look.eq_11, lookAtHash_blank hcode]
    intro more hmore
    obtain ⟨cs', h⟩ := exists_cons_of_blank rfl hmore
    exact hcs cs' h
  | case12 cs =>
    intro hb
    have hcode := inCode_of_within (hn _ _ rfl)
    have hpass := Lexer.inert_of_plain (w := ['@']) (by simp) (by decide) s hcode
    have hblank : s.blank ('@' :: cs) = '@' :: Lexer.blank {} cs := hpass.blank_append cs
    rw [hblank, look.eq_12, lookAtBind_blank hcode]
    exact fun b hr => hb b (by rw [lookAtBind, hr])
  | case13 c cs hll hlb hq hhh hh ha =>
    intro _
    refine look_blank_copy [c] (comments_code (hn _ _ rfl)) (look.eq_13 _ _ ?_ ?_ hq ?_ hh ha)
    all_goals
      intro more hc hmore
      obtain ⟨cs', h⟩ := exists_cons_of_blank (inComment_step (hn _ _ rfl)) hmore
    · exact hll cs' hc h
    · exact hlb cs' hc h
    · exact hhh cs' hc h

/-! ### What a scan writes -/

namespace Lexer

/-- The binds that stand in code. -/
def binds : Lexer → List Char → List Bind
  | _, [] => []
  | s, c :: cs =>
    (if c = '@' ∧ s.inCode = true then (readBind? cs).toList else []) ++ binds (s.step c) cs

/-- What holds of every bind that stands in code. -/
def Binds (p : Bind → Prop) (s : Lexer) (cs : List Char) : Prop := ∀ b ∈ s.binds cs, p b

theorem Binds.drop {p : Bind → Prop} {s : Lexer} {a b : List Char} (h : Binds p s (a ++ b)) :
    Binds p (s.run a) b := by
  induction a generalizing s with
  | nil => exact h
  | cons c a ih => exact ih fun bind hb => h bind (List.mem_append_right _ hb)

/-- Behind a text that is read through. -/
theorem Binds.behind {p : Bind → Prop} {s : Lexer} {a b : List Char} (ha : s.Passes a)
    (h : Binds p s (a ++ b)) : Binds p {} b :=
  ha.run ▸ h.drop

theorem Binds.head {p : Bind → Prop} {s : Lexer} {cs : List Char} {b : Bind}
    (h : Binds p s ('@' :: cs)) (hs : s.inCode = true) (hb : readBind? cs = some b) : p b :=
  h b (List.mem_append_left _ (by simp [hs, hb]))

theorem binds_of_not_mem {p : Bind → Prop} {cs : List Char} (h : '@' ∉ cs) (s : Lexer) :
    Binds p s cs := by
  induction cs generalizing s with
  | nil => nofun
  | cons c cs ih =>
    simp only [List.mem_cons, not_or] at h
    intro b hb
    rw [binds, if_neg (fun hc => h.1 hc.1.symm), List.nil_append] at hb
    exact ih h.2 _ b hb

end Lexer

/-- A bind whose default and whose replacement are read through: neither opens
anything, and the replacement joins nothing with what is in front of it. -/
structure Bind.Harmless (bound : String → Option String) (b : Bind) : Prop where
  fallback : ∀ text, b.fallback = some text → Passes {} text
  stands : ∀ text, bindText bound b = .ok text → Inert text

/-- A way to write a line reads it: where the comments are blank the same is
written with blanks in its comments, and what is written is read like the line,
with the same comments. -/
structure Reads (write : List Char → Except LineFault (List Char × Bool)) (s : Lexer)
    (cs : List Char) : Prop where
  blank : write (s.blank cs) = (write cs).map fun p => (s.blank p.1, p.2)
  run : ∀ {t inComment}, write cs = .ok (t, inComment) → s.run t = s.run cs
  comments : ∀ {t inComment}, write cs = .ok (t, inComment) → s.comments t = s.comments cs
  isOpen : ∀ {t inComment}, write cs = .ok (t, inComment) → inComment = (s.run cs).isOpen

namespace Reads

variable {f g : List Char → Except LineFault (List Char × Bool)} {s : Lexer} {cs : List Char}

/-- What is copied is read. -/
theorem of_copy {inComment : Bool} (hf : f cs = .ok (cs, inComment))
    (hblank : f (s.blank cs) = .ok (s.blank cs, inComment)) (ho : inComment = (s.run cs).isOpen) :
    Reads f s cs where
  blank := by rw [hblank, hf]; rfl
  run ht := by rw [hf] at ht; cases ht; rfl
  comments ht := by rw [hf] at ht; cases ht; rfl
  isOpen ht := by rw [hf] at ht; cases ht; exact ho

/-- Where both ways fail alike there is nothing else to say. -/
theorem of_error {fault : LineFault} (hf : f cs = .error fault)
    (hblank : f (s.blank cs) = .error fault) : Reads f s cs where
  blank := by rw [hblank, hf]; rfl
  run ht := by rw [hf] at ht; cases ht
  comments ht := by rw [hf] at ht; cases ht
  isOpen ht := by rw [hf] at ht; cases ht

/-- A piece is written as another one that is read like it. -/
theorem prepend (lead : List Char) {lead' rest : List Char} (hf : f cs = prepend lead' (g rest))
    (hblank : f (s.blank cs) = AudioShader.prepend (s.blank lead') (g ((s.run lead).blank rest)))
    (hcs : cs = lead ++ rest) (hrun : s.run lead' = s.run lead)
    (hcomments : s.comments lead' = s.comments lead) (h : Reads g (s.run lead) rest) :
    Reads f s cs where
  blank := by
    rw [hf, hblank, h.blank]
    rcases g rest with fault | ⟨t, o⟩
    · rfl
    · simp only [AudioShader.prepend, Except.map, Lexer.blank_append, hrun]
  run := by
    intro t o ht
    rw [hf] at ht
    obtain ⟨t', ht', rfl⟩ := prepend_eq_ok.1 ht
    rw [hcs, Lexer.run_append, Lexer.run_append, hrun, h.run ht']
  comments := by
    intro t o ht
    rw [hf] at ht
    obtain ⟨t', ht', rfl⟩ := prepend_eq_ok.1 ht
    rw [hcs, Lexer.comments_append, Lexer.comments_append, hcomments, hrun, h.comments ht']
  isOpen := by
    intro t o ht
    rw [hf] at ht
    obtain ⟨t', ht', rfl⟩ := prepend_eq_ok.1 ht
    rw [hcs, Lexer.run_append, h.isOpen ht']

/-- A piece that is read through is written as another one that is. -/
theorem replace {lead lead' rest : List Char} (hlead : s.Passes lead) (hlead' : s.Passes lead')
    (hcs : cs = lead ++ rest) (hf : f cs = AudioShader.prepend lead' (g rest))
    (hblank : f (s.blank cs) = AudioShader.prepend lead' (g (Lexer.blank {} rest)))
    (h : Reads g {} rest) : Reads f s cs := by
  refine .prepend lead hf ?_ hcs (by rw [hlead.run, hlead'.run])
    (by rw [hlead.comments, hlead'.comments]) (by rwa [hlead.run])
  rw [hblank, hlead.run, Lexer.blank_of_comments hlead'.comments]

end Reads

section Scans

variable {bound : String → Option String}

/-- Where the reading of a text begins, a scan of it reads it. -/
theorem scan_reads : ∀ {z : Zone} {s : Lexer} {cs : List Char}, Fits z s cs → Text.IsLine cs →
    Lexer.Binds (Bind.Harmless bound) s cs → Reads (scan bound z) s cs := by
  intro z s cs h hline hb
  have hscan := scan_look bound z cs
  have hblank := scan_look bound z (s.blank cs)
  have hdefault : ∀ b, look z cs = .bind b → ∀ text, b.fallback = some text → Passes {} text := by
    intro b hl
    obtain ⟨more, rfl, hr⟩ := look_bind hl
    obtain rfl := look_bind_zone hl
    exact (hb.head (inCode_of_within (h.next _ _ rfl)) hr).fallback
  rw [look_blank h hdefault] at hblank
  match hl : look z cs with
  | .finish =>
    rw [hl] at hscan hblank
    exact .of_copy hscan hblank (isOpen_of_finish h hline hl).symm
  | .copy lead z' rest =>
    have hlen := look_copy_length hl
    have hfit := h.copy hline hl
    rw [hl] at hscan hblank
    obtain ⟨-, rfl⟩ := look_copy hl
    exact .prepend lead hscan hblank rfl rfl rfl (scan_reads hfit hline.suffix hb.drop)
  | .color color rest =>
    have hlen := look_color_length hl
    obtain ⟨more, rfl, hc⟩ := look_color hl
    obtain rfl := look_color_zone hl
    rw [hl] at hscan hblank
    have hcode := inCode_of_within (h.next _ _ rfl)
    obtain ⟨digits, rfl, hdigits⟩ := Color.scan_passes hc
    have hlead : s.Passes ('#' :: digits) :=
      ((Lexer.inert_of_plain (w := ['#']) (by simp) (by decide)) s hcode).append hdigits
    exact .replace hlead (color.inert_toGlsl s hcode) rfl hscan hblank
      (scan_reads (.code rest) (hline.suffix (a := '#' :: digits)) (hb.behind hlead))
  | .badColor fault =>
    rw [hl] at hscan hblank
    exact .of_error hscan hblank
  | .bind b =>
    have hlen := (look_bind_length hl).1
    obtain ⟨more, rfl, hr⟩ := look_bind hl
    obtain rfl := look_bind_zone hl
    have hcode := inCode_of_within (h.next _ _ rfl)
    have hharmless := hb.head hcode hr
    obtain ⟨⟨taken, hmore, htaken⟩, -⟩ := readBind?_blank hr hharmless.fallback
    have hlead : s.Passes ('@' :: taken) :=
      ((Lexer.inert_of_plain (w := ['@']) (by simp) (by decide)) s hcode).append htaken
    have hcs : '@' :: more = '@' :: taken ++ b.rest := by rw [hmore]; rfl
    simp only [hl, Sight.blank] at hscan hblank
    have hsame : bindText bound { b with rest := Lexer.blank {} b.rest } = bindText bound b := rfl
    rw [hsame] at hblank
    cases hbt : bindText bound b with
    | error fault =>
      rw [hbt] at hscan hblank
      exact .of_error hscan hblank
    | ok text =>
      rw [hbt] at hscan hblank
      exact .replace hlead (hharmless.stands text hbt s hcode) hcs hscan hblank
        (scan_reads (.code b.rest) (hcs ▸ hline).suffix ((hcs ▸ hb).behind hlead))
termination_by _ _ cs => cs.length

/-- The blanks in front of a line leave the reading where it is. -/
theorem passes_of_blanks {cs : List Char} (h : ∀ c ∈ cs, Text.isAsciiBlank c = true) :
    Passes {} cs := by
  refine Lexer.passes_of_step fun c hc => ?_
  have := h c hc
  simp only [Text.isAsciiBlank, Bool.or_eq_true, beq_iff_eq] at this
  rcases this with (((rfl | rfl) | rfl) | rfl) | rfl <;> decide

/-- A definition is read behind its own `#`. -/
theorem scanDefine_reads {line : List Char} (hline : Text.IsLine line)
    (hb : Lexer.Binds (Bind.Harmless bound) {} line) : Reads (scanDefine bound) {} line := by
  have hsplit := List.takeWhile_append_dropWhile (p := Text.isAsciiBlank) (l := line)
  have hpass : Passes {} (line.takeWhile Text.isAsciiBlank) :=
    passes_of_blanks fun c hc => List.mem_takeWhile_imp hc
  generalize hw : line.takeWhile Text.isAsciiBlank = w at *
  generalize hx : line.dropWhile Text.isAsciiBlank = x at *
  have hblank : Lexer.blank {} line = w ++ Lexer.blank {} x := by rw [← hsplit, hpass.blank_append]
  have hhead := Lexer.head?_blank (s := {}) rfl x
  have htake : (w ++ Lexer.blank {} x).takeWhile Text.isAsciiBlank = w :=
    takeWhile_eq_of_head? hhead.symm (by rw [hsplit, hw])
  have hdrop : (w ++ Lexer.blank {} x).dropWhile Text.isAsciiBlank = Lexer.blank {} x := by
    have := List.takeWhile_append_dropWhile (p := Text.isAsciiBlank) (l := w ++ Lexer.blank {} x)
    rw [htake] at this
    exact List.append_cancel_left this
  by_cases hhash : ∃ rest, x = '#' :: rest
  · obtain ⟨rest, rfl⟩ := hhash
    have hlead : Passes {} (w ++ ['#']) := hpass.append (Lexer.passes_of_plain (by decide))
    have hcs : line = w ++ ['#'] ++ rest := by rw [← hsplit, List.append_assoc]; rfl
    have hf : scanDefine bound line = prepend (w ++ ['#']) (scan bound .code rest) := by
      simp only [scanDefine, hx, hw]
    have hfb : scanDefine bound (Lexer.blank {} line) =
        prepend (w ++ ['#']) (scan bound .code (Lexer.blank {} rest)) := by
      rw [hblank]
      simp only [scanDefine, hdrop, htake]
      rfl
    exact .replace hlead hlead hcs hf hfb
      (scan_reads (.code rest) (hcs ▸ hline).suffix ((hcs ▸ hb).behind hlead))
  · have hplain : ∀ l, (∀ rest, l.dropWhile Text.isAsciiBlank ≠ '#' :: rest) →
        scanDefine bound l = scan bound .code l := by
      intro l hl
      unfold scanDefine
      split
      · next rest h => exact absurd h (hl rest)
      · rfl
    have h₁ := hplain line (by rw [hx]; exact fun rest h => hhash ⟨rest, h⟩)
    have h₂ := hplain (Lexer.blank {} line) (by
      rw [hblank, hdrop]
      intro rest h
      obtain ⟨rest', h'⟩ := exists_cons_of_blank rfl h
      exact hhash ⟨rest', h'⟩)
    have hr := scan_reads (.code line) hline hb
    exact ⟨by rw [h₁, h₂, hr.blank], fun ht => hr.run (h₁ ▸ ht), fun ht => hr.comments (h₁ ▸ ht),
      fun ht => hr.isOpen (h₁ ▸ ht)⟩

end Scans

end AudioShader
