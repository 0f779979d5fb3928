/-
# What a scan finds

A scan goes over a line from the left: at every place it finds an end behind
which nothing is replaced, a piece that is copied, a color or a bind. What it
finds does not depend on what names are bound to; so neither does the comment
that a line leaves open (`scan_leavesOpen`).

Key definitions: `Sight`, `look`, `bindText`.
Key theorems: `scan_look`, `look_stands`, `scan_leavesOpen`.
-/
import AudioShader.Source.Process

namespace AudioShader

/-- What stands at a place of a line. -/
inductive Sight where
  /-- Nothing is replaced from here on. -/
  | finish
  /-- A piece that is copied; behind it `rest` begins in another zone. -/
  | copy (lead : List Char) (zone : Zone) (rest : List Char)
  | color (color : Color) (rest : List Char)
  | badColor (fault : ColorFault)
  | bind (b : Bind)

/-- What a `#` is that stands in code. -/
def lookAtHash (cs : List Char) : Sight :=
  match Color.scan cs with
  | .error fault => .badColor fault
  | .ok (some (color, rest)) => .color color rest
  | .ok none => .copy ['#'] .code cs

/-- What an `@` is that stands in code. -/
def lookAtBind (cs : List Char) : Sight :=
  match readBind? cs with
  | none => .copy ['@'] .code cs
  | some b => .bind b

/-- What stands at the front of a text in a zone. -/
def look : Zone → List Char → Sight
  | _, [] => .finish
  | .comment, '*' :: '/' :: cs => .copy ['*', '/'] .code cs
  | .comment, c :: cs => .copy [c] .comment cs
  | .text, '\\' :: c :: cs => .copy ['\\', c] .text cs
  | .text, '"' :: cs => .copy ['"'] .code cs
  | .text, c :: cs => .copy [c] .text cs
  | .code, '/' :: '/' :: _ => .finish
  | .code, '/' :: '*' :: cs => .copy ['/', '*'] .comment cs
  | .code, '"' :: cs => .copy ['"'] .text cs
  | .code, '#' :: '#' :: cs => .copy ['#', '#'] .code cs
  | .code, '#' :: cs => lookAtHash cs
  | .code, '@' :: cs => lookAtBind cs
  | .code, c :: cs => .copy [c] .code cs

/-- What stands for a bind. -/
def bindText (bound : String → Option String) (b : Bind) : Except LineFault (List Char) :=
  match bound b.name, b.fallback with
  | some text, _ => .ok text.toList
  | none, none => .error (.unresolvedBind b.name)
  | none, some text => (scan bound .code text).map (·.1)

/-- A scan, by what it finds first. -/
theorem scan_look (bound : String → Option String) (zone : Zone) (cs : List Char) :
    scan bound zone cs = match look zone cs with
      | .finish => .ok (cs, zone = .comment)
      | .copy lead zone' rest => prepend lead (scan bound zone' rest)
      | .color color rest => prepend color.toGlsl.toList (scan bound .code rest)
      | .badColor fault => .error (.color fault)
      | .bind b => (bindText bound b).bind fun text => prepend text (scan bound .code b.rest) := by
  fun_cases look zone cs with
  | case1 => rw [scan.eq_1]
  | case2 => rw [scan.eq_2]
  | case3 => rw [scan.eq_3]; assumption
  | case4 => rw [scan.eq_4]
  | case5 => rw [scan.eq_5]
  | case6 => rw [scan.eq_6] <;> assumption
  | case7 => rw [scan.eq_7]; rfl
  | case8 => rw [scan.eq_8]
  | case9 => rw [scan.eq_9]
  | case10 => rw [scan.eq_10]
  | case11 cs h =>
    rw [scan.eq_11 _ _ h]
    split
    · next fault hc => simp only [lookAtHash, hc]
    · next color rest hc => simp only [lookAtHash, hc]
    · next hc => simp only [lookAtHash, hc]
  | case12 cs =>
    rw [scan.eq_12]
    split
    · next hb => simp only [lookAtBind, hb]
    · next b hb =>
      simp only [lookAtBind, hb, bindText]
      cases bound b.name with
      | some text => rfl
      | none =>
        simp only
        split
        · next hf => rw [hf]; rfl
        · next text hf =>
          simp only [hf]
          rcases scan bound .code text with fault | ⟨replaced, open_⟩ <;> rfl
  | case13 => rw [scan.eq_13] <;> assumption

/-! ### What the sights are -/

/-- What is found stands at the front, with the rest behind it. -/
theorem look_stands (zone : Zone) (cs : List Char) : match look zone cs with
    | .finish => True
    | .copy lead _ rest => lead ≠ [] ∧ cs = lead ++ rest
    | .color color rest => ∃ more, cs = '#' :: more ∧ Color.scan more = .ok (some (color, rest))
    | .badColor fault => ∃ more, cs = '#' :: more ∧ Color.scan more = .error fault
    | .bind b => ∃ more, cs = '@' :: more ∧ readBind? more = some b := by
  fun_cases look zone cs with
  | case1 | case7 => trivial
  | case11 cs =>
    unfold lookAtHash
    cases hc : Color.scan cs with
    | error fault => exact ⟨cs, rfl, hc⟩
    | ok found =>
      rcases found with _ | ⟨color, rest⟩
      · exact ⟨by simp, rfl⟩
      · exact ⟨cs, rfl, hc⟩
  | case12 cs =>
    unfold lookAtBind
    cases hb : readBind? cs with
    | none => exact ⟨by simp, rfl⟩
    | some b => exact ⟨cs, rfl, hb⟩
  | _ => exact ⟨by simp, rfl⟩

theorem look_copy {zone zone' : Zone} {cs lead rest : List Char}
    (h : look zone cs = .copy lead zone' rest) : lead ≠ [] ∧ cs = lead ++ rest := by
  have hstands := look_stands zone cs
  rwa [h] at hstands

theorem look_color {zone : Zone} {cs rest : List Char} {color : Color}
    (h : look zone cs = .color color rest) :
    ∃ more, cs = '#' :: more ∧ Color.scan more = .ok (some (color, rest)) := by
  have hstands := look_stands zone cs
  rwa [h] at hstands

theorem look_badColor {zone : Zone} {cs : List Char} {fault : ColorFault}
    (h : look zone cs = .badColor fault) :
    ∃ more, cs = '#' :: more ∧ Color.scan more = .error fault := by
  have hstands := look_stands zone cs
  rwa [h] at hstands

theorem look_bind {zone : Zone} {cs : List Char} {b : Bind} (h : look zone cs = .bind b) :
    ∃ more, cs = '@' :: more ∧ readBind? more = some b := by
  have hstands := look_stands zone cs
  rwa [h] at hstands

/-- What stands at the front of a text, by its first two characters. -/
theorem look_cons (zone : Zone) (c : Char) (cs : List Char) : look zone (c :: cs) =
    match zone with
    | .comment =>
      if c = '*' ∧ cs.head? = some '/' then .copy ['*', '/'] .code cs.tail
      else .copy [c] .comment cs
    | .text =>
      if c = '\\' then .copy (c :: cs.take 1) .text cs.tail
      else if c = '"' then .copy ['"'] .code cs
      else .copy [c] .text cs
    | .code =>
      if c = '/' ∧ cs.head? = some '/' then .finish
      else if c = '/' ∧ cs.head? = some '*' then .copy ['/', '*'] .comment cs.tail
      else if c = '"' then .copy ['"'] .text cs
      else if c = '#' then
        if cs.head? = some '#' then .copy ['#', '#'] .code cs.tail else lookAtHash cs
      else if c = '@' then lookAtBind cs
      else .copy [c] .code cs := by
  have hhead : ∀ {x : Char} {ds : List Char}, cs = x :: ds → cs.head? = some x := by
    rintro x ds rfl
    rfl
  cases zone with
  | comment =>
    by_cases hclose : c = '*' ∧ cs.head? = some '/'
    · obtain ⟨rfl, hslash⟩ := hclose
      obtain ⟨ds, rfl⟩ := List.head?_eq_some_iff.1 hslash
      rfl
    · simp only [if_neg hclose]
      exact look.eq_3 c cs fun ds hc hcs => hclose ⟨hc, hhead hcs⟩
  | text =>
    by_cases hescape : c = '\\'
    · subst hescape
      cases cs <;> rfl
    · simp only [if_neg hescape]
      by_cases hquote : c = '"'
      · subst hquote
        rfl
      · simp only [if_neg hquote]
        exact look.eq_6 c cs (fun _ _ hc _ => hescape hc) hquote
  | code =>
    by_cases hline : c = '/' ∧ cs.head? = some '/'
    · obtain ⟨rfl, hslash⟩ := hline
      obtain ⟨ds, rfl⟩ := List.head?_eq_some_iff.1 hslash
      rfl
    · simp only [if_neg hline]
      by_cases hblock : c = '/' ∧ cs.head? = some '*'
      · obtain ⟨rfl, hstar⟩ := hblock
        obtain ⟨ds, rfl⟩ := List.head?_eq_some_iff.1 hstar
        rfl
      · simp only [if_neg hblock]
        by_cases hquote : c = '"'
        · subst hquote
          rfl
        · simp only [if_neg hquote]
          by_cases hhash : c = '#'
          · subst hhash
            simp only [if_true]
            by_cases hpaste : cs.head? = some '#'
            · obtain ⟨ds, rfl⟩ := List.head?_eq_some_iff.1 hpaste
              rfl
            · rw [if_neg hpaste]
              exact look.eq_11 cs fun ds hcs => hpaste (hhead hcs)
          · simp only [if_neg hhash]
            by_cases hat : c = '@'
            · subst hat
              rfl
            · rw [if_neg hat]
              exact look.eq_13 c cs (fun ds hc hcs => hline ⟨hc, hhead hcs⟩)
                (fun ds hc hcs => hblock ⟨hc, hhead hcs⟩) hquote (fun ds hc _ => hhash hc) hhash hat

/-- The characters that a scan looks for. -/
def marks : List Char := ['*', '/', '\\', '"', '#', '@']

/-- Where no mark stands, one character is copied. -/
theorem look_unmarked (zone : Zone) {c : Char} (hc : c ∉ marks) (cs : List Char) :
    look zone (c :: cs) = .copy [c] zone cs := by
  simp only [marks, List.mem_cons, List.not_mem_nil, or_false, not_or] at hc
  obtain ⟨hstar, hslash, hescape, hquote, hhash, hat⟩ := hc
  rw [look_cons]
  cases zone <;> simp [hstar, hslash, hescape, hquote, hhash, hat]

/-- Behind what is found the text is shorter. -/
theorem look_copy_length {zone zone' : Zone} {cs lead rest : List Char}
    (h : look zone cs = .copy lead zone' rest) : rest.length < cs.length := by
  obtain ⟨hne, rfl⟩ := look_copy h
  have := List.length_pos_iff.2 hne
  simp only [List.length_append]
  omega

theorem look_color_length {zone : Zone} {cs rest : List Char} {color : Color}
    (h : look zone cs = .color color rest) : rest.length < cs.length := by
  obtain ⟨more, rfl, hc⟩ := look_color h
  have := Color.scan_length hc
  simp only [List.length_cons]
  omega

theorem look_bind_length {zone : Zone} {cs : List Char} {b : Bind} (h : look zone cs = .bind b) :
    b.rest.length < cs.length ∧ ∀ text, b.fallback = some text → text.length < cs.length := by
  obtain ⟨more, rfl, hb⟩ := look_bind h
  have := readBind?_length hb
  simp only [List.length_cons]
  exact ⟨by omega, fun text ht => Nat.lt_succ_of_le (this.2 text ht)⟩

/-- The comment that a copied text leaves open, by what stands in front; where something
could be replaced, one character is copied. -/
theorem endsInComment_look (zone : Zone) (cs : List Char) :
    endsInComment zone cs = match look zone cs with
      | .finish => decide (zone = .comment)
      | .copy _ zone' rest => endsInComment zone' rest
      | _ => endsInComment .code cs.tail := by
  fun_cases look zone cs with
  | case1 => exact endsInComment.eq_1 zone
  | case3 c cs h => exact endsInComment.eq_3 c cs h
  | case6 c cs h h' => exact endsInComment.eq_6 c cs h h'
  | case11 cs h =>
    unfold lookAtHash
    rcases Color.scan cs with fault | _ | ⟨color, rest⟩ <;> rfl
  | case12 cs =>
    unfold lookAtBind
    cases readBind? cs <;> rfl
  | case13 c cs h h' h'' => exact endsInComment.eq_10 c cs h h' h''
  | _ => rfl

/-! ### Scans that succeed -/

theorem mapError_prepend {ε ε' α : Type} (f : ε → ε') (text : List Char)
    (r : Except ε (List Char × α)) :
    (prepend text r).mapError f = prepend text (r.mapError f) := by
  cases r <;> rfl

theorem prepend_prepend {ε α : Type} (a b : List Char) (r : Except ε (List Char × α)) :
    prepend a (prepend b r) = prepend (a ++ b) r := by
  rcases r with _ | ⟨text, x⟩
  · rfl
  · simp [prepend, Except.map]

theorem prepend_nil {ε α : Type} (r : Except ε (List Char × α)) : prepend [] r = r := by
  cases r <;> rfl

theorem prepend_eq_ok {ε α : Type} {lead t : List Char} {x : α} {r : Except ε (List Char × α)} :
    prepend lead r = .ok (t, x) ↔ ∃ t', r = .ok (t', x) ∧ t = lead ++ t' := by
  rcases r with e | ⟨t', x'⟩
  · simp [prepend, Except.map]
  · simp only [prepend, Except.map, Except.ok.injEq, Prod.mk.injEq]
    constructor
    · rintro ⟨rfl, rfl⟩
      exact ⟨t', ⟨rfl, rfl⟩, rfl⟩
    · rintro ⟨_, ⟨rfl, rfl⟩, rfl⟩
      exact ⟨rfl, rfl⟩

/-- Whether a comment is open behind a text, told by the text alone. -/
def leavesOpen (zone : Zone) (cs : List Char) : Bool :=
  match scan (fun _ => some "") zone cs with
  | .ok (_, inComment) => inComment
  | .error _ => false

/-- A scan that succeeds would succeed with all names bound to one text. -/
theorem scan_any_bound (word : String) {bound : String → Option String} : ∀ {zone : Zone}
    {cs t : List Char} {inComment : Bool}, scan bound zone cs = .ok (t, inComment) →
      ∃ t', scan (fun _ => some word) zone cs = .ok (t', inComment) := by
  intro zone cs t inComment h
  rw [scan_look] at h ⊢
  match hl : look zone cs with
  | .finish =>
    rw [hl] at h
    exact ⟨t, h⟩
  | .copy lead zone' rest =>
    have := look_copy_length hl
    rw [hl] at h
    obtain ⟨t', ht', -⟩ := prepend_eq_ok.1 h
    obtain ⟨t'', ht''⟩ := scan_any_bound word ht'
    exact ⟨lead ++ t'', prepend_eq_ok.2 ⟨t'', ht'', rfl⟩⟩
  | .color color rest =>
    have := look_color_length hl
    rw [hl] at h
    obtain ⟨t', ht', -⟩ := prepend_eq_ok.1 h
    obtain ⟨t'', ht''⟩ := scan_any_bound word ht'
    exact ⟨_, prepend_eq_ok.2 ⟨t'', ht'', rfl⟩⟩
  | .badColor fault =>
    rw [hl] at h
    cases h
  | .bind b =>
    have := (look_bind_length hl).1
    simp only [hl] at h
    cases hb : bindText bound b with
    | error fault => rw [hb] at h; cases h
    | ok text =>
      rw [hb] at h
      obtain ⟨t', ht', -⟩ := prepend_eq_ok.1 h
      obtain ⟨t'', ht''⟩ := scan_any_bound word ht'
      exact ⟨_, prepend_eq_ok.2 ⟨t'', ht'', rfl⟩⟩
termination_by _ cs => cs.length

/-- The comment that a scan leaves open is the one that the text leaves open. -/
theorem scan_leavesOpen {bound : String → Option String} {zone : Zone} {cs t : List Char}
    {inComment : Bool} (h : scan bound zone cs = .ok (t, inComment)) :
    leavesOpen zone cs = inComment := by
  obtain ⟨t', ht'⟩ := scan_any_bound "" h
  simp only [leavesOpen, ht']

end AudioShader
