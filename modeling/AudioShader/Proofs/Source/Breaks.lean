/-
# Line feeds in what is written

A line of a text has a line feed at most at its end, and every line but the
last one has it. What stands for a line in the output breaks where the line
does: colors have no line feed, nor have the defaults of binds, and a scan
copies all the rest (`scan_breaksLike`).

Key definitions: `Text.IsLine`, `Text.Cut`, `BreaksLike`.
Key theorems: `Text.cut_splitLines`, `scan_breaksLike`, `scanDefine_breaksLike`,
`readTokens_unbroken`.
-/
import Mathlib.Data.List.Basic
import Mathlib.Data.List.TakeWhile
import AudioShader.Proofs.Source.Sight

namespace AudioShader
namespace Text

/-! ### Lines of a text -/

/-- A text with a line feed at most at its end. -/
def IsLine (cs : List Char) : Prop := '\n' ∉ cs.dropLast

/-- Texts that are lines of one text: none is empty, and all but the last end
with a line feed. -/
def Cut : List (List Char) → Prop
  | [] => True
  | l :: rest => l ≠ [] ∧ IsLine l ∧ (rest ≠ [] → endsLine l = true) ∧ Cut rest

theorem isLine_cons {c : Char} {l : List Char} (hc : c ≠ '\n') (h : IsLine l) : IsLine (c :: l) := by
  cases l with
  | nil => simp [IsLine]
  | cons d l =>
    simp only [IsLine, List.dropLast_cons_cons, List.mem_cons, not_or] at h ⊢
    exact ⟨Ne.symm hc, h⟩

theorem endsLine_cons {c : Char} {l : List Char} (h : endsLine l = true) :
    endsLine (c :: l) = true := by
  cases l with
  | nil => simp [endsLine] at h
  | cons d l => simpa [endsLine, List.getLast?_cons_cons] using h

theorem cut_splitLines : ∀ cs : List Char, Cut (splitLines cs)
  | [] => trivial
  | c :: cs => by
    have ih := cut_splitLines cs
    unfold splitLines
    split
    · next hc => exact ⟨by simp, by simp [IsLine], fun _ => by simp [endsLine, hc], ih⟩
    · next hc =>
      split
      · exact ⟨by simp, by simp [IsLine], fun h => absurd rfl h, trivial⟩
      · next l ls hl =>
        rw [hl] at ih
        obtain ⟨-, hi, he, hr⟩ := ih
        exact ⟨by simp, isLine_cons hc hi, fun h => endsLine_cons (he h), hr⟩

/-- Every line of a text but the last one ends with a line feed. -/
theorem isLine_of_cut : ∀ {ls : List (List Char)} {i : Nat} {line : List Char}, Cut ls →
    ls[i]? = some line → IsLine line ∧ (i + 1 < ls.length → endsLine line = true)
  | l :: ls, 0, line, h, hl => by
    cases hl
    refine ⟨h.2.1, fun hlen => h.2.2.1 ?_⟩
    rintro rfl
    simp at hlen
  | l :: ls, i + 1, line, h, hl => by
    have := isLine_of_cut h.2.2.2 (by simpa using hl)
    simpa using this

theorem IsLine.suffix {a b : List Char} (h : IsLine (a ++ b)) : IsLine b := by
  cases b with
  | nil => simp [IsLine]
  | cons c b =>
    rw [IsLine, List.dropLast_append_of_ne_nil (by simp)] at h
    exact fun hm => h (List.mem_append_right _ hm)

theorem IsLine.unbroken {a b : List Char} (h : IsLine (a ++ b)) (hb : b ≠ []) : '\n' ∉ a := by
  rw [IsLine, List.dropLast_append_of_ne_nil hb] at h
  exact fun hm => h (List.mem_append_left _ hm)

theorem countBreaks_append (a b : List Char) :
    countBreaks (a ++ b) = countBreaks a + countBreaks b := List.count_append

theorem countBreaks_eq_zero {cs : List Char} : countBreaks cs = 0 ↔ '\n' ∉ cs := List.count_eq_zero

theorem endsLine_append {b : List Char} (a : List Char) (hb : b ≠ []) :
    endsLine (a ++ b) = endsLine b := by
  rw [endsLine, endsLine, List.getLast?_append_of_ne_nil a hb]

theorem mem_of_endsLine {cs : List Char} (h : endsLine cs = true) : '\n' ∈ cs := by
  simp only [endsLine, beq_iff_eq] at h
  exact List.mem_of_getLast? h

/-- A line that ends with a line feed has that one only. -/
theorem IsLine.countBreaks_of_endsLine {cs : List Char} (h : IsLine cs) (he : endsLine cs = true) :
    countBreaks cs = 1 := by
  simp only [endsLine, beq_iff_eq] at he
  obtain ⟨front, rfl⟩ := List.getLast?_eq_some_iff.1 he
  have := countBreaks_eq_zero.2 (h.unbroken (by simp))
  rw [countBreaks_append, this]
  rfl

theorem unbroken_cons {c : Char} {cs : List Char} (hc : c ≠ '\n') (h : '\n' ∉ cs) :
    '\n' ∉ c :: cs := by
  simp only [List.mem_cons, not_or]
  exact ⟨Ne.symm hc, h⟩

theorem isNameChar_ne_break {c : Char} (h : isNameChar c = true) : c ≠ '\n' := by
  rintro rfl
  exact absurd h (by decide)

/-- Names are on one line. -/
theorem unbroken_of_all_isNameChar {cs : List Char} (h : ∀ c ∈ cs, isNameChar c = true) :
    '\n' ∉ cs := fun hm => isNameChar_ne_break (h _ hm) rfl

theorem unbroken_takeWhile_isNameChar (cs : List Char) : '\n' ∉ cs.takeWhile isNameChar :=
  unbroken_of_all_isNameChar fun _ hc => List.mem_takeWhile_imp hc

end Text

/-! ### Texts that break alike -/

/-- `t` has as many line feeds as `cs`, and one at its end if `cs` has. -/
structure BreaksLike (cs t : List Char) : Prop where
  count : Text.countBreaks t = Text.countBreaks cs
  ends : Text.endsLine cs = true → Text.endsLine t = true
  nil : cs = [] → t = []

namespace BreaksLike

theorem refl (cs : List Char) : BreaksLike cs cs := ⟨rfl, id, id⟩

theorem copy {cs t : List Char} (lead : List Char) (h : BreaksLike cs t) :
    BreaksLike (lead ++ cs) (lead ++ t) := by
  refine ⟨?_, ?_, ?_⟩
  · rw [Text.countBreaks_append, Text.countBreaks_append, h.count]
  · intro he
    by_cases hc : cs = []
    · rw [h.nil hc]
      rwa [hc] at he
    · rw [Text.endsLine_append lead hc] at he
      have ht := h.ends he
      rwa [Text.endsLine_append lead (by rintro rfl; simp [Text.endsLine] at ht)]
  · intro hn
    obtain ⟨rfl, hc⟩ := List.append_eq_nil_iff.1 hn
    simp [h.nil hc]

/-- One piece without line feeds takes the place of another. -/
theorem replace {cs t a b : List Char} (hne : a ≠ []) (ha : '\n' ∉ a) (hb : '\n' ∉ b)
    (h : BreaksLike cs t) : BreaksLike (a ++ cs) (b ++ t) := by
  refine ⟨?_, ?_, ?_⟩
  · rw [Text.countBreaks_append, Text.countBreaks_append, h.count, Text.countBreaks_eq_zero.2 ha,
      Text.countBreaks_eq_zero.2 hb]
  · intro he
    by_cases hc : cs = []
    · rw [hc, List.append_nil] at he
      exact absurd (Text.mem_of_endsLine he) ha
    · rw [Text.endsLine_append a hc] at he
      have ht := h.ends he
      rwa [Text.endsLine_append b (by rintro rfl; simp [Text.endsLine] at ht)]
  · intro hn
    exact absurd (List.append_eq_nil_iff.1 hn).1 hne

theorem unbroken {cs t : List Char} (h : BreaksLike cs t) (hc : '\n' ∉ cs) : '\n' ∉ t := by
  rw [← Text.countBreaks_eq_zero] at hc ⊢
  rw [h.count, hc]

end BreaksLike

/-! ### Numbers and colors -/

theorem unbroken_toString (n : Nat) : '\n' ∉ (toString n).toList := by
  intro hm
  rw [Nat.toString_eq_repr, Nat.toList_repr] at hm
  exact absurd (Nat.isDigit_of_mem_toDigits (by omega) (by omega) hm) (by decide)

/-- A number with places behind its point is digits and the point. -/
theorem Binary.mem_fixed {places : Nat} {x : Binary} {c : Char}
    (h : c ∈ (x.fixed places).toList) : c.isDigit = true ∨ c = '.' := by
  have hp : ∀ n, c ∈ Binary.padded 10 (places + 1) n → c.isDigit = true := by
    intro n hm
    simp only [Binary.padded, List.mem_append, List.mem_replicate] at hm
    rcases hm with ⟨-, rfl⟩ | hm
    · decide
    · exact Nat.isDigit_of_mem_toDigits (by omega) (by omega) hm
  simp only [Binary.fixed, String.toList_ofList, List.mem_append, List.mem_cons] at h
  rcases h with h | h | h
  · exact .inl (hp _ (List.mem_of_mem_take h))
  · exact .inr h
  · exact .inl (hp _ (List.mem_of_mem_drop h))

theorem Binary.unbroken_fixed (places : Nat) (x : Binary) : '\n' ∉ (x.fixed places).toList := by
  intro hm
  rcases Binary.mem_fixed hm with h | h <;> exact absurd h (by decide)

theorem unbroken_intercalate {separator : String} {parts : List String}
    (hs : '\n' ∉ separator.toList) (hp : ∀ s ∈ parts, '\n' ∉ s.toList) :
    '\n' ∉ (String.intercalate separator parts).toList := by
  induction parts with
  | nil => simp
  | cons s parts ih =>
    have hh := hp s (List.mem_cons_self ..)
    have ht := ih fun s' hs' => hp s' (List.mem_cons_of_mem _ hs')
    cases parts with
    | nil => simpa using hh
    | cons t parts =>
      simp only [String.intercalate_cons_cons, String.toList_append, List.mem_append, not_or]
      exact ⟨⟨hh, hs⟩, ht⟩

theorem Color.unbroken_toGlsl (c : Color) : '\n' ∉ c.toGlsl.toList := by
  have hp : ∀ s ∈ c.toList.map fun x => (Binary.ofFloat32 x).fixed 6, '\n' ∉ s.toList := by
    intro s hs
    obtain ⟨x, -, rfl⟩ := List.mem_map.1 hs
    exact Binary.unbroken_fixed 6 _
  have hi := @unbroken_intercalate ", " _ (by decide) hp
  simp only [Color.toGlsl, String.toList_append, List.mem_append, not_or]
  exact ⟨⟨by decide, hi⟩, by decide⟩

/-- The digits of a color are on one line. -/
theorem Color.scan_split {cs rest : List Char} {color : Color}
    (h : Color.scan cs = .ok (some (color, rest))) :
    ∃ digits, cs = digits ++ rest ∧ '\n' ∉ digits := by
  have hrest : rest = cs.drop ((cs.take maxHexDigits).takeWhile isHexDigit).length := by
    simp only [Color.scan, bind, Except.bind, pure, Except.pure, throw, throwThe,
      MonadExceptOf.throw] at h
    grind
  refine ⟨(cs.take maxHexDigits).takeWhile isHexDigit, ?_, ?_⟩
  · have hpre : (cs.take maxHexDigits).takeWhile isHexDigit <+: cs :=
      (List.takeWhile_prefix _).trans (List.take_prefix _ _)
    rw [hrest, List.prefix_iff_eq_append.1 hpre]
  · intro hm
    exact absurd (List.mem_takeWhile_imp hm) (by decide)

/-! ### Binds -/

/-- The default of a bind stands at the front, on one line. -/
theorem bindDefault_split : ∀ (depth : Nat) (cs : List Char),
    bindDefault depth cs <+: cs ∧ '\n' ∉ bindDefault depth cs
  | _, [] => by simp [bindDefault]
  | depth, c :: cs => by
    have keep : ∀ d, c ≠ '\n' →
        c :: bindDefault d cs <+: c :: cs ∧ '\n' ∉ c :: bindDefault d cs := by
      intro d hc
      obtain ⟨hp, hn⟩ := bindDefault_split d cs
      exact ⟨List.cons_prefix_cons.2 ⟨rfl, hp⟩, Text.unbroken_cons hc hn⟩
    unfold bindDefault
    split
    · next h => exact keep _ (by rintro rfl; revert h; decide)
    · split
      · next h =>
        cases depth with
        | zero => simp
        | succ d => exact keep _ (by rintro rfl; revert h; decide)
      · split
        · simp
        · next h =>
          split
          · simp
          · exact keep _ fun hc => h (Or.inl hc)

/-- What a bind is read from goes on, behind a piece on one line, with the rest. -/
theorem readBind?_split {cs : List Char} {b : Bind} (h : readBind? cs = some b) :
    (∃ taken, cs = taken ++ b.rest ∧ '\n' ∉ taken) ∧
      ∀ text, b.fallback = some text → '\n' ∉ text := by
  unfold readBind? at h
  split at h
  · simp at h
  · next c tail =>
    split at h
    · have hsplit := List.takeWhile_append_dropWhile (p := Text.isNameChar) (l := c :: tail)
      have hname := Text.unbroken_takeWhile_isNameChar (c :: tail)
      dsimp only at h
      split at h
      · next more hm =>
        rw [hm] at hsplit
        obtain ⟨hp, hn⟩ := bindDefault_split 0 more
        split at h
        · cases h
          exact ⟨⟨_, hsplit.symm, hname⟩, by simp⟩
        · cases h
          have hp' := List.prefix_iff_eq_append.1 hp
          refine ⟨⟨(c :: tail).takeWhile Text.isNameChar ++ ':' :: bindDefault 0 more, ?_, ?_⟩, ?_⟩
          · rw [List.append_assoc, List.cons_append, hp', hsplit]
          · simp only [List.mem_append, List.mem_cons, not_or]
            exact ⟨hname, by decide, hn⟩
          · rintro text ⟨⟩
            exact hn
      · cases h
        exact ⟨⟨_, hsplit.symm, hname⟩, by simp⟩
    · simp at h

/-! ### Scans -/

/-- What a scan writes breaks like what it reads, if no name is bound to a text
with line feeds. -/
theorem scan_breaksLike {bound : String → Option String}
    (hb : ∀ name text, bound name = some text → '\n' ∉ text.toList) :
    ∀ {zone : Zone} {cs t : List Char} {inComment : Bool},
      scan bound zone cs = .ok (t, inComment) → BreaksLike cs t := by
  intro zone cs t inComment h
  rw [scan_look] at h
  match hl : look zone cs with
  | .finish =>
    rw [hl] at h
    cases h
    exact .refl cs
  | .copy lead zone' rest =>
    have := look_copy_length hl
    rw [hl] at h
    obtain ⟨t', ht', rfl⟩ := prepend_eq_ok.1 h
    rw [(look_copy hl).2]
    exact (scan_breaksLike hb ht').copy lead
  | .color color rest =>
    have := look_color_length hl
    rw [hl] at h
    obtain ⟨t', ht', ht⟩ := prepend_eq_ok.1 h
    obtain ⟨more, rfl, hc⟩ := look_color hl
    obtain ⟨digits, rfl, hd⟩ := Color.scan_split hc
    have hn : '\n' ∉ '#' :: digits := Text.unbroken_cons (by decide) hd
    rw [ht]
    exact (scan_breaksLike hb ht').replace (by simp) hn color.unbroken_toGlsl
  | .badColor fault =>
    rw [hl] at h
    cases h
  | .bind b =>
    obtain ⟨hlen, hflen⟩ := look_bind_length hl
    obtain ⟨more, rfl, hr⟩ := look_bind hl
    obtain ⟨⟨taken, rfl, hn⟩, hf⟩ := readBind?_split hr
    have htaken : '\n' ∉ '@' :: taken := Text.unbroken_cons (by decide) hn
    simp only [hl] at h
    have htext : ∀ text, bindText bound b = .ok text → '\n' ∉ text := by
      intro text htext
      unfold bindText at htext
      split at htext
      · next s hs =>
        cases htext
        exact hb _ _ hs
      · cases htext
      · next s _ hs =>
        have := hflen s hs
        cases hscan : scan bound .code s with
        | error fault => rw [hscan] at htext; cases htext
        | ok p =>
          rw [hscan] at htext
          cases htext
          exact (scan_breaksLike hb hscan).unbroken (hf s hs)
    cases hbt : bindText bound b with
    | error fault => rw [hbt] at h; cases h
    | ok text =>
      rw [hbt] at h
      obtain ⟨t', ht', rfl⟩ := prepend_eq_ok.1 h
      exact (scan_breaksLike hb ht').replace (by simp) htaken (htext text hbt)
termination_by _ cs => cs.length

theorem scanDefine_breaksLike {bound : String → Option String}
    (hb : ∀ name text, bound name = some text → '\n' ∉ text.toList) {cs t : List Char}
    {inComment : Bool} (h : scanDefine bound cs = .ok (t, inComment)) : BreaksLike cs t := by
  unfold scanDefine at h
  split at h
  · next rest hr =>
    obtain ⟨t', ht', rfl⟩ := prepend_eq_ok.1 h
    have hsplit := List.takeWhile_append_dropWhile (p := Text.isAsciiBlank) (l := cs)
    rw [hr] at hsplit
    have := (scan_breaksLike hb ht').copy (cs.takeWhile Text.isAsciiBlank ++ ['#'])
    rwa [List.append_assoc, List.singleton_append, hsplit] at this
  · exact scan_breaksLike hb h

/-! ### Words -/

/-- A quoted text that closes is on one line. -/
theorem readQuoted?_split : ∀ {cs text rest : List Char}, readQuoted? cs = some (text, rest) →
    Text.IsLine cs → '\n' ∉ text ∧ ∃ taken, cs = taken ++ rest
  | [], _, _, h, _ => by simp [readQuoted?] at h
  | c :: cs, text, rest, h, hl => by
    unfold readQuoted? at h
    split at h
    · cases h
      exact ⟨by simp, [c], rfl⟩
    · split at h
      · cases h
      · next hc =>
        split at h
        · cases cs with
          | nil => cases h
          | cons e more =>
            obtain ⟨⟨w, r⟩, hp, heq⟩ := Option.map_eq_some_iff.1 h
            cases heq
            have hl' : Text.IsLine more := Text.IsLine.suffix (a := [c, e]) hl
            obtain ⟨hw, taken, ht⟩ := readQuoted?_split hp hl'
            have hmore : more ≠ [] := by rintro rfl; simp [readQuoted?] at hp
            have he : '\n' ∉ [c, e] := Text.IsLine.unbroken (b := more) hl hmore
            refine ⟨Text.unbroken_cons ?_ hw, c :: e :: taken, by simp [ht]⟩
            rintro rfl
            exact he (by simp)
        · obtain ⟨⟨w, r⟩, hp, heq⟩ := Option.map_eq_some_iff.1 h
          cases heq
          obtain ⟨hw, taken, ht⟩ := readQuoted?_split hp (Text.IsLine.suffix (a := [c]) hl)
          exact ⟨Text.unbroken_cons (fun hcn => hc (Or.inl hcn)) hw, c :: taken, by simp [ht]⟩

/-- A word is on one line. -/
theorem readBare_split : ∀ cs : List Char,
    '\n' ∉ (readBare cs).1 ∧ cs = (readBare cs).1 ++ (readBare cs).2
  | [] => by simp [readBare]
  | c :: cs => by
    unfold readBare
    split
    · simp
    · next hc =>
      obtain ⟨hn, hs⟩ := readBare_split cs
      refine ⟨Text.unbroken_cons ?_ hn, by simp [← hs]⟩
      rintro rfl
      simp [Text.isAsciiBlank] at hc

theorem mem_of_map_cons_eq_ok {ε α : Type} {r : Except ε (List α)} {a : α} {as : List α}
    (h : r.map (a :: ·) = .ok as) : ∃ as', r = .ok as' ∧ as = a :: as' := by
  cases r with
  | error e => cases h
  | ok as' => cases h; exact ⟨as', rfl, rfl⟩

/-- The words of a directive line are on one line each. -/
theorem readTokens_unbroken {cs : List Char} {tokens : List Token} (hl : Text.IsLine cs)
    (h : readTokens cs = .ok tokens) : ∀ t ∈ tokens, '\n' ∉ t.text.toList := by
  fun_induction readTokens cs generalizing tokens with
  | case1 => cases h; simp
  | case2 c cs _ ih => exact ih (hl.suffix (a := [c])) h
  | case3 => cases h
  | case4 cs text rest hq _ _ ih =>
    obtain ⟨hw, taken, rfl⟩ := readQuoted?_split hq (hl.suffix (a := ['"']))
    obtain ⟨tokens', ht, rfl⟩ := mem_of_map_cons_eq_ok h
    have hrest : Text.IsLine rest := hl.suffix (a := '"' :: taken)
    intro t hm
    rcases List.mem_cons.1 hm with rfl | hm
    · simpa using hw
    · exact ih hrest ht t hm
  | case5 => cases h; simp
  | case6 => cases h
  | case7 c cs _ _ _ more ha text rest hc _ _ ih =>
    have ha := Text.eq_append_of_after? ha
    have hc := Text.eq_append_of_cutAt? hc
    rw [ha, hc, ← List.append_assoc] at hl
    exact ih hl.suffix h
  | case8 c cs hb _ _ _ _ _ =>
    rename_i ih
    obtain ⟨hn, hs⟩ := readBare_split cs
    obtain ⟨tokens', ht, rfl⟩ := mem_of_map_cons_eq_ok h
    have hrest : Text.IsLine (readBare cs).2 := by
      rw [hs, ← List.cons_append] at hl
      exact hl.suffix
    intro t hm
    rcases List.mem_cons.1 hm with rfl | hm
    · rw [String.toList_ofList]
      refine Text.unbroken_cons ?_ hn
      rintro rfl
      exact hb (by decide)
    · exact ih hrest ht t hm

/-! ### Expansions -/

theorem isLine_of_suffix {a b : List Char} (h : Text.IsLine b) (hs : a <:+ b) : Text.IsLine a := by
  obtain ⟨front, rfl⟩ := hs
  exact h.suffix

theorem directiveBody_suffix (line : List Char) : directiveBody line <:+ line := by
  have ht : Text.trimStart line <:+ line := List.dropWhile_suffix _
  unfold directiveBody
  split
  · next cs h =>
    rw [h] at ht
    have hc : Text.trimStart cs <:+ cs := List.dropWhile_suffix _
    exact (hc.trans (List.suffix_cons '#' cs)).trans ht
  · exact ht

/-- The macro of an expansion is named on one line. -/
theorem unbroken_of_expand {k : Carry} {line : List Char} {name control : String}
    (hl : Text.IsLine line) (h : lineDirective k line = .ok (some (.expand name control))) :
    '\n' ∉ name.toList := by
  have hr : Text.IsLine ((directiveBody line).dropWhile Text.isNameChar) :=
    isLine_of_suffix hl ((List.dropWhile_suffix _).trans (directiveBody_suffix line))
  have hd : readDirective line = .ok (some (.expand name control)) := by
    unfold lineDirective at h
    split at h
    · exact h
    · cases h
  have ht : ∃ t₁ t₂ : Token,
      readTokens ((directiveBody line).dropWhile Text.isNameChar) = .ok [t₁, t₂] ∧ name = t₁.text := by
    unfold readDirective at hd
    grind
  obtain ⟨t₁, t₂, ht, rfl⟩ := ht
  exact readTokens_unbroken hr ht t₁ (by simp)

theorem countBreaks_expansion {name : String} (h : '\n' ∉ name.toList) (count : Nat) :
    Text.countBreaks (expansion name count).toList = 1 := by
  have hp : ∀ s ∈ (List.range count).map (fun i => s!"{name}({i});"), '\n' ∉ s.toList := by
    intro s hs
    obtain ⟨i, -, rfl⟩ := List.mem_map.1 hs
    have := unbroken_toString i
    simp only [String.toList_append, List.mem_append, not_or]
    exact ⟨⟨⟨h, by decide⟩, this⟩, by decide⟩
  have hi := Text.countBreaks_eq_zero.2 (@unbroken_intercalate " " _ (by decide) hp)
  rw [expansion, String.toList_append, Text.countBreaks_append, hi]
  rfl

end AudioShader
