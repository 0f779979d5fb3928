/-
# Which texts are colors

A color is six or eight hexadecimal digits of either case. Two readers decide on
that: one takes a text as a whole, with a `#` in front of it or without; the other
stands in a line, where the name characters behind a `#` are the text. Both accept
the same texts, and the second one looks at no more than nine characters to tell why
it refuses the others.

Key definitions: `HexDigit`, `Color.Written`, `IsHexRun`, `hexRunFault`.
Key theorems: `Color.ofHex_eq_ok_iff`, `Color.scan_eq`, `colors_are_hex_runs`.
-/
import AudioShader.Proofs.Source.Inlining
import AudioShader.Proofs.Text.Letters

namespace AudioShader

/-! ### Digits -/

/-- The hexadecimal digits in their order. -/
def hexDigits : List Char := "0123456789abcdef".toList

/-- A hexadecimal digit of either case. -/
def HexDigit (c : Char) : Prop := c.toLower ∈ hexDigits

instance (c : Char) : Decidable (HexDigit c) := inferInstanceAs (Decidable (c.toLower ∈ hexDigits))

/-- What a digit counts: its place among the digits. -/
def hexPlace (c : Char) : Nat := hexDigits.idxOf c.toLower

theorem toLower_eq_self {c : Char} (h : 128 ≤ c.toNat) : c.toLower = c := by
  unfold Char.toLower
  split
  · next hc =>
    have hle : c.toNat ≤ 90 := UInt32.le_iff_toNat_le.1 hc.2
    omega
  · rfl

theorem HexDigit.toNat_lt {c : Char} (h : HexDigit c) : c.toNat < 128 := by
  by_contra hc
  rw [Nat.not_lt] at hc
  unfold HexDigit at h
  rw [toLower_eq_self hc] at h
  have hall : hexDigits.all (·.toNat < 128) = true := by decide
  exact absurd (of_decide_eq_true (List.all_eq_true.1 hall _ h)) (Nat.not_lt.2 hc)

/-- A digit is read as its place. -/
theorem hexValue?_eq (c : Char) : hexValue? c = if HexDigit c then some (hexPlace c) else none := by
  by_cases hc : c.toNat < 128
  · have hall : ∀ n < 128, hexValue? (Char.ofNat n) =
        if HexDigit (Char.ofNat n) then some (hexPlace (Char.ofNat n)) else none := by decide +kernel
    rw [← Char.ofNat_toNat c]
    exact hall c.toNat hc
  · rw [if_neg fun h => hc h.toNat_lt]
    have hhex : ¬isHexDigit c = true := by
      rw [isHexDigit_iff]
      omega
    rwa [isHexDigit, Option.isSome_iff_ne_none, not_not] at hhex

theorem isHexDigit_eq (c : Char) : isHexDigit c = decide (HexDigit c) := by
  unfold isHexDigit
  rw [hexValue?_eq]
  by_cases hc : HexDigit c <;> simp [hc]

/-- All characters of a text are digits. -/
def IsHex (cs : List Char) : Prop := ∀ c ∈ cs, HexDigit c

theorem find?_of_isHex {cs : List Char} (h : IsHex cs) :
    (cs.find? fun c => !decide (HexDigit c)) = none :=
  List.find?_eq_none.2 fun c hc => by simp [h c hc]

/-- A digit takes one byte. -/
theorem utf8ByteSize_of_isHex : ∀ {cs : List Char}, IsHex cs →
    (String.ofList cs).utf8ByteSize = cs.length
  | [], _ => rfl
  | c :: cs, h => by
    have hc : c.utf8Size = 1 := by
      have hlt := (h c (List.mem_cons_self ..)).toNat_lt
      have hle : c.toNat ≤ 127 := by omega
      rw [Char.utf8Size_eq_one_iff]
      exact UInt32.le_iff_toNat_le.2 hle
    have ih := utf8ByteSize_of_isHex fun d hd => h d (List.mem_cons_of_mem c hd)
    rw [String.ofList_cons, String.utf8ByteSize_append, String.utf8ByteSize_singleton, hc, ih]
    exact Nat.add_comm 1 cs.length

/-- The digits of a text are read up to the first character that is none. -/
theorem readNibbles_eq : ∀ cs : List Char, readNibbles cs =
    match cs.find? fun c => !decide (HexDigit c) with
    | some c => .error (.badDigit c)
    | none => .ok (cs.map hexPlace)
  | [] => rfl
  | c :: cs => by
    rw [readNibbles, hexValue?_eq, List.find?_cons]
    by_cases hc : HexDigit c
    · rw [if_pos hc, decide_eq_true hc]
      simp only [readNibbles_eq cs, Bool.not_true]
      cases cs.find? fun c => !decide (HexDigit c) <;> rfl
    · rw [if_neg hc, decide_eq_false hc]
      rfl

theorem readNibbles_of_isHex {cs : List Char} (h : IsHex cs) :
    readNibbles cs = .ok (cs.map hexPlace) := by
  rw [readNibbles_eq, find?_of_isHex h]

/-! ### Whole texts -/

/-- A text of six or eight hexadecimal digits. -/
def IsHexRun (cs : List Char) : Prop := (cs.length = 6 ∨ cs.length = 8) ∧ IsHex cs

instance (cs : List Char) : Decidable (IsHexRun cs) :=
  decidable_of_iff ((cs.length = 6 ∨ cs.length = 8) ∧ (cs.all fun c => HexDigit c) = true) (by
    simp only [IsHexRun, IsHex, List.all_eq_true, decide_eq_true_eq])

/-- The name characters behind a `#`. -/
def hashRun (cs : List Char) : List Char := cs.takeWhile Text.isNameChar

/-- Why a run behind a `#` is no color: the first character that is no digit, if it is
one of the first nine, else how long the run is, up to nine. -/
def hexRunFault (run : List Char) : ColorFault :=
  match (run.take 9).find? fun c => !decide (HexDigit c) with
  | some c => .badDigit c
  | none => .length (min run.length 9)

namespace Color

/-- The channel that a number of two digits stands for. -/
def share (pair : Nat) : Float32 := Float32.ofNat pair / 255

/-- The color of the numbers of its digits: two of them for each channel, and an alpha
of one if the last two are missing. -/
def ofPlaces : List Nat → Option Color
  | [r, r', g, g', b, b'] => some ⟨share (16 * r + r'), share (16 * g + g'), share (16 * b + b'), 1⟩
  | [r, r', g, g', b, b', a, a'] =>
    some ⟨share (16 * r + r'), share (16 * g + g'), share (16 * b + b'), share (16 * a + a')⟩
  | _ => none

/-- A text of digits is written for a color. -/
def Written (cs : List Char) (color : Color) : Prop :=
  IsHex cs ∧ ofPlaces (cs.map hexPlace) = some color

/-- A text without one `#` at its front. -/
def bare : List Char → List Char
  | '#' :: cs => cs
  | cs => cs

theorem bare_of_isHex {cs : List Char} (h : IsHex cs) : bare cs = cs := by
  unfold bare
  split
  · exact absurd (h '#' (List.mem_cons_self ..)) (by decide)
  · rfl

theorem length_of_ofPlaces {places : List Nat} {color : Color} (h : ofPlaces places = some color) :
    places.length = 6 ∨ places.length = 8 := by
  unfold ofPlaces at h
  split at h
  · exact .inl rfl
  · exact .inr rfl
  · cases h

theorem exists_written_iff {cs : List Char} : (∃ color, Written cs color) ↔ IsHexRun cs := by
  constructor
  · rintro ⟨color, hhex, hplaces⟩
    have hlength := length_of_ofPlaces hplaces
    rw [List.length_map] at hlength
    exact ⟨hlength, hhex⟩
  · rintro ⟨hlength | hlength, hhex⟩
    · match cs, hlength, hhex with
      | [_, _, _, _, _, _], _, hhex => exact ⟨_, hhex, rfl⟩
    · match cs, hlength, hhex with
      | [_, _, _, _, _, _, _, _], _, hhex => exact ⟨_, hhex, rfl⟩

/-- The case of the digits does not count. -/
theorem Written.of_toLower {cs cs' : List Char} {color : Color} (h : Written cs color)
    (hcase : cs'.map Char.toLower = cs.map Char.toLower) : Written cs' color := by
  obtain ⟨hhex, hplaces⟩ := h
  have hmap (ds : List Char) : ds.map hexPlace = (ds.map Char.toLower).map hexDigits.idxOf := by
    rw [List.map_map]
    rfl
  refine ⟨fun c hc => ?_, ?_⟩
  · have hmem : c.toLower ∈ cs.map Char.toLower := hcase ▸ List.mem_map_of_mem hc
    obtain ⟨d, hd, hlower⟩ := List.mem_map.1 hmem
    unfold HexDigit
    rw [← hlower]
    exact hhex d hd
  · rw [hmap, hcase, ← hmap, hplaces]

theorem length_pairChannels : ∀ vs : List Nat, (pairChannels vs).length = vs.length / 2
  | [] => rfl
  | [_] => by simp [pairChannels]
  | _ :: _ :: vs => by
    rw [pairChannels, List.length_cons, length_pairChannels vs, List.length_cons, List.length_cons]
    omega

/-- Digits are read in pairs. -/
theorem readChannels_of_isHex {cs : List Char} (h : IsHex cs) : readChannels cs =
    if cs.length % 2 ≠ 0 then .error (.length cs.length)
    else .ok (pairChannels (cs.map hexPlace)) := by
  unfold readChannels
  rw [readNibbles_of_isHex h]
  dsimp only [bind, Except.bind]
  rw [List.length_map]
  split <;> rfl

/-- How a text is read as a color. -/
theorem ofHex_eq (s : String) : ofHex s =
    if maxHexDigits < (String.ofList (bare s.toList)).utf8ByteSize then
      .error (.length (String.ofList (bare s.toList)).utf8ByteSize)
    else (readChannels (bare s.toList)).bind fun
      | [r, g, b] => .ok ⟨r, g, b, 1.0⟩
      | [r, g, b, a] => .ok ⟨r, g, b, a⟩
      | _ => .error (.length (String.ofList (bare s.toList)).utf8ByteSize) := by
  by_cases hsize : maxHexDigits < (String.ofList (bare s.toList)).utf8ByteSize
  · rw [if_pos hsize]
    exact if_pos hsize
  · rw [if_neg hsize]
    exact if_neg hsize

section Digits

variable {s : String}

theorem ofHex_of_written {color : Color} (h : Written (bare s.toList) color) :
    ofHex s = .ok color := by
  obtain ⟨hhex, hplaces⟩ := h
  have hlength := length_of_ofPlaces hplaces
  rw [List.length_map] at hlength
  have hsize : ¬maxHexDigits < (String.ofList (bare s.toList)).utf8ByteSize := by
    rw [utf8ByteSize_of_isHex hhex, maxHexDigits]
    omega
  have heven : ¬(bare s.toList).length % 2 ≠ 0 := by omega
  rw [ofHex_eq, if_neg hsize, readChannels_of_isHex hhex, if_neg heven]
  unfold ofPlaces at hplaces
  split at hplaces
  · next heq =>
    cases hplaces
    rw [heq]
    rfl
  · next heq =>
    cases hplaces
    rw [heq]
    rfl
  · cases hplaces

/-- Digits that are no color are too many or too few. -/
theorem ofHex_of_not_isHexRun (hhex : IsHex (bare s.toList)) (h : ¬IsHexRun (bare s.toList)) :
    ofHex s = .error (.length (bare s.toList).length) := by
  have hlength : (bare s.toList).length ≠ 6 ∧ (bare s.toList).length ≠ 8 := by
    constructor <;> intro hl
    · exact h ⟨.inl hl, hhex⟩
    · exact h ⟨.inr hl, hhex⟩
  rw [ofHex_eq, utf8ByteSize_of_isHex hhex, readChannels_of_isHex hhex]
  split
  · rfl
  next hsize =>
  split
  · rfl
  next heven =>
  have hpairs := length_pairChannels ((bare s.toList).map hexPlace)
  rw [List.length_map] at hpairs
  dsimp only [Except.bind]
  split
  · next heq =>
    rw [heq, List.length_cons, List.length_cons, List.length_cons, List.length_nil] at hpairs
    omega
  · next heq =>
    rw [heq, List.length_cons, List.length_cons, List.length_cons, List.length_cons,
      List.length_nil] at hpairs
    omega
  · rfl

/-- A text is read as a color exactly if it is written for it. -/
theorem ofHex_eq_ok_iff {color : Color} : ofHex s = .ok color ↔ Written (bare s.toList) color := by
  constructor
  · intro h
    have hhex : IsHex (bare s.toList) := by
      by_contra hhex
      unfold IsHex at hhex
      push Not at hhex
      obtain ⟨c, hc, hne⟩ := hhex
      have hfind : ((bare s.toList).find? fun c => !decide (HexDigit c)).isSome = true :=
        List.find?_isSome.2 ⟨c, hc, by simp [hne]⟩
      obtain ⟨d, hd⟩ := Option.isSome_iff_exists.1 hfind
      rw [ofHex_eq] at h
      split at h
      · cases h
      · unfold readChannels at h
        rw [readNibbles_eq, hd] at h
        cases h
    have hrun : IsHexRun (bare s.toList) := by
      by_contra hrun
      rw [ofHex_of_not_isHexRun hhex hrun] at h
      cases h
    obtain ⟨color', hwritten⟩ := exists_written_iff.2 hrun
    rw [ofHex_of_written hwritten] at h
    cases h
    exact hwritten
  · exact ofHex_of_written

end Digits

/-! ### Behind a hash -/

theorem hexRunFault_of_isHex {run : List Char} (h : IsHex (run.take 9)) :
    hexRunFault run = .length (min run.length 9) := by
  rw [hexRunFault, find?_of_isHex h]

theorem hexRunFault_of_not_hex {digits more : List Char} {c : Char} (hdigits : IsHex digits)
    (hle : digits.length ≤ maxHexDigits) (hc : ¬HexDigit c) :
    hexRunFault (digits ++ c :: more) = .badDigit c := by
  rw [maxHexDigits] at hle
  have htake : (c :: more).take (9 - digits.length) = c :: more.take (8 - digits.length) := by
    rw [show 9 - digits.length = 8 - digits.length + 1 by omega, List.take_succ_cons]
  rw [hexRunFault, List.take_append, List.take_of_length_le (by omega), htake, List.find?_append,
    find?_of_isHex hdigits, Option.none_or, List.find?_cons, decide_eq_false hc]
  rfl

/-- The digits that are read behind a `#`: at most eight, and fewer only in front of
something else. -/
theorem split_hash (cs : List Char) : ∃ digits x, cs = digits ++ x ∧
    (cs.take maxHexDigits).takeWhile isHexDigit = digits ∧ IsHex digits ∧
    digits.length ≤ maxHexDigits ∧ ∀ c ∈ x.head?, HexDigit c → digits.length = maxHexDigits := by
  obtain ⟨digits, x, rfl, hd, -⟩ := split_digits cs
  have hle : digits.length ≤ maxHexDigits := by
    rw [← hd]
    exact (List.takeWhile_prefix _).length_le.trans (List.length_take_le _ _)
  have hhex : ∀ c ∈ digits, isHexDigit c = true := fun c hc => by
    rw [← hd] at hc
    exact List.mem_takeWhile_imp hc
  refine ⟨digits, x, rfl, hd, fun c hc => ?_, hle, fun c hx hc => ?_⟩
  · have := hhex c hc
    rwa [isHexDigit_eq, decide_eq_true_eq] at this
  · by_contra hlt
    obtain ⟨k, hk⟩ : ∃ k, maxHexDigits - digits.length = k + 1 :=
      ⟨maxHexDigits - digits.length - 1, by omega⟩
    cases x with
    | nil => cases hx
    | cons d x =>
      cases hx
      rw [List.take_append, List.take_of_length_le hle, hk, List.take_succ_cons,
        List.takeWhile_append_of_pos hhex, List.takeWhile_cons_of_pos] at hd
      · exact absurd hd (by simp)
      · rw [isHexDigit_eq, decide_eq_true hc]

theorem head?_of_hashRun {x more : List Char} {c : Char} (h : hashRun x = c :: more) :
    c ∈ x.head? := by
  cases x with
  | nil => cases h
  | cons d x =>
    unfold hashRun at h
    rw [List.takeWhile_cons] at h
    split at h
    · cases h
      rfl
    · cases h

/-- The digits are a color, unless name characters go on behind them. -/
theorem scan_append {digits x : List Char}
    (hd : ((digits ++ x).take maxHexDigits).takeWhile isHexDigit = digits) :
    Color.scan (digits ++ x) = match hashRun x with
      | [] =>
        if digits = [] then .ok none
        else (ofHex (String.ofList digits)).map fun color => some (color, x)
      | c :: _ =>
        if digits ≠ [] ∧ isHexDigit c then .error (.length (digits.length + 1))
        else .error (.badDigit c) := by
  unfold Color.scan
  dsimp only [bind, pure, throw, throwThe, MonadExceptOf.throw]
  rw [hd, List.drop_left]
  have hdigits : (if digits = [] then Except.pure none else
        (ofHex (String.ofList digits)).bind fun color => Except.pure (some (color, x))) =
      if digits = [] then .ok none
      else (ofHex (String.ofList digits)).map fun color => some (color, x) := by
    cases ofHex (String.ofList digits) <;> rfl
  cases x with
  | nil => exact hdigits
  | cons c x =>
    by_cases hname : Text.isNameChar c = true
    · rw [hashRun, List.takeWhile_cons_of_pos hname, List.head?_cons]
      dsimp only
      rw [if_pos hname]
      split <;> rfl
    · rw [hashRun, List.takeWhile_cons_of_neg hname]
      exact (if_neg hname).trans hdigits

/-- What a `#` is follows from the name characters behind it. -/
theorem scan_eq (cs : List Char) : Color.scan cs =
    if hashRun cs = [] then .ok none
    else if IsHexRun (hashRun cs) then
      (ofHex (String.ofList (hashRun cs))).map fun color => some (color, cs.drop (hashRun cs).length)
    else .error (hexRunFault (hashRun cs)) := by
  obtain ⟨digits, x, rfl, hd, hhex, hle, hfull⟩ := split_hash cs
  have hrun : hashRun (digits ++ x) = digits ++ hashRun x :=
    List.takeWhile_append_of_pos fun c hc =>
      isNameChar_of_isHexDigit (by rw [isHexDigit_eq, decide_eq_true (hhex c hc)])
  rw [scan_append hd, hrun]
  cases hmore : hashRun x with
  | nil =>
    rw [List.append_nil, List.drop_left]
    dsimp only
    by_cases hrun : IsHexRun digits
    · rw [if_pos hrun]
    · have hbare : bare (String.ofList digits).toList = digits := by
        rw [String.toList_ofList, bare_of_isHex hhex]
      have hfew : digits.length ≤ 9 := hle.trans (by decide)
      have hfault := ofHex_of_not_isHexRun (hbare.symm ▸ hhex) (hbare.symm ▸ hrun)
      rw [hbare] at hfault
      rw [if_neg hrun, hfault, hexRunFault_of_isHex fun c hc => hhex c (List.mem_of_mem_take hc),
        Nat.min_eq_left hfew]
      rfl
  | cons c more =>
    have hne : digits ++ c :: more ≠ [] := by simp
    rw [if_neg hne]
    dsimp only
    by_cases hc : HexDigit c
    · have hlength : digits.length = maxHexDigits := hfull c (head?_of_hashRun hmore) hc
      rw [maxHexDigits] at hlength
      have hdigit : digits ≠ [] ∧ isHexDigit c = true := by
        rw [isHexDigit_eq, decide_eq_true hc]
        exact ⟨List.ne_nil_of_length_eq_add_one hlength, rfl⟩
      have hlong : 9 ≤ (digits ++ c :: more).length := by
        rw [List.length_append, List.length_cons]
        omega
      have hrun : ¬IsHexRun (digits ++ c :: more) := fun h => by
        have := h.1
        omega
      have hnine : IsHex ((digits ++ c :: more).take 9) := by
        rw [List.take_append, List.take_of_length_le (by omega), hlength]
        exact List.forall_mem_append.2 ⟨hhex, List.forall_mem_singleton.2 hc⟩
      rw [if_pos hdigit, if_neg hrun, hexRunFault_of_isHex hnine, Nat.min_eq_right hlong, hlength]
    · have hrun : ¬IsHexRun (digits ++ c :: more) := fun h =>
        hc (h.2 c (List.mem_append_right digits (List.mem_cons_self ..)))
      have hdigit : ¬(digits ≠ [] ∧ isHexDigit c = true) := by
        rw [isHexDigit_eq, decide_eq_false hc]
        exact fun h => nomatch h.2
      rw [if_neg hdigit, if_neg hrun, hexRunFault_of_not_hex hhex hle hc]

/-! ### The case of the letters -/

theorem toLower_eq_hash_iff {c : Char} : c.toLower = '#' ↔ c = '#' := by
  by_cases hc : c.toNat < 128
  · have hall : ∀ n < 128, (Char.ofNat n).toLower = '#' ↔ Char.ofNat n = '#' := by decide
    rw [← Char.ofNat_toNat c]
    exact hall c.toNat hc
  · rw [toLower_eq_self (Nat.not_lt.1 hc)]

theorem map_toLower_bare (cs : List Char) :
    (bare cs).map Char.toLower = bare (cs.map Char.toLower) := by
  cases cs with
  | nil => rfl
  | cons c cs =>
    by_cases hc : c = '#'
    · rw [hc]
      rfl
    · have hlower : c.toLower ≠ '#' := fun h => hc (toLower_eq_hash_iff.1 h)
      simp [bare, hc, hlower]

end Color

/-! ### Both readers -/

/-- A `#` in code is looked at by itself, unless another one follows. -/
theorem look_hash {cs : List Char} (h : cs.head? ≠ some '#') :
    look .code ('#' :: cs) = lookAtHash cs := by
  cases cs with
  | nil => rfl
  | cons c cs =>
    have hc : c ≠ '#' := fun hc => h (congrArg some hc)
    simp [look, hc]

/-- What stands in the text of a line for a `#` in code. -/
theorem scan_hash (bound : String → Option String) {cs : List Char} (h : cs.head? ≠ some '#') :
    scan bound .code ('#' :: cs) = match Color.scan cs with
      | .ok none => prepend ['#'] (scan bound .code cs)
      | .ok (some (color, rest)) => prepend color.toGlsl.toList (scan bound .code rest)
      | .error fault => .error (.color fault) := by
  rw [scan_look, look_hash h, lookAtHash]
  rcases Color.scan cs with fault | _ | ⟨color, rest⟩ <;> rfl

/-- How a `#` in a line is read, by the name characters behind it. -/
structure ReadsHash (cs : List Char) : Prop where
  /-- It is left alone exactly if there are none. -/
  untouched : Color.scan cs = .ok none ↔ hashRun cs = []
  /-- It is accepted exactly if they are six or eight digits. -/
  accepted : (∃ found, Color.scan cs = .ok (some found)) ↔ IsHexRun (hashRun cs)
  /-- An accepted color is what they are read as alone, and nothing else is consumed. -/
  consumed : ∀ color rest, Color.scan cs = .ok (some (color, rest)) →
    Color.ofHex (String.ofList (hashRun cs)) = .ok color ∧ hashRun cs ++ rest = cs
  /-- Other name characters are refused. -/
  refused : hashRun cs ≠ [] → ¬IsHexRun (hashRun cs) →
    Color.scan cs = .error (hexRunFault (hashRun cs))
  /-- In the text of the line the vector stands for an accepted color. -/
  replaced : ∀ bound, cs.head? ≠ some '#' → scan bound .code ('#' :: cs) =
    match Color.scan cs with
    | .ok none => prepend ['#'] (scan bound .code cs)
    | .ok (some (color, rest)) => prepend color.toGlsl.toList (scan bound .code rest)
    | .error fault => .error (.color fault)

/-- How a text is read that is all of a color. -/
structure ReadsText (s : String) : Prop where
  /-- It is the color that its digits are written for. -/
  written : ∀ color, Color.ofHex s = .ok color ↔ Color.Written (Color.bare s.toList) color
  /-- There is one exactly if the text is six or eight digits. -/
  accepted : (∃ color, Color.ofHex s = .ok color) ↔ IsHexRun (Color.bare s.toList)
  /-- It is the same for either case of the letters. -/
  caseless : ∀ t color, t.toList.map Char.toLower = s.toList.map Char.toLower →
    Color.ofHex s = .ok color → Color.ofHex t = .ok color

theorem readsHash (cs : List Char) : ReadsHash cs := by
  have hscan := Color.scan_eq cs
  have hreplaced (bound : String → Option String) (h : cs.head? ≠ some '#') := scan_hash bound h
  by_cases hnil : hashRun cs = []
  · have hrun : ¬IsHexRun (hashRun cs) := by
      rw [hnil]
      exact fun h => by simpa using h.1
    rw [if_pos hnil] at hscan
    have hnone : ∀ found, Color.scan cs ≠ .ok (some found) := by simp [hscan]
    exact {
      untouched := iff_of_true hscan hnil
      accepted := iff_of_false (fun ⟨found, h⟩ => hnone found h) hrun
      consumed := fun _ _ h => absurd h (hnone _)
      refused := fun h => absurd hnil h
      replaced := hreplaced }
  rw [if_neg hnil] at hscan
  by_cases hrun : IsHexRun (hashRun cs)
  · obtain ⟨color, hwritten⟩ := Color.exists_written_iff.2 hrun
    have hread : Color.ofHex (String.ofList (hashRun cs)) = .ok color := by
      rw [Color.ofHex_eq_ok_iff, String.toList_ofList, Color.bare_of_isHex hrun.2]
      exact hwritten
    rw [if_pos hrun, hread] at hscan
    have hsome : Color.scan cs ≠ .ok none := by simp [hscan, Except.map]
    refine {
      untouched := iff_of_false hsome hnil
      accepted := iff_of_true ⟨_, hscan⟩ hrun
      consumed := fun color' rest h => ?_
      refused := fun _ h => absurd hrun h
      replaced := hreplaced }
    rw [hscan] at h
    cases h
    exact ⟨hread, List.prefix_iff_eq_append.1 (List.takeWhile_prefix _)⟩
  · rw [if_neg hrun] at hscan
    have hnone : ∀ found, Color.scan cs ≠ .ok found := by simp [hscan]
    exact {
      untouched := iff_of_false (hnone none) hnil
      accepted := iff_of_false (fun ⟨found, h⟩ => hnone _ h) hrun
      consumed := fun _ _ h => absurd h (hnone _)
      refused := fun _ _ => hscan
      replaced := hreplaced }

/-- **A color is six or eight hexadecimal digits, to both of its readers.** A `#` in a
line is left as it is if no name character follows it. If those that follow are six or
eight digits, they are consumed, and the vector of the color that they are read as
alone takes their place. All others are refused, with the first that is no digit if it
is one of the first nine, else with their number up to nine. A text is read as a color
if it is six or eight digits behind at most one `#`; each pair of them, out of 255,
is a channel, the alpha is one if it is not written, and the case of a letter does not
count. -/
theorem colors_are_hex_runs : (∀ cs, ReadsHash cs) ∧ ∀ s, ReadsText s := by
  refine ⟨readsHash, fun s => ⟨fun color => Color.ofHex_eq_ok_iff, ?_, ?_⟩⟩
  · simp only [Color.ofHex_eq_ok_iff]
    exact Color.exists_written_iff
  · intro t color hcase h
    rw [Color.ofHex_eq_ok_iff] at h ⊢
    refine h.of_toLower ?_
    rw [Color.map_toLower_bare, hcase, Color.map_toLower_bare]

/-- `3366B2` in a line and as a text, and runs that are too long or no digits. -/
theorem colors_read_and_refused :
    (∃ color, Color.scan "3366B2);".toList = .ok (some (color, ");".toList)) ∧
      Color.ofHex "3366B2" = .ok color ∧ Color.ofHex "3366b2" = .ok color) ∧
      Color.scan "3366B2ffx".toList = .error (.badDigit 'x') ∧
      Color.scan "3366B2ff3x".toList = .error (.length 9) ∧
      Color.scan "version".toList = .error (.badDigit 'v') ∧
      Color.scan " 3366B2".toList = .ok none := by
  obtain ⟨hash, text⟩ := colors_are_hex_runs
  have hrefused {cs : List Char} (hne : hashRun cs ≠ []) (hrun : ¬IsHexRun (hashRun cs)) :=
    (hash cs).refused hne hrun
  refine ⟨?_, ?_, ?_, ?_, (hash _).untouched.2 (by decide)⟩
  · obtain ⟨⟨color, rest⟩, hfound⟩ := (hash "3366B2);".toList).accepted.2 (by decide)
    obtain ⟨hread, hrest⟩ := (hash _).consumed color rest hfound
    have hrun : hashRun "3366B2);".toList = "3366B2".toList := by decide
    have hall : "3366B2);".toList = "3366B2".toList ++ ");".toList := by decide
    rw [hrun, hall, List.append_cancel_left_eq] at hrest
    rw [hrun] at hread
    have hlower := (text "3366B2").caseless "3366b2" color (by decide) hread
    exact ⟨color, hrest ▸ hfound, hread, hlower⟩
  · exact (hrefused (by decide) (by decide)).trans (congrArg _ (by decide))
  · exact (hrefused (by decide) (by decide)).trans (congrArg _ (by decide))
  · exact (hrefused (by decide) (by decide)).trans (congrArg _ (by decide))

end AudioShader
