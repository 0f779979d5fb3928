/-
# Byte positions in a text

A text is kept in UTF-8. Who goes over it byte by byte has positions that may lie behind
its end, where there is no byte to read, or inside a character, where it cannot be cut: a
cut is refused unless both its ends stand between characters, in order. Only the
characters above ASCII take more than one byte, and none of these bytes is an ASCII
character; so a search for ASCII characters finds among the bytes what it finds among the
characters.

Key definitions: `Slip`, `Text.bytes`, `Text.byteAt`, `Text.cut`, `Text.extent`.
Key theorems: `Text.cut_eq_ok_iff`, `Text.extent_eq`, `Text.bytes_cons_cases`,
`Text.IsAscii.takeWhile_bytes`.
-/
import Mathlib.Data.List.TakeWhile
import Mathlib.Data.String.Basic
import AudioShader.Proofs.Text.Letters
import AudioShader.Text.Search

namespace AudioShader

/-- Why a reading by byte positions ends: a byte is read that is not there, a text is cut
where it cannot be cut, or the reading finds a fault in the text. -/
inductive Slip (ε : Type) where
  | badRead (i : Nat)
  | badCut (start stop : Nat)
  | fault (error : ε)
  deriving DecidableEq

/-- The same end with the fault told in other words. -/
def Slip.map {ε ε' : Type} (f : ε → ε') : Slip ε → Slip ε'
  | .badRead i => .badRead i
  | .badCut start stop => .badCut start stop
  | .fault error => .fault (f error)

namespace Text

variable {ε : Type} {front mid back cs : List Char} {c : Char} {p : Char → Bool}

/-- The bytes of a text, each as the character with its number. -/
def bytes (cs : List Char) : List Char :=
  (String.ofList cs).toByteArray.data.toList.map Char.ofUInt8

/-- The number of bytes of a text. -/
def size (cs : List Char) : Nat := (String.ofList cs).utf8ByteSize

/-- The byte at a position, which has to be in the text. -/
def byteAt (cs : List Char) (i : Nat) : Except (Slip ε) Char :=
  match (bytes cs)[i]? with
  | some b => .ok b
  | none => .error (.badRead i)

/-- A position between two characters of a text, or at one of its ends. -/
def IsBoundary (cs : List Char) (i : Nat) : Prop := String.Pos.Raw.IsValid (String.ofList cs) ⟨i⟩

instance (cs : List Char) (i : Nat) : Decidable (IsBoundary cs i) :=
  inferInstanceAs (Decidable (String.Pos.Raw.IsValid (String.ofList cs) ⟨i⟩))

/-- The part of a text between two positions, which have to be in order, in the text and
between characters. -/
def cut (cs : List Char) (start stop : Nat) : Except (Slip ε) (List Char) :=
  if start ≤ stop ∧ stop ≤ size cs ∧ IsBoundary cs start ∧ IsBoundary cs stop then
    .ok (String.Pos.Raw.extract (String.ofList cs) ⟨start⟩ ⟨stop⟩).toList
  else .error (.badCut start stop)

/-! ### Sizes -/

theorem utf8Len_eq_size (cs : List Char) : String.utf8Len cs = size cs :=
  (String.utf8ByteSize_ofList cs).symm

@[simp] theorem size_nil : size [] = 0 := rfl

@[simp] theorem size_append (front back : List Char) :
    size (front ++ back) = size front + size back := by
  simp only [← utf8Len_eq_size, String.utf8Len_append]

theorem size_sub (front mid rest : List Char) :
    size (front ++ (mid ++ rest)) - size rest = size (front ++ mid) := by
  rw [← List.append_assoc, size_append _ rest, Nat.add_sub_cancel]

theorem size_cons (c : Char) (cs : List Char) : size (c :: cs) = c.utf8Size + size cs := by
  simp only [← utf8Len_eq_size, String.utf8Len_cons, Nat.add_comm]

theorem size_eq_zero : size cs = 0 ↔ cs = [] := by
  rw [← utf8Len_eq_size, String.utf8Len_eq_zero]

theorem bytes_eq_map (cs : List Char) :
    bytes cs = (cs.flatMap String.utf8EncodeChar).map Char.ofUInt8 := by
  rw [bytes, String.toByteArray_ofList, List.utf8Encode, List.toList_data_toByteArray]

@[simp] theorem bytes_append (front back : List Char) :
    bytes (front ++ back) = bytes front ++ bytes back := by
  simp only [bytes_eq_map, List.flatMap_append, List.map_append]

@[simp] theorem length_bytes (cs : List Char) : (bytes cs).length = size cs := by
  induction cs with
  | nil => rfl
  | cons c cs ih =>
    rw [size_cons, ← ih, bytes_eq_map, bytes_eq_map]
    simp

/-- Behind the bytes of the front stand those of the back. -/
theorem drop_bytes (front back : List Char) :
    (bytes (front ++ back)).drop (size front) = bytes back := by
  rw [bytes_append, ← length_bytes, List.drop_left]

theorem drop_bytes_add (front back : List Char) (n : Nat) :
    (bytes (front ++ back)).drop (size front + n) = (bytes back).drop n := by
  rw [← List.drop_drop, drop_bytes]

/-! ### Cuts -/

theorem isBoundary_iff {i : Nat} :
    IsBoundary cs i ↔ ∃ front back, cs = front ++ back ∧ i = size front := by
  rw [IsBoundary, String.Pos.Raw.isValid_ofList]
  constructor
  · rintro ⟨n, hn⟩
    exact ⟨cs.take n, cs.drop n, (List.take_append_drop n cs).symm, hn⟩
  · rintro ⟨front, back, rfl, rfl⟩
    exact ⟨front.length, by rw [List.take_left]; rfl⟩

/-- A text is cut between any two of its parts. -/
theorem cut_append (front mid back : List Char) :
    cut (front ++ mid ++ back) (size front) (size (front ++ mid)) =
      (.ok mid : Except (Slip ε) _) := by
  have hstart : IsBoundary (front ++ mid ++ back) (size front) :=
    isBoundary_iff.2 ⟨front, mid ++ back, List.append_assoc .., rfl⟩
  have hstop : IsBoundary (front ++ mid ++ back) (size (front ++ mid)) :=
    isBoundary_iff.2 ⟨front ++ mid, back, rfl, rfl⟩
  have hvalid := String.extract_of_valid front mid back
  rw [utf8Len_eq_size, utf8Len_eq_size, ← size_append] at hvalid
  have hle : size (front ++ mid) ≤ size (front ++ mid ++ back) := by simp
  rw [cut, if_pos ⟨by simp, hle, hstart, hstop⟩, hvalid, String.toList_ofList]

theorem cut_front (front back : List Char) :
    cut (front ++ back) 0 (size front) = (.ok front : Except (Slip ε) _) :=
  cut_append [] front back

theorem cut_rest (front back : List Char) :
    cut (front ++ back) (size front) (size (front ++ back)) = (.ok back : Except (Slip ε) _) := by
  have hcut := cut_append (ε := ε) front back []
  rwa [List.append_nil] at hcut

theorem cut_append_bind {α : Type} (front mid back : List Char)
    (f : List Char → Except (Slip ε) α) :
    (cut (front ++ mid ++ back) (size front) (size (front ++ mid)) >>= f) = f mid := by
  rw [cut_append]
  rfl

/-- What a cut gives stands in the text from the one position to the other. -/
theorem cut_eq_ok_iff {start stop : Nat} : cut cs start stop = (.ok mid : Except (Slip ε) _) ↔
    ∃ front back, cs = front ++ mid ++ back ∧ start = size front ∧ stop = size (front ++ mid) := by
  constructor
  · intro h
    have hcut := h
    unfold cut at hcut
    split at hcut
    · next hends =>
      obtain ⟨hle, -, hstart, hstop⟩ := hends
      obtain ⟨front, rest, hfront, rfl⟩ := isBoundary_iff.1 hstart
      obtain ⟨upTo, back, hupTo, rfl⟩ := isBoundary_iff.1 hstop
      -- both positions are ends of a front of the text, the smaller one of the shorter
      obtain ⟨mid', hmid⟩ : front <+: upTo := by
        have hfront : front <+: cs := ⟨rest, hfront.symm⟩
        rcases List.prefix_or_prefix_of_prefix hfront ⟨back, hupTo.symm⟩ with hpre | hpre
        · exact hpre
        · obtain ⟨more, rfl⟩ := hpre
          have hmore : more = [] := by
            rw [← size_eq_zero]
            rw [size_append] at hle
            omega
          exact ⟨[], by simp [hmore]⟩
      subst hmid
      rw [hupTo, cut_append] at h
      cases h
      exact ⟨front, back, hupTo, rfl, rfl⟩
    · cases hcut
  · rintro ⟨front, back, rfl, rfl, rfl⟩
    exact cut_append front mid back

example : (cut ['é'] 0 1 : Except (Slip Unit) _) = .error (.badCut 0 1) := by decide

/-- What is cut behind the first character is shorter than the text. -/
theorem length_lt_of_cut {start stop : Nat} (h : cut cs start stop = (.ok mid : Except (Slip ε) _))
    (hstart : 0 < start) : mid.length < cs.length := by
  obtain ⟨front, back, rfl, rfl, -⟩ := cut_eq_ok_iff.1 h
  have hfront : front ≠ [] := fun hnil => by simp [hnil] at hstart
  have hpos := List.length_pos_iff.2 hfront
  simp only [List.length_append]
  omega

/-! ### Runs -/

theorem drop_bytes_of_le {i : Nat} (h : size cs ≤ i) : (bytes cs).drop i = [] :=
  List.drop_of_length_le (by rwa [length_bytes])

/-- Where there is a byte, it is read, and the one behind it is the next one. -/
theorem byteAt_of_drop {i : Nat} {b : Char} {bs : List Char} (h : (bytes cs).drop i = b :: bs) :
    i < size cs ∧ byteAt cs i = (.ok b : Except (Slip ε) Char) ∧
      (bytes cs)[i + 1]? = bs.head? := by
  refine ⟨?_, ?_, ?_⟩
  · by_contra hle
    rw [drop_bytes_of_le (Nat.not_lt.1 hle)] at h
    cases h
  · rw [byteAt, ← List.head?_drop, h]
    rfl
  · rw [← List.head?_drop, ← List.drop_drop, h]
    rfl

/-- How far a run goes on from position `i`. Whether it does, and with what, `next` tells by
what the run has found, the byte at its position and the one behind it. -/
def extent {σ : Type} (next : σ → Char → Option Char → Option σ) (cs : List Char) (s : σ)
    (i : Nat) : Except (Slip ε) Nat :=
  if _h : i < size cs then do
    let b ← byteAt cs i
    match next s b (bytes cs)[i + 1]? with
    | some s' => extent next cs s' (i + 1)
    | none => .ok i
  else .ok i
termination_by size cs - i

/-- What a run goes on over. -/
def runOf {σ : Type} (next : σ → Char → Option Char → Option σ) : σ → List Char → List Char
  | _, [] => []
  | s, c :: cs =>
    match next s c cs.head? with
    | some s' => c :: runOf next s' cs
    | none => []

/-- A run reads no byte behind the text, and ends behind what it goes on over. -/
theorem extent_eq {σ : Type} (next : σ → Char → Option Char → Option σ) (cs : List Char) (s : σ)
    (i : Nat) : extent next cs s i =
      (.ok (i + (runOf next s ((bytes cs).drop i)).length) : Except (Slip ε) Nat) := by
  rw [extent]
  cases hdrop : (bytes cs).drop i with
  | nil =>
    split
    · next hlt =>
      have hlen := congrArg List.length hdrop
      rw [List.length_drop, length_bytes, List.length_nil] at hlen
      omega
    · rfl
  | cons b bs =>
    obtain ⟨hlt, hbyte, hnext⟩ := byteAt_of_drop (ε := ε) hdrop
    rw [dif_pos hlt, hbyte, hnext, runOf]
    show (match next s b bs.head? with
      | some s' => extent next cs s' (i + 1)
      | none => .ok i) = _
    cases next s b bs.head? with
    | none => rfl
    | some s' =>
      have hrest : (bytes cs).drop (i + 1) = bs := by
        rw [← List.drop_drop, hdrop]
        rfl
      dsimp only
      rw [extent_eq next cs s' (i + 1), hrest, List.length_cons, Nat.add_right_comm, Nat.add_assoc]
termination_by size cs - i

/-- A run of one class of characters. -/
theorem runOf_takeWhile (p : Char → Bool) (cs : List Char) :
    runOf (fun _ c _ => if p c then some () else none) () cs = cs.takeWhile p := by
  induction cs with
  | nil => rfl
  | cons c cs ih =>
    rw [runOf, List.takeWhile_cons]
    cases p c with
    | false => rfl
    | true => exact congrArg (c :: ·) ih

/-! ### Characters of one byte, and of several -/

theorem toNat_ofUInt8 (b : UInt8) : (Char.ofUInt8 b).toNat = b.toNat := rfl

/-- A character of ASCII is its own byte. -/
theorem bytes_cons_of_lt (h : c.toNat < 128) (cs : List Char) :
    bytes (c :: cs) = c :: bytes cs := by
  have hval : c.val.toNat ≤ 127 := Nat.le_of_lt_succ h
  have hbyte : Char.ofUInt8 (UInt8.ofNat c.val.toNat) = c := by
    apply Char.ext
    apply UInt32.toNat_inj.1
    show (UInt8.ofNat c.val.toNat).toNat = c.val.toNat
    rw [UInt8.toNat_ofNat']
    omega
  rw [bytes_eq_map, bytes_eq_map, List.flatMap_cons, List.map_append, String.utf8EncodeChar]
  simp only [hval, if_true, List.map_cons, List.map_nil, hbyte, List.singleton_append]

/-- A character above ASCII has no character of ASCII among its bytes. -/
theorem le_of_mem_bytes {b : Char} (h : 128 ≤ c.toNat) (hb : b ∈ bytes [c]) : 128 ≤ b.toNat := by
  have hval : ¬c.val.toNat ≤ 127 := Nat.not_le.2 h
  have hbyte : ∀ n : Nat, 128 ≤ n → n < 256 → 128 ≤ (UInt8.ofNat n).toNat := by
    intro n hle hlt
    rw [UInt8.toNat_ofNat']
    omega
  rw [bytes_eq_map] at hb
  simp only [List.flatMap_cons, List.flatMap_nil, List.append_nil, List.mem_map] at hb
  obtain ⟨x, hx, rfl⟩ := hb
  rw [toNat_ofUInt8]
  unfold String.utf8EncodeChar at hx
  simp only [hval, if_false] at hx
  -- two, three or four bytes, each a remainder on top of its marker
  split at hx
  · simp only [List.mem_cons, List.not_mem_nil, or_false] at hx
    rcases hx with rfl | rfl <;> exact hbyte _ (by omega) (by omega)
  · split at hx
    · simp only [List.mem_cons, List.not_mem_nil, or_false] at hx
      rcases hx with rfl | rfl | rfl <;> exact hbyte _ (by omega) (by omega)
    · simp only [List.mem_cons, List.not_mem_nil, or_false] at hx
      rcases hx with rfl | rfl | rfl | rfl <;> exact hbyte _ (by omega) (by omega)

/-- A character of ASCII takes one byte. -/
theorem size_concat (hc : c.toNat < 128) (front : List Char) :
    size (front ++ [c]) = size front + 1 := by
  have hone := congrArg List.length (bytes_cons_of_lt hc [])
  rw [length_bytes] at hone
  rw [size_append, hone]
  rfl

/-- No byte is a character of ASCII. -/
def Wide (bs : List Char) : Prop := ∀ b ∈ bs, 128 ≤ b.toNat

theorem wide_singleton (hc : 128 ≤ c.toNat) : Wide [c] := by
  intro b hb
  rwa [List.mem_singleton.1 hb]

/-- A character is one byte of ASCII, or at least one byte, none of them of ASCII. -/
theorem bytes_cons_cases (c : Char) (cs : List Char) :
    (c.toNat < 128 ∧ bytes (c :: cs) = c :: bytes cs) ∨
      ∃ b bs, 128 ≤ c.toNat ∧ Wide (b :: bs) ∧ bytes [c] = b :: bs ∧
        bytes (c :: cs) = b :: (bs ++ bytes cs) := by
  by_cases hc : c.toNat < 128
  · exact .inl ⟨hc, bytes_cons_of_lt hc cs⟩
  · have hle : 128 ≤ c.toNat := Nat.not_lt.1 hc
    have hne : bytes [c] ≠ [] := by
      intro hnil
      have hlen := congrArg List.length hnil
      rw [length_bytes] at hlen
      simp [size_eq_zero] at hlen
    obtain ⟨b, bs, hbytes⟩ := List.exists_cons_of_ne_nil hne
    refine .inr ⟨b, bs, hle, ?_, hbytes, ?_⟩
    · intro x hx
      rw [← hbytes] at hx
      exact le_of_mem_bytes hle hx
    · rw [← List.singleton_append, bytes_append, hbytes, List.cons_append]

/-- A class of characters within ASCII. -/
def IsAscii (p : Char → Bool) : Prop := ∀ ⦃c : Char⦄, p c = true → c.toNat < 128

namespace IsAscii

variable (hp : IsAscii p)
include hp

theorem eq_false (hc : 128 ≤ c.toNat) : p c = false := by
  rw [← Bool.not_eq_true]
  exact fun h => absurd (hp h) (Nat.not_lt.2 hc)

theorem eq_false_of_wide {b : Char} {bs : List Char} (h : Wide (b :: bs)) : p b = false :=
  hp.eq_false (h b (List.mem_cons_self ..))

/-- The run of a class within ASCII is the same among the bytes. -/
theorem takeWhile_bytes (cs : List Char) : (bytes cs).takeWhile p = cs.takeWhile p := by
  induction cs with
  | nil => rfl
  | cons c cs ih =>
    rcases bytes_cons_cases c cs with ⟨-, hbytes⟩ | ⟨b, bs, hc, hwide, -, hbytes⟩
    · rw [hbytes, List.takeWhile_cons, List.takeWhile_cons, ih]
    · rw [hbytes, List.takeWhile_cons, List.takeWhile_cons, hp.eq_false hc,
        hp.eq_false_of_wide hwide]
      rfl

theorem takeWhile_take_bytes (n : Nat) (cs : List Char) :
    ((bytes cs).take n).takeWhile p = (cs.take n).takeWhile p := by
  rw [← List.take_takeWhile, ← List.take_takeWhile, hp.takeWhile_bytes]

/-- The first byte, if it is in a class within ASCII, is the first character. -/
theorem head?_bytes (cs : List Char) : (bytes cs).head?.filter p = cs.head?.filter p := by
  cases cs with
  | nil => rfl
  | cons c cs =>
    rcases bytes_cons_cases c cs with ⟨-, hbytes⟩ | ⟨b, bs, hc, hwide, -, hbytes⟩
    · rw [hbytes]
      rfl
    · rw [hbytes, List.head?_cons, List.head?_cons, Option.filter_some, Option.filter_some,
        hp.eq_false hc, hp.eq_false_of_wide hwide]
      rfl

/-- Characters of a class within ASCII take one byte each. -/
theorem size_eq_length (h : ∀ c ∈ cs, p c = true) : size cs = cs.length := by
  induction cs with
  | nil => rfl
  | cons c cs ih =>
    have hrest := ih fun x hx => h x (List.mem_cons_of_mem c hx)
    have hbytes := congrArg List.length (bytes_cons_of_lt (hp (h c (List.mem_cons_self ..))) cs)
    rwa [length_bytes, List.length_cons, length_bytes, hrest] at hbytes

theorem size_takeWhile (cs : List Char) : size (cs.takeWhile p) = (cs.takeWhile p).length :=
  hp.size_eq_length fun _ hc => List.mem_takeWhile_imp hc

end IsAscii

/-- A character of ASCII is the first byte if it is the first character. -/
theorem head?_bytes_eq_some_iff {x : Char} (hx : x.toNat < 128) :
    (bytes cs).head? = some x ↔ cs.head? = some x := by
  have hp : IsAscii (· == x) := by
    intro c hc
    rwa [eq_of_beq hc]
  have hfilter : ∀ o : Option Char, o.filter (· == x) = some x ↔ o = some x := by
    intro o
    simp [Option.filter_eq_some_iff]
  rw [← hfilter, hp.head?_bytes, hfilter]

theorem isAscii_isNameChar : IsAscii isNameChar := by
  intro c h
  rw [isNameChar_iff] at h
  rcases h with h | h | h | rfl
  · omega
  · omega
  · omega
  · decide

theorem isAscii_isAsciiBlank : IsAscii isAsciiBlank := by
  intro c h
  simp only [isAsciiBlank, Bool.or_eq_true, beq_iff_eq] at h
  rcases h with (((rfl | rfl) | rfl) | rfl) | rfl <;> decide

end Text
end AudioShader
