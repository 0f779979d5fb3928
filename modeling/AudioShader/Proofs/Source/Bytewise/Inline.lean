/-
# Lines scanned byte by byte

A line can be scanned with no more than a position in its bytes and the position up to
which it has been copied. The position moves by bytes, so that it may lie inside a
character or behind the line: the byte at it is only read if it is in the line. What is
copied, a color, the name of a bind and its default are cut out of the line between two
positions.

Key definitions: `Bytewise.colorAt`, `Bytewise.bindAt`, `Bytewise.findAt`, `Bytewise.scanFrom`.
Key theorems: `Bytewise.scanFrom_find`, `Bytewise.colorAt_eq`, `Bytewise.bindAt_eq`.
-/
import AudioShader.Proofs.Source.Defaults
import AudioShader.Proofs.Source.Inlining
import AudioShader.Proofs.Text.Bytes

namespace AudioShader
namespace Bytewise

open Text (bytes size cut)

/-! ### Colors and binds -/

/-- A color goes on over digits while there is `room` for one more. -/
def overDigits (room : Nat) (b : Char) (_ : Option Char) : Option Nat :=
  match room with
  | 0 => none
  | room + 1 => if isHexDigit b then some room else none

/-- Reads a color behind the `#` at `i`: the color and the position behind it. -/
def colorAt (line : List Char) (i : Nat) : Except (Slip LineFault) (Option (Color × Nat)) := do
  let stop ← Text.extent overDigits line maxHexDigits (i + 1)
  match (bytes line)[stop]?.filter Text.isNameChar with
  | some c =>
    throw (.fault (.color
      (if i + 1 < stop ∧ isHexDigit c then .length (stop - (i + 1) + 1) else .badDigit c)))
  | none =>
    if stop = i + 1 then return none
    else
      let text ← cut line (i + 1) stop
      let color ← (Color.ofHex (String.ofList text)).mapError fun fault => .fault (.color fault)
      return some (color, stop)

/-- A bind: its name, its default and the position behind it. -/
structure BindAt where
  name : String
  fallback : Option (List Char)
  stop : Nat

/-- A name goes on over the characters of names. -/
def overName (_ : Unit) (b : Char) (_ : Option Char) : Option Unit :=
  if Text.isNameChar b then some () else none

/-- A default goes on over what does not end it, `depth` brackets deep. -/
def overDefault (depth : Nat) (b : Char) (_ : Option Char) : Option Nat :=
  if b = '(' ∨ b = '[' then some (depth + 1)
  else if b = ')' ∨ b = ']' then if depth = 0 then none else some (depth - 1)
  else if b = '\n' ∨ b = '\r' then none
  else if depth = 0 ∧ (b = ';' ∨ b = ',' ∨ Text.isAsciiBlank b) then none
  else some depth

/-- Reads the default of a bind behind the name that ends at `i`: the default and the
position behind it. An empty default is none. -/
def fallbackAt (line : List Char) (i : Nat) :
    Except (Slip LineFault) (Option (List Char) × Nat) :=
  if (bytes line)[i]? = some ':' then do
    let stop ← Text.extent overDefault line 0 (i + 1)
    if i + 1 < stop then
      let text ← cut line (i + 1) stop
      return (some text, stop)
    else return (none, i)
  else return (none, i)

/-- Reads a bind behind the `@` at `i`. -/
def bindAt (line : List Char) (i : Nat) : Except (Slip LineFault) (Option BindAt) :=
  match (bytes line)[i + 1]?.filter Text.isNameStart with
  | none => .ok none
  | some _ => do
    let stop ← Text.extent overName line () (i + 1)
    let name ← cut line (i + 1) stop
    let (fallback, behind) ← fallbackAt line stop
    return some ⟨String.ofList name, fallback, behind⟩

theorem runOf_overDigits : ∀ (room : Nat) (cs : List Char),
    Text.runOf overDigits room cs = (cs.take room).takeWhile isHexDigit
  | 0, [] => rfl
  | _ + 1, [] => rfl
  | 0, _ :: _ => rfl
  | room + 1, c :: cs => by
    rw [Text.runOf, overDigits, List.take_succ_cons, List.takeWhile_cons]
    cases isHexDigit c with
    | false => rfl
    | true => exact congrArg (c :: ·) (runOf_overDigits room cs)

theorem runOf_overName (cs : List Char) :
    Text.runOf overName () cs = cs.takeWhile Text.isNameChar :=
  Text.runOf_takeWhile Text.isNameChar cs

theorem runOf_overDefault : ∀ (depth : Nat) (cs : List Char),
    Text.runOf overDefault depth cs = bindDefault depth cs
  | _, [] => rfl
  | depth, c :: cs => by
    rw [Text.runOf, bindDefault_cons]
    by_cases hopen : c = '(' ∨ c = '['
    · simp only [overDefault, if_pos hopen]
      exact congrArg (c :: ·) (runOf_overDefault (depth + 1) cs)
    by_cases hclose : c = ')' ∨ c = ']'
    · simp only [overDefault, if_neg hopen, if_pos hclose]
      cases depth with
      | zero => rfl
      | succ depth => exact congrArg (c :: ·) (runOf_overDefault depth cs)
    by_cases hbreak : c = '\n' ∨ c = '\r'
    · simp only [overDefault, if_neg hopen, if_neg hclose, if_pos hbreak]
    by_cases hends : depth = 0 ∧ (c = ';' ∨ c = ',' ∨ Text.isAsciiBlank c)
    · simp only [overDefault, if_neg hopen, if_neg hclose, if_neg hbreak, if_pos hends]
    · simp only [overDefault, if_neg hopen, if_neg hclose, if_neg hbreak, if_neg hends]
      exact congrArg (c :: ·) (runOf_overDefault depth cs)

/-- A color reaches over its digits. -/
theorem colorAt_digits {line digits : List Char} {i : Nat}
    (h : (((bytes line).drop (i + 1)).take maxHexDigits).takeWhile isHexDigit = digits) :
    colorAt line i =
      match ((bytes line).drop (i + 1 + digits.length)).head?.filter Text.isNameChar with
      | some c =>
        .error (.fault (.color
          (if digits ≠ [] ∧ isHexDigit c then .length (digits.length + 1) else .badDigit c)))
      | none =>
        if digits = [] then .ok none
        else do
          let text ← cut line (i + 1) (i + 1 + digits.length)
          let color ← (Color.ofHex (String.ofList text)).mapError fun fault => .fault (.color fault)
          return some (color, i + 1 + digits.length) := by
  have hlt : i + 1 < i + 1 + digits.length ↔ digits ≠ [] := by
    rw [← List.length_pos_iff]
    omega
  have heq : i + 1 + digits.length = i + 1 ↔ digits = [] := by
    rw [← List.length_eq_zero_iff]
    omega
  have hlen : i + 1 + digits.length - (i + 1) = digits.length := Nat.add_sub_cancel_left ..
  unfold colorAt
  rw [Text.extent_eq, runOf_overDigits, h, List.head?_drop]
  show (match (bytes line)[i + 1 + digits.length]?.filter Text.isNameChar with
    | some c => _
    | none => _) = _
  cases (bytes line)[i + 1 + digits.length]?.filter Text.isNameChar with
  | some c =>
    simp only [hlen, hlt]
    rfl
  | none =>
    simp only [heq]
    rfl

/-- A default reaches as far as it is read. -/
theorem fallbackAt_default (line : List Char) (i : Nat) : fallbackAt line i =
    if (bytes line)[i]? = some ':' then
      let stop := i + 1 + (bindDefault 0 ((bytes line).drop (i + 1))).length
      if i + 1 < stop then do
        let text ← cut line (i + 1) stop
        return (some text, stop)
      else return (none, i)
    else return (none, i) := by
  unfold fallbackAt
  rw [Text.extent_eq, runOf_overDefault]
  rfl

/-- A bind reaches over its name and its default. -/
theorem bindAt_name (line : List Char) (i : Nat) : bindAt line i =
    match ((bytes line).drop (i + 1)).head?.filter Text.isNameStart with
    | none => .ok none
    | some _ => do
      let stop := i + 1 + (((bytes line).drop (i + 1)).takeWhile Text.isNameChar).length
      let name ← cut line (i + 1) stop
      let (fallback, behind) ← fallbackAt line stop
      return some ⟨String.ofList name, fallback, behind⟩ := by
  unfold bindAt
  rw [Text.extent_eq, runOf_overName, List.head?_drop]
  rfl

/-! ### Scanning -/

/-- What stands at a position of a line. -/
inductive Finding where
  /-- Nothing is replaced from here on. -/
  | finish
  /-- What stands up to `stop` is copied, and another zone begins there. -/
  | pass (zone : Zone) (stop : Nat)
  | color (color : Color) (stop : Nat)
  | bind (b : BindAt)

/-- The position behind what is found. -/
def Finding.stop? : Finding → Option Nat
  | .finish => none
  | .pass _ stop => some stop
  | .color _ stop => some stop
  | .bind b => some b.stop

/-- What a `#` at `i` is that stands in code. -/
def findColor (line : List Char) (i : Nat) : Except (Slip LineFault) Finding :=
  (colorAt line i).map fun
    | some (color, stop) => .color color stop
    | none => .pass .code (i + 1)

/-- What an `@` at `i` is that stands in code. -/
def findBind (line : List Char) (i : Nat) : Except (Slip LineFault) Finding :=
  (bindAt line i).map fun
    | some b => .bind b
    | none => .pass .code (i + 1)

/-- What stands at position `i`, told by the byte `b` there and the one behind it. Unless
`substitute`, there are neither colors nor binds; the `#` at `own` is no color either. -/
def findByte (line : List Char) (substitute : Bool) (own : Option Nat) (zone : Zone) (i : Nat)
    (b : Char) (behind : Option Char) : Except (Slip LineFault) Finding :=
  match zone with
  | .comment =>
    if b = '*' ∧ behind = some '/' then .ok (.pass .code (i + 2))
    else .ok (.pass .comment (i + 1))
  | .text =>
    if b = '\\' then .ok (.pass .text (i + 2))
    else if b = '"' then .ok (.pass .code (i + 1))
    else .ok (.pass .text (i + 1))
  | .code =>
    if b = '/' ∧ behind = some '/' then .ok .finish
    else if b = '/' ∧ behind = some '*' then .ok (.pass .comment (i + 2))
    else if b = '"' then .ok (.pass .text (i + 1))
    else if b = '#' ∧ substitute ∧ own ≠ some i then
      if behind = some '#' then .ok (.pass .code (i + 2)) else findColor line i
    else if b = '@' ∧ substitute then findBind line i
    else .ok (.pass .code (i + 1))

/-- What stands at position `i`: nothing, if that is behind the line. -/
def findAt (line : List Char) (substitute : Bool) (own : Option Nat) (zone : Zone) (i : Nat) :
    Except (Slip LineFault) Finding :=
  if i < size line then do
    let b ← Text.byteAt line i
    findByte line substitute own zone i b (bytes line)[i + 1]?
  else .ok .finish

theorem colorAt_lt {line : List Char} {i stop : Nat} {color : Color}
    (h : colorAt line i = .ok (some (color, stop))) : i < stop := by
  rw [colorAt_digits rfl] at h
  split at h
  · cases h
  · split at h
    · cases h
    · obtain ⟨text, -, h⟩ := ok_of_bind h
      obtain ⟨color, -, h⟩ := ok_of_bind h
      cases h
      omega

theorem fallbackAt_bounds {line : List Char} {i stop : Nat} {fallback : Option (List Char)}
    (h : fallbackAt line i = .ok (fallback, stop)) :
    i ≤ stop ∧ ∀ text, fallback = some text → text.length < line.length := by
  rw [fallbackAt_default] at h
  split at h
  · dsimp only at h
    split at h
    · obtain ⟨text, htext, h⟩ := ok_of_bind h
      cases h
      refine ⟨by omega, ?_⟩
      rintro _ ⟨⟩
      exact Text.length_lt_of_cut htext (by omega)
    · cases h
      exact ⟨Nat.le_refl i, nofun⟩
  · cases h
    exact ⟨Nat.le_refl i, nofun⟩

theorem bindAt_bounds {line : List Char} {i : Nat} {b : BindAt} (h : bindAt line i = .ok (some b)) :
    i < b.stop ∧ ∀ text, b.fallback = some text → text.length < line.length := by
  rw [bindAt_name] at h
  split at h
  · cases h
  · obtain ⟨name, -, h⟩ := ok_of_bind h
    obtain ⟨⟨fallback, behind⟩, hbehind, h⟩ := ok_of_bind h
    cases h
    have hbounds := fallbackAt_bounds hbehind
    exact ⟨by dsimp only; omega, hbounds.2⟩

theorem findColor_lt {line : List Char} {i stop : Nat} {f : Finding}
    (h : findColor line i = .ok f) (hstop : f.stop? = some stop) : i < stop := by
  obtain ⟨found, hc, hf⟩ := ok_of_map h
  rcases found with _ | ⟨color, behind⟩
  · cases hf
    cases hstop
    exact Nat.lt_succ_self i
  · cases hf
    cases hstop
    exact colorAt_lt hc

theorem findBind_lt {line : List Char} {i stop : Nat} {f : Finding}
    (h : findBind line i = .ok f) (hstop : f.stop? = some stop) : i < stop := by
  obtain ⟨found, hb, hf⟩ := ok_of_map h
  rcases found with _ | b
  · cases hf
    cases hstop
    exact Nat.lt_succ_self i
  · cases hf
    cases hstop
    exact (bindAt_bounds hb).1

/-- Nothing is found behind the line. -/
theorem findAt_of_le {line : List Char} {i : Nat} (h : size line ≤ i) (substitute : Bool)
    (own : Option Nat) (zone : Zone) : findAt line substitute own zone i = .ok .finish :=
  if_neg (Nat.not_lt.2 h)

/-- In the line, its bytes from the position on tell what is found. -/
theorem findAt_of_drop {line : List Char} {i : Nat} {b : Char} {bs : List Char}
    (h : (bytes line).drop i = b :: bs) (substitute : Bool) (own : Option Nat) (zone : Zone) :
    findAt line substitute own zone i = findByte line substitute own zone i b bs.head? := by
  obtain ⟨hlt, hbyte, hbehind⟩ := Text.byteAt_of_drop (ε := LineFault) h
  rw [findAt, if_pos hlt, hbyte, hbehind]
  rfl

/-- What can be found at a position: the end, one or two bytes to copy, a color or a bind. -/
theorem findAt_cases {line : List Char} {substitute : Bool} {own : Option Nat} {zone : Zone}
    {i : Nat} {f : Finding} (h : findAt line substitute own zone i = .ok f) :
    f = .finish ∨ (∃ zone', f = .pass zone' (i + 1) ∨ f = .pass zone' (i + 2)) ∨
      findColor line i = .ok f ∨ findBind line i = .ok f := by
  cases hdrop : (bytes line).drop i with
  | nil =>
    have hlen := congrArg List.length hdrop
    rw [List.length_drop, Text.length_bytes, List.length_nil] at hlen
    rw [findAt_of_le (by omega)] at h
    cases h
    exact .inl rfl
  | cons b bs =>
    rw [findAt_of_drop hdrop] at h
    unfold findByte at h
    cases zone <;> grind

/-- What is found at a position ends behind it, and is in the line. -/
theorem findAt_lt {line : List Char} {substitute : Bool} {own : Option Nat} {zone : Zone}
    {i stop : Nat} {f : Finding} (h : findAt line substitute own zone i = .ok f)
    (hstop : f.stop? = some stop) : i < size line ∧ i < stop := by
  constructor
  · by_contra hle
    rw [findAt_of_le (Nat.not_lt.1 hle)] at h
    cases h
    cases hstop
  · rcases findAt_cases h with rfl | ⟨zone', rfl | rfl⟩ | hcolor | hbind
    · cases hstop
    · cases hstop
      omega
    · cases hstop
      omega
    · exact findColor_lt hcolor hstop
    · exact findBind_lt hbind hstop

/-- The default of a bind is shorter than the line it stands in. -/
theorem findAt_fallback {line text : List Char} {substitute : Bool} {own : Option Nat} {zone : Zone}
    {i : Nat} {b : BindAt} (h : findAt line substitute own zone i = .ok (.bind b))
    (htext : b.fallback = some text) : text.length < line.length := by
  rcases findAt_cases h with hf | ⟨zone', hf | hf⟩ | hcolor | hbind
  · cases hf
  · cases hf
  · cases hf
  · obtain ⟨found, -, hf⟩ := ok_of_map hcolor
    rcases found with _ | ⟨color, behind⟩ <;> cases hf
  · obtain ⟨found, hb, hf⟩ := ok_of_map hbind
    rcases found with _ | b'
    · cases hf
    · cases hf
      exact (bindAt_bounds hb).2 text htext

/-- Scans a line from position `i` on, where it has been copied up to `copied`. -/
def scanFrom (bound : String → Option String) (line : List Char) (substitute : Bool)
    (own : Option Nat) (zone : Zone) (i copied : Nat) :
    Except (Slip LineFault) (List Char × Bool) :=
  match h : findAt line substitute own zone i with
  | .error slip => .error slip
  | .ok .finish => (cut line copied (size line)).map fun text => (text, zone = .comment)
  | .ok (.pass zone' stop) =>
    have := findAt_lt h rfl
    scanFrom bound line substitute own zone' stop copied
  | .ok (.color color stop) => do
    have := findAt_lt h rfl
    let front ← cut line copied i
    prepend (front ++ color.toGlsl.toList) (scanFrom bound line substitute own .code stop stop)
  | .ok (.bind b) =>
    have := findAt_lt h rfl
    match bound b.name with
    | some text => do
      let front ← cut line copied i
      prepend (front ++ text.toList) (scanFrom bound line substitute own .code b.stop b.stop)
    | none =>
      match hf : b.fallback with
      | none => .error (.fault (.unresolvedBind b.name))
      | some text =>
        have := findAt_fallback h hf
        match scanFrom bound text true none .code 0 0 with
        | .error slip => .error slip
        | .ok (replaced, _) => do
          let front ← cut line copied i
          prepend (front ++ replaced) (scanFrom bound line substitute own .code b.stop b.stop)
termination_by (line.length, size line - i)
decreasing_by all_goals (simp_all [Prod.lex_def]; try omega)

/-- What stands for a bind. -/
def textOf (bound : String → Option String) (b : BindAt) : Except (Slip LineFault) (List Char) :=
  match bound b.name, b.fallback with
  | some text, _ => .ok text.toList
  | none, none => .error (.fault (.unresolvedBind b.name))
  | none, some text => (scanFrom bound text true none .code 0 0).map (·.1)

/-- A scan, by what it finds first. -/
theorem scanFrom_find (bound : String → Option String) (line : List Char) (substitute : Bool)
    (own : Option Nat) (zone : Zone) (i copied : Nat) :
    scanFrom bound line substitute own zone i copied =
      match findAt line substitute own zone i with
      | .error slip => .error slip
      | .ok .finish => (cut line copied (size line)).map fun text => (text, zone = .comment)
      | .ok (.pass zone' stop) => scanFrom bound line substitute own zone' stop copied
      | .ok (.color color stop) => (cut line copied i).bind fun front =>
        prepend (front ++ color.toGlsl.toList) (scanFrom bound line substitute own .code stop stop)
      | .ok (.bind b) => (textOf bound b).bind fun text => (cut line copied i).bind fun front =>
        prepend (front ++ text) (scanFrom bound line substitute own .code b.stop b.stop) := by
  rw [scanFrom]
  split
  · next h => simp only [h]
  · next h => simp only [h]
  · next h => simp only [h]
  · next h =>
    simp only [h]
    rfl
  · next b h =>
    simp only [h, textOf]
    cases bound b.name with
    | some text => rfl
    | none =>
      dsimp only
      split
      · next hf => rw [hf]; rfl
      · next text hf =>
        simp only [hf]
        rcases scanFrom bound text true none .code 0 0 with slip | ⟨replaced, _⟩ <;> rfl

/-! ### What is found is what stands there -/

theorem isAscii_isHexDigit : Text.IsAscii isHexDigit := by
  intro c h
  rw [isHexDigit_iff] at h
  omega

/-- A color is read from the run of digits and the character behind it. -/
theorem scan_digits {cs digits : List Char}
    (h : (cs.take maxHexDigits).takeWhile isHexDigit = digits) :
    Color.scan cs = match (cs.drop digits.length).head?.filter Text.isNameChar with
      | some c =>
        .error (if digits ≠ [] ∧ isHexDigit c then .length (digits.length + 1) else .badDigit c)
      | none =>
        if digits = [] then .ok none
        else (Color.ofHex (String.ofList digits)).map fun color =>
          some (color, cs.drop digits.length) := by
  have hend (rest : List Char) : (if digits = [] then pure none
      else do return some (← Color.ofHex (String.ofList digits), rest) :
        Except ColorFault (Option (Color × List Char))) =
      if digits = [] then .ok none
      else (Color.ofHex (String.ofList digits)).map fun color => some (color, rest) := by
    cases Color.ofHex (String.ofList digits) <;> rfl
  unfold Color.scan
  rw [h]
  dsimp only
  cases hrest : cs.drop digits.length with
  | nil => exact hend []
  | cons c rest =>
    rw [List.head?_cons, Option.filter_some]
    by_cases hc : Text.isNameChar c = true
    · simp only [hc, if_true]
      split <;> rfl
    · simp only [hc]
      exact hend _

/-- A color is found where it stands, with the position of what follows. -/
theorem colorAt_eq {front : List Char} {i : Nat} (hi : size front = i + 1) (cs : List Char) :
    colorAt (front ++ cs) i = match Color.scan cs with
    | .error fault => .error (.fault (.color fault))
    | .ok none => .ok none
    | .ok (some (color, rest)) => .ok (some (color, size (front ++ cs) - size rest)) := by
  rw [colorAt_digits rfl, ← hi, Text.drop_bytes, isAscii_isHexDigit.takeWhile_take_bytes,
    scan_digits rfl]
  -- the digits, a byte each, and what follows them
  obtain ⟨rest, hrest⟩ : (cs.take maxHexDigits).takeWhile isHexDigit <+: cs :=
    (List.takeWhile_prefix _).trans (List.take_prefix _ _)
  have hsize := isAscii_isHexDigit.size_takeWhile (cs.take maxHexDigits)
  generalize (cs.take maxHexDigits).takeWhile isHexDigit = digits at hrest hsize ⊢
  subst hrest
  rw [← hsize, ← Text.size_append, ← List.append_assoc, Text.drop_bytes, hsize, List.drop_left,
    Text.isAscii_isNameChar.head?_bytes, Text.cut_append_bind]
  cases rest.head?.filter Text.isNameChar with
  | some c => rfl
  | none =>
    by_cases hd : digits = []
    · simp only [hd, if_true]
    · simp only [hd, if_false]
      cases Color.ofHex (String.ofList digits) with
      | error fault => rfl
      | ok color =>
        have hback : size (front ++ digits ++ rest) - size rest = size (front ++ digits) := by
          rw [Text.size_append (front ++ digits), Nat.add_sub_cancel]
        simp only [Except.map, hback]
        rfl

/-- A character above ASCII neither ends a default nor counts in it. -/
theorem bindDefault_wide (depth : Nat) {bs : List Char} (h : Text.Wide bs) (rest : List Char) :
    bindDefault depth (bs ++ rest) = bs ++ bindDefault depth rest := by
  induction bs with
  | nil => rfl
  | cons b bs ih =>
    have hb := h b (List.mem_cons_self ..)
    have hmem : b ∉ ['(', '[', ')', ']', '\n', '\r'] := by
      intro hm
      have hall : ∀ c ∈ ['(', '[', ')', ']', '\n', '\r'], c.toNat < 128 := by simp
      exact absurd (hall b hm) (Nat.not_lt.2 hb)
    have hends : Text.IsAscii endsDefault := by
      intro c hc
      simp only [endsDefault, Bool.or_eq_true, beq_iff_eq] at hc
      rcases hc with (rfl | rfl) | hc
      · decide
      · decide
      · exact Text.isAscii_isAsciiBlank hc
    rw [List.cons_append, bindDefault_char hmem (fun _ => hends.eq_false hb),
      ih fun c hc => h c (List.mem_cons_of_mem b hc), List.cons_append]

/-- A default goes as far among the bytes as among the characters. -/
theorem bindDefault_bytes : ∀ (depth : Nat) (cs : List Char),
    bindDefault depth (bytes cs) = bytes (bindDefault depth cs)
  | _, [] => rfl
  | depth, c :: cs => by
    have ih := fun d => bindDefault_bytes d cs
    rcases Text.bytes_cons_cases c cs with ⟨hlt, hbytes⟩ | ⟨b, bs, hc, hwide, hone, hbytes⟩
    · have hkeep : ∀ d, c :: bindDefault d (bytes cs) = bytes (c :: bindDefault d cs) := by
        intro d
        rw [ih, Text.bytes_cons_of_lt hlt]
      rw [hbytes, bindDefault_cons, bindDefault_cons, hkeep, hkeep]
      split
      · rfl
      · split
        · cases depth with
          | zero => rfl
          | succ d => exact hkeep d
        · split
          · rfl
          · split
            · rfl
            · rfl
    · have hchar := bindDefault_wide depth (Text.wide_singleton hc) cs
      rw [List.singleton_append, List.singleton_append] at hchar
      have hbs := bindDefault_wide depth hwide (bytes cs)
      rw [List.cons_append, List.cons_append] at hbs
      have hparts :
          bytes (c :: bindDefault depth cs) = b :: bs ++ bytes (bindDefault depth cs) := by
        rw [← hone, ← Text.bytes_append, List.singleton_append]
      rw [hbytes, hbs, hchar, hparts, ih]
      rfl

theorem behind_bare (name : String) {cs : List Char} (h : cs.head? ≠ some ':') :
    Bind.behind name cs = ⟨name, none, cs⟩ := by
  unfold Bind.behind
  split
  · exact absurd rfl h
  · rfl

theorem behind_empty (name : String) {cs : List Char} (h : bindDefault 0 cs = []) :
    Bind.behind name (':' :: cs) = ⟨name, none, ':' :: cs⟩ := by
  simp only [Bind.behind, h]

theorem behind_default (name : String) {text rest : List Char}
    (h : bindDefault 0 (text ++ rest) = text) (htext : text ≠ []) :
    Bind.behind name (':' :: (text ++ rest)) = ⟨name, some text, rest⟩ := by
  cases text with
  | nil => exact absurd rfl htext
  | cons c text => simp only [Bind.behind, h, List.drop_left]

theorem behind_name (name : String) (cs : List Char) : (Bind.behind name cs).name = name := by
  unfold Bind.behind
  split
  · split
    · rfl
    · rfl
  · rfl

/-- The default of a bind is found where it stands, with the position of what follows. -/
theorem fallbackAt_eq (front : List Char) (name : String) (cs : List Char) :
    fallbackAt (front ++ cs) (size front) = .ok ((Bind.behind name cs).fallback,
      size (front ++ cs) - size (Bind.behind name cs).rest) := by
  have hbare : size (front ++ cs) - size cs = size front := by
    rw [Text.size_append, Nat.add_sub_cancel]
  have hhead : (bytes (front ++ cs))[size front]? = some ':' ↔ cs.head? = some ':' := by
    rw [← List.head?_drop, Text.drop_bytes, Text.head?_bytes_eq_some_iff (by decide)]
  rw [fallbackAt_default]
  by_cases hcolon : cs.head? = some ':'
  · rw [if_pos (hhead.2 hcolon)]
    obtain ⟨more, rfl⟩ := List.head?_eq_some_iff.1 hcolon
    have hmore : (bytes (front ++ ':' :: more)).drop (size front + 1) = bytes more := by
      rw [Text.drop_bytes_add, Text.bytes_cons_of_lt (by decide)]
      rfl
    obtain ⟨rest, hrest⟩ := (bindDefault_split 0 more).1
    dsimp only
    rw [hmore, bindDefault_bytes, Text.length_bytes]
    by_cases htext : bindDefault 0 more = []
    · rw [behind_empty name htext, htext, Text.size_nil, Nat.add_zero, if_neg (Nat.lt_irrefl _),
        hbare]
      rfl
    · have hfollow : bindDefault 0 (bindDefault 0 more ++ rest) = bindDefault 0 more := by
        rw [hrest]
      have hbehind := behind_default name hfollow htext
      rw [hrest] at hbehind
      generalize bindDefault 0 more = text at *
      subst hrest
      have hpos := Nat.pos_of_ne_zero (Text.size_eq_zero.not.2 htext)
      have hcolon : size (front ++ [':']) = size front + 1 := Text.size_append front [':']
      have hline : front ++ ':' :: (text ++ rest) = front ++ [':'] ++ text ++ rest := by simp
      rw [hbehind, if_pos (Nat.lt_add_of_pos_right hpos), ← hcolon, ← Text.size_append, hline,
        Text.cut_append_bind, Text.size_append _ rest, Nat.add_sub_cancel]
      rfl
  · rw [if_neg (hhead.not.2 hcolon), behind_bare name hcolon, hbare]
    rfl

/-- A bind is found where it stands, with the position of what follows. -/
theorem bindAt_eq {front : List Char} {i : Nat} (hi : size front = i + 1) (cs : List Char) :
    bindAt (front ++ cs) i =
      .ok ((readBind? cs).map fun b => ⟨b.name, b.fallback, size (front ++ cs) - size b.rest⟩) := by
  have hstart : Text.IsAscii Text.isNameStart := fun c hc =>
    Text.isAscii_isNameChar (Text.isNameChar_of_isNameStart c hc)
  rw [bindAt_name, ← hi, Text.drop_bytes, hstart.head?_bytes,
    Text.isAscii_isNameChar.takeWhile_bytes]
  cases cs with
  | nil => rfl
  | cons c tail =>
    rw [List.head?_cons, Option.filter_some, readBind?_cons]
    by_cases hc : Text.isNameStart c = true
    · simp only [hc, if_true]
      have hsplit := List.takeWhile_append_dropWhile (p := Text.isNameChar) (l := c :: tail)
      have hsize := Text.isAscii_isNameChar.size_takeWhile (c :: tail)
      generalize (c :: tail).takeWhile Text.isNameChar = name at hsplit hsize ⊢
      generalize (c :: tail).dropWhile Text.isNameChar = behind at hsplit ⊢
      rw [← hsplit, ← hsize, ← Text.size_append, ← List.append_assoc, Text.cut_append_bind,
        fallbackAt_eq _ (String.ofList name)]
      show _ = Except.ok (some (⟨(Bind.behind (String.ofList name) behind).name, _, _⟩ : BindAt))
      rw [behind_name]
      rfl
    · simp only [hc]
      rfl

end Bytewise
end AudioShader
