/-
# A line scanned byte by byte is scanned by characters

Wherever the position of a scan lies, behind it the line goes on with whole characters,
or with the last bytes of one above ASCII: these are passed one by one, and nothing that
a scan looks for is among them. So colors and binds are found where they stand, and the
line is cut only there, between characters, and never behind the position.

Key definitions: `Bytewise.Reached`, `Bytewise.scanLine`, `Bytewise.copyLine`.
Key theorems: `Bytewise.scanFrom_look`, `Bytewise.scanFrom_eq`, `Bytewise.scanLine_eq`.
-/
import AudioShader.Proofs.Source.Bytewise.Inline

namespace AudioShader
namespace Bytewise

open Text (bytes size cut)

variable {bound : String → Option String} {substitute : Bool} {own : Option Nat} {zone : Zone}
  {line : List Char} {i copied : Nat}

/-! ### Bytes that are passed -/

theorem notMem_marks_of_le {c : Char} (hc : 128 ≤ c.toNat) : c ∉ marks := by
  intro hmem
  have hall : ∀ m ∈ marks, m.toNat < 128 := by simp [marks]
  exact absurd (hall c hmem) (Nat.not_lt.2 hc)

/-- A byte that is no mark is passed. -/
theorem findAt_unmarked {b : Char} {bs : List Char} (hdrop : (bytes line).drop i = b :: bs)
    (hb : b ∉ marks) : findAt line substitute own zone i = .ok (.pass zone (i + 1)) := by
  simp only [marks, List.mem_cons, List.not_mem_nil, or_false, not_or] at hb
  obtain ⟨hstar, hslash, hescape, hquote, hhash, hat⟩ := hb
  rw [findAt_of_drop hdrop]
  unfold findByte
  cases zone <;> simp [hstar, hslash, hescape, hquote, hhash, hat]

/-- The bytes of characters above ASCII are passed. -/
theorem scanFrom_wide : ∀ {bs rest : List Char} {i : Nat}, Text.Wide bs →
    (bytes line).drop i = bs ++ rest →
      scanFrom bound line substitute own zone i copied =
        scanFrom bound line substitute own zone (i + bs.length) copied
  | [], _, _, _, _ => rfl
  | b :: bs, rest, i, hwide, hdrop => by
    have hnext : (bytes line).drop (i + 1) = bs ++ rest := by
      rw [← List.drop_drop, hdrop]
      rfl
    rw [scanFrom_find, findAt_unmarked hdrop (notMem_marks_of_le (hwide b (List.mem_cons_self ..)))]
    dsimp only
    rw [scanFrom_wide (fun x hx => hwide x (List.mem_cons_of_mem b hx)) hnext, List.length_cons,
      Nat.add_right_comm, Nat.add_assoc]

theorem scanFrom_of_le (h : size line ≤ i) : scanFrom bound line substitute own zone i copied =
    (cut line copied (size line)).map fun text => (text, decide (zone = .comment)) := by
  rw [scanFrom_find, findAt_of_le h]

/-! ### Where a scan stands -/

/-- Where a scan by bytes stands whenever it looks at a character: `done` is copied,
`pending` is passed and to be copied, and `rest` is to be read. -/
structure Reached (line : List Char) (i copied : Nat) (done pending rest : List Char) : Prop where
  line_eq : line = done ++ pending ++ rest
  pos_eq : i = size (done ++ pending)
  copied_eq : copied = size done

namespace Reached

variable {done pending cs lead rest : List Char}

theorem start (line : List Char) : Reached line 0 0 [] [] line := ⟨rfl, rfl, rfl⟩

theorem cut_pending (h : Reached line i copied done pending cs) :
    cut line copied i = (.ok pending : Except (Slip LineFault) _) := by
  rw [h.line_eq, h.pos_eq, h.copied_eq]
  exact Text.cut_append done pending cs

theorem cut_rest (h : Reached line i copied done pending cs) :
    cut line copied (size line) = (.ok (pending ++ cs) : Except (Slip LineFault) _) := by
  rw [h.line_eq, h.copied_eq, List.append_assoc]
  exact Text.cut_rest done (pending ++ cs)

theorem drop_bytes (h : Reached line i copied done pending cs) :
    (bytes line).drop i = bytes cs := by
  rw [h.line_eq, h.pos_eq, Text.drop_bytes]

/-- What is passed is still to be copied. -/
theorem pass (h : Reached line i copied done pending cs) (hcs : cs = lead ++ rest) :
    Reached line (i + size lead) copied done (pending ++ lead) rest where
  line_eq := by simp [h.line_eq, hcs]
  pos_eq := by simp [h.pos_eq, Nat.add_assoc]
  copied_eq := h.copied_eq

theorem pass_char {c : Char} (h : Reached line i copied done pending (c :: cs))
    (hc : c.toNat < 128) : Reached line (i + 1) copied done (pending ++ [c]) cs := by
  have hone : size [c] = 1 := Text.size_concat hc []
  rw [← hone]
  exact h.pass rfl

/-- Behind what is replaced, nothing is to be copied. -/
theorem replace (h : Reached line i copied done pending cs) (hcs : cs = lead ++ rest) :
    Reached line (size line - size rest) (size line - size rest) (done ++ pending ++ lead) []
      rest := by
  have hstop : size line - size rest = size (done ++ pending ++ lead) := by
    rw [h.line_eq, hcs, Text.size_sub]
  refine ⟨?_, ?_, hstop⟩
  · simp [h.line_eq, hcs]
  · rw [hstop, List.append_nil]

theorem le_replace (h : Reached line i copied done pending cs) (hcs : cs = lead ++ rest) :
    i ≤ size line - size rest := by
  rw [(h.replace hcs).copied_eq, h.pos_eq, Text.size_append (done ++ pending)]
  exact Nat.le_add_right ..

end Reached

/-! ### What stands at a position -/

section

variable {done pending cs : List Char} {c : Char}

/-- A character of ASCII and the one behind it tell what is found. -/
theorem findAt_cons (h : Reached line i copied done pending (c :: cs)) (hc : c.toNat < 128)
    (substitute : Bool) (own : Option Nat) (zone : Zone) :
    findAt line substitute own zone i = findByte line substitute own zone i c cs.head? := by
  have hdrop := h.drop_bytes
  rw [Text.bytes_cons_of_lt hc] at hdrop
  have hslash : (bytes cs).head? = some '/' ↔ cs.head? = some '/' :=
    Text.head?_bytes_eq_some_iff (by decide)
  have hstar : (bytes cs).head? = some '*' ↔ cs.head? = some '*' :=
    Text.head?_bytes_eq_some_iff (by decide)
  have hhash : (bytes cs).head? = some '#' ↔ cs.head? = some '#' :=
    Text.head?_bytes_eq_some_iff (by decide)
  rw [findAt_of_drop hdrop]
  simp only [findByte, hslash, hstar, hhash]

/-- Behind a backslash one byte is passed over, and with it the character it begins. -/
theorem scanFrom_escape (h : Reached line i copied done pending ('\\' :: cs)) :
    scanFrom bound line substitute own .text (i + 2) copied =
      scanFrom bound line substitute own .text (i + size ('\\' :: cs.take 1)) copied := by
  have hnext := h.pass_char (by decide)
  cases cs with
  | nil =>
    have hend : size line ≤ i + 1 := by simp [hnext.line_eq, hnext.pos_eq]
    have hstop : size ['\\'] = 1 := rfl
    rw [List.take_nil, hstop, scanFrom_of_le hend, scanFrom_of_le (Nat.le_succ_of_le hend)]
  | cons d ds =>
    have hstop : size ('\\' :: (d :: ds).take 1) = 1 + size [d] := Text.size_append ['\\'] [d]
    rcases Text.bytes_cons_cases d ds with ⟨hd, -⟩ | ⟨b, bs, -, hwide, hone, hbytes⟩
    · have hsize : size [d] = 1 := Text.size_concat hd []
      rw [hstop, hsize]
    · have hsize : size [d] = bs.length + 1 := by
        rw [← Text.length_bytes, hone, List.length_cons]
      have hdrop : (bytes line).drop (i + 2) = bs ++ bytes ds :=
        calc (bytes line).drop (i + 2)
          _ = ((bytes line).drop (i + 1)).drop 1 := by rw [List.drop_drop]
          _ = (b :: (bs ++ bytes ds)).drop 1 := by rw [hnext.drop_bytes, hbytes]
          _ = bs ++ bytes ds := rfl
      rw [scanFrom_wide (fun x hx => hwide x (List.mem_cons_of_mem b hx)) hdrop, hstop, hsize]
      congr 1
      omega

/-- A color is found where it stands. -/
theorem findColor_eq (h : Reached line i copied done pending ('#' :: cs)) : findColor line i =
    match lookAtHash cs with
    | .color color rest => .ok (.color color (size line - size rest))
    | .badColor fault => .error (.fault (.color fault))
    | _ => .ok (.pass .code (i + 1)) := by
  have hnext := h.pass_char (by decide)
  rw [findColor, hnext.line_eq, colorAt_eq hnext.pos_eq.symm, lookAtHash]
  rcases Color.scan cs with fault | _ | ⟨color, rest⟩ <;> rfl

theorem findBind_eq (h : Reached line i copied done pending ('@' :: cs)) : findBind line i =
    match lookAtBind cs with
    | .bind b => .ok (.bind ⟨b.name, b.fallback, size line - size b.rest⟩)
    | _ => .ok (.pass .code (i + 1)) := by
  have hnext := h.pass_char (by decide)
  rw [findBind, hnext.line_eq, bindAt_eq hnext.pos_eq.symm, lookAtBind]
  cases readBind? cs <;> rfl

/-- A character behind which a scan goes on in any case: in code, no `#` and no `@`. -/
def IsPlain (zone : Zone) (c : Char) : Prop := zone = .code → c ≠ '#' ∧ c ≠ '@'

/-- Where nothing can be replaced, a scan by bytes passes what stands there. -/
theorem scanFrom_plain (hplain : IsPlain zone c)
    (h : Reached line i copied done pending (c :: cs)) (bound : String → Option String)
    (substitute : Bool) (own : Option Nat) :
    match look zone (c :: cs) with
      | .finish => scanFrom bound line substitute own zone i copied =
          .ok (pending ++ c :: cs, decide (zone = .comment))
      | .copy lead zone' _ => scanFrom bound line substitute own zone i copied =
          scanFrom bound line substitute own zone' (i + size lead) copied
      | _ => False := by
  by_cases hc : c.toNat < 128
  · have hone : size [c] = 1 := Text.size_concat hc []
    have htwo (a b : Char) (ha : a.toNat < 128) (hb : b.toNat < 128) : size [a, b] = 2 := by
      have hfirst : size [a] = 1 := Text.size_concat ha []
      have hboth := Text.size_concat hb [a]
      rwa [hfirst] at hboth
    rw [scanFrom_find, findAt_cons h hc, look_cons]
    unfold findByte
    cases zone with
    | comment =>
      by_cases hclose : c = '*' ∧ cs.head? = some '/'
      · simp only [if_pos hclose]
        rw [htwo _ _ (by decide) (by decide)]
      · simp only [if_neg hclose]
        rw [hone]
    | text =>
      by_cases hescape : c = '\\'
      · subst hescape
        exact scanFrom_escape h
      · by_cases hquote : c = '"'
        · subst hquote
          simp only [if_neg hescape, if_true, hone]
        · simp only [if_neg hescape, if_neg hquote, hone]
    | code =>
      obtain ⟨hhash, hat⟩ := hplain rfl
      by_cases hslashes : c = '/' ∧ cs.head? = some '/'
      · simp only [if_pos hslashes, h.cut_rest]
        rfl
      · by_cases hblock : c = '/' ∧ cs.head? = some '*'
        · simp only [if_neg hslashes, if_pos hblock]
          rw [htwo _ _ (by decide) (by decide)]
        · by_cases hquote : c = '"'
          · subst hquote
            simp only [if_neg hslashes, if_neg hblock, if_true, hone]
          · simp only [if_neg hslashes, if_neg hblock, if_neg hquote, hhash, hat, false_and,
              if_false, hone]
  · have hle : 128 ≤ c.toNat := Nat.not_lt.1 hc
    have hwide : Text.Wide (bytes [c]) := fun b hb => Text.le_of_mem_bytes hle hb
    have hdrop : (bytes line).drop i = bytes [c] ++ bytes cs := by
      rw [h.drop_bytes, ← Text.bytes_append, List.singleton_append]
    rw [look_unmarked zone (notMem_marks_of_le hle)]
    dsimp only
    rw [scanFrom_wide hwide hdrop, Text.length_bytes]

theorem eq_code_of_not_isPlain (h : ¬IsPlain zone c) : zone = .code ∧ (c = '#' ∨ c = '@') := by
  unfold IsPlain at h
  tauto

/-- Where nothing is replaced, a `#` and an `@` are passed. -/
theorem scanFrom_literal (hc : c = '#' ∨ c = '@')
    (h : Reached line i copied done pending (c :: cs)) (bound : String → Option String)
    (own : Option Nat) : scanFrom bound line false own .code i copied =
      scanFrom bound line false own .code (i + 1) copied := by
  have hfind : findAt line false own .code i = .ok (.pass .code (i + 1)) := by
    rcases hc with rfl | rfl
    · simp [findAt_cons h, findByte]
    · simp [findAt_cons h, findByte]
  rw [scanFrom_find, hfind]

end

/-! ### A scan by bytes is a scan by characters -/

/-- No `#` from position `i` on is the one at `own`. -/
def Clear (own : Option Nat) (line : List Char) (i : Nat) : Prop :=
  ∀ j, own = some j → i ≤ j → (bytes line)[j]? ≠ some '#'

theorem Clear.mono {j : Nat} (h : Clear own line i) (hij : i ≤ j) : Clear own line j :=
  fun k hk hjk => h k hk (Nat.le_trans hij hjk)

theorem Clear.ne {done pending cs : List Char} (h : Clear own line i)
    (hreached : Reached line i copied done pending cs) (hhead : cs.head? = some '#') :
    own ≠ some i := by
  intro hown
  refine h i hown (Nat.le_refl _) ?_
  rwa [← List.head?_drop, hreached.line_eq, hreached.pos_eq, Text.drop_bytes,
    Text.head?_bytes_eq_some_iff (by decide)]

/-- A scan by bytes, by what stands at its position. -/
theorem scanFrom_look {done pending cs : List Char} (h : Reached line i copied done pending cs)
    (zone : Zone) (hown : cs.head? = some '#' → own ≠ some i) :
    scanFrom bound line true own zone i copied = match look zone cs with
      | .finish => .ok (pending ++ cs, decide (zone = .comment))
      | .copy lead zone' _ => scanFrom bound line true own zone' (i + size lead) copied
      | .color color rest => prepend (pending ++ color.toGlsl.toList)
          (scanFrom bound line true own .code (size line - size rest) (size line - size rest))
      | .badColor fault => .error (.fault (.color fault))
      | .bind b => (textOf bound ⟨b.name, b.fallback, size line - size b.rest⟩).bind fun text =>
          prepend (pending ++ text)
            (scanFrom bound line true own .code (size line - size b.rest)
              (size line - size b.rest)) := by
  cases cs with
  | nil =>
    have hend : size line ≤ i := by simp [h.line_eq, h.pos_eq]
    rw [scanFrom_of_le hend, h.cut_rest]
    cases zone <;> rfl
  | cons c cs =>
    by_cases hplain : IsPlain zone c
    · have hpass := scanFrom_plain hplain h bound true own
      cases hl : look zone (c :: cs) <;> rw [hl] at hpass
      · exact hpass
      · exact hpass
      · exact hpass.elim
      · exact hpass.elim
      · exact hpass.elim
    · obtain ⟨rfl, rfl | rfl⟩ := eq_code_of_not_isPlain hplain
      · have hlook : look .code ('#' :: cs) =
            if cs.head? = some '#' then .copy ['#', '#'] .code cs.tail else lookAtHash cs := by
          rw [look_cons]
          simp
        have hfind : findAt line true own .code i =
            if cs.head? = some '#' then .ok (.pass .code (i + 2)) else findColor line i := by
          rw [findAt_cons h (by decide), findByte]
          simp [hown rfl]
        rw [scanFrom_find, hfind, hlook]
        by_cases hpaste : cs.head? = some '#'
        · rw [if_pos hpaste, if_pos hpaste]
          rfl
        · rw [if_neg hpaste, if_neg hpaste, findColor_eq h, h.cut_pending, lookAtHash]
          rcases Color.scan cs with fault | _ | ⟨color, rest⟩ <;> rfl
      · have hlook : look .code ('@' :: cs) = lookAtBind cs := rfl
        have hfind : findAt line true own .code i = findBind line i := by
          rw [findAt_cons h (by decide), findByte]
          simp
        rw [scanFrom_find, hfind, hlook, findBind_eq h, h.cut_pending, lookAtBind]
        cases readBind? cs <;> rfl

/-- A scan by bytes is the scan by characters of what is to be read. -/
theorem scanFrom_eq (bound : String → Option String) : ∀ {own : Option Nat} (zone : Zone)
    {line : List Char} {i copied : Nat} {done pending cs : List Char},
    Reached line i copied done pending cs → Clear own line i →
      scanFrom bound line true own zone i copied =
        (prepend pending (scan bound zone cs)).mapError .fault := by
  intro own zone line i copied done pending cs h hclear
  -- behind what is replaced the scan goes on, with nothing to be copied
  have hbehind : ∀ {taken rest : List Char}, cs = taken ++ rest → rest.length < cs.length →
      scanFrom bound line true own .code (size line - size rest) (size line - size rest) =
        (scan bound .code rest).mapError .fault := by
    intro taken rest hcs hlt
    have ih := scanFrom_eq bound .code (h.replace hcs) (hclear.mono (h.le_replace hcs))
    rwa [prepend_nil] at ih
  rw [scanFrom_look h zone (hclear.ne h), scan_look]
  match hl : look zone cs with
  | .finish => rfl
  | .copy lead zone' rest =>
    have hlen := look_copy_length hl
    obtain ⟨-, hcs⟩ := look_copy hl
    dsimp only
    rw [scanFrom_eq bound zone' (h.pass hcs) (hclear.mono (Nat.le_add_right ..)), prepend_prepend]
  | .color color rest =>
    have hlen := look_color_length hl
    obtain ⟨more, rfl, hscan⟩ := look_color hl
    obtain ⟨digits, hdigits, -⟩ := Color.scan_split hscan
    have htaken : '#' :: more = '#' :: digits ++ rest := by rw [hdigits, List.cons_append]
    dsimp only
    rw [hbehind htaken hlen, prepend_prepend, mapError_prepend]
  | .badColor fault => rfl
  | .bind b =>
    obtain ⟨hlen, hfallback⟩ := look_bind_length hl
    obtain ⟨more, rfl, hread⟩ := look_bind hl
    obtain ⟨⟨taken, htaken, -⟩, -⟩ := readBind?_split hread
    have hsplit : '@' :: more = '@' :: taken ++ b.rest := by rw [htaken, List.cons_append]
    have htext (stop : Nat) :
        textOf bound ⟨b.name, b.fallback, stop⟩ = (bindText bound b).mapError .fault := by
      unfold textOf bindText
      cases bound b.name with
      | some text => rfl
      | none =>
        cases hf : b.fallback with
        | none => rfl
        | some text =>
          have hshorter := hfallback text hf
          have hclear : Clear none text 0 := nofun
          have ih := scanFrom_eq bound .code (.start text) hclear
          rw [prepend_nil] at ih
          dsimp only
          rw [ih]
          cases scan bound .code text <;> rfl
    dsimp only
    rw [htext, hbehind hsplit hlen]
    cases bindText bound b with
    | error fault => rfl
    | ok text =>
      show prepend (pending ++ text) ((scan bound .code b.rest).mapError Slip.fault) =
        (prepend pending (prepend text (scan bound .code b.rest))).mapError Slip.fault
      rw [prepend_prepend, mapError_prepend]
termination_by _ _ _ _ _ _ _ cs => cs.length

/-! ### Lines in which nothing is replaced -/

/-- A line in which nothing is replaced is copied. -/
theorem scanFrom_verbatim (bound : String → Option String) (own : Option Nat) (zone : Zone)
    {line : List Char} {i : Nat} {front cs : List Char} (h : Reached line i 0 [] front cs) :
    scanFrom bound line false own zone i 0 = .ok (line, endsInComment zone cs) := by
  cases cs with
  | nil =>
    have hend : size line ≤ i := by simp [h.line_eq, h.pos_eq]
    rw [scanFrom_of_le hend, h.cut_rest, h.line_eq]
    cases zone <;> rfl
  | cons c cs =>
    by_cases hplain : IsPlain zone c
    · have hpass := scanFrom_plain hplain h bound false own
      rw [endsInComment_look zone (c :: cs)]
      match hl : look zone (c :: cs) with
      | .finish =>
        rw [hl] at hpass
        rw [hpass, h.line_eq]
        rfl
      | .copy lead zone' rest =>
        have hlen := look_copy_length hl
        rw [hl] at hpass
        rw [hpass, scanFrom_verbatim bound own zone' (h.pass (look_copy hl).2)]
      | .color color rest | .badColor fault | .bind b =>
        rw [hl] at hpass
        exact hpass.elim
    · obtain ⟨rfl, hc⟩ := eq_code_of_not_isPlain hplain
      have hends : endsInComment .code (c :: cs) = endsInComment .code cs := by
        rcases hc with rfl | rfl <;> rfl
      have hlt : c.toNat < 128 := by rcases hc with rfl | rfl <;> decide
      have hnext := h.pass_char hlt
      rw [scanFrom_literal hc h, scanFrom_verbatim bound own .code hnext, hends]
termination_by cs.length

/-! ### Lines -/

/-- How a line is copied. -/
inductive Manner where
  /-- Colors and binds are replaced. -/
  | body
  /-- The same, where the first character of the line, behind blanks, is the `#` of a
  directive. -/
  | define
  /-- Nothing is replaced. -/
  | verbatim
  deriving DecidableEq

/-- Where the `#` of a directive stands on a line. -/
def ownHash (manner : Manner) (line : List Char) : Option Nat :=
  match manner with
  | .define => (bytes line).findIdx? fun b => !Text.isAsciiBlank b
  | _ => none

/-- Scans a line by bytes. -/
def scanLine (bound : String → Option String) (manner : Manner) (zone : Zone) (line : List Char) :
    Except (Slip LineFault) (List Char × Bool) :=
  scanFrom bound line (manner ≠ .verbatim) (ownHash manner line) zone 0 0

/-- The same by characters. -/
def copyLine (bound : String → Option String) :
    Manner → Zone → List Char → Except LineFault (List Char × Bool)
  | .body, zone, line => scan bound zone line
  | .define, zone, line =>
    match line.dropWhile Text.isAsciiBlank with
    | '#' :: rest => prepend (line.takeWhile Text.isAsciiBlank ++ ['#']) (scan bound zone rest)
    | _ => scan bound zone line
  | .verbatim, zone, line => .ok (line, endsInComment zone line)

theorem copyLine_define (bound : String → Option String) (line : List Char) :
    copyLine bound .define .code line = scanDefine bound line := rfl

theorem ownHash_eq_some_iff (line : List Char) (j : Nat) : ownHash .define line = some j ↔
    j < size line ∧ j = size (line.takeWhile Text.isAsciiBlank) := by
  have hidx : (bytes line).findIdx (fun b => !Text.isAsciiBlank b) =
      size (line.takeWhile Text.isAsciiBlank) := by
    have htake : (bytes line).takeWhile Text.isAsciiBlank =
        (bytes line).take ((bytes line).findIdx fun b => !Text.isAsciiBlank b) :=
      List.takeWhile_eq_take_findIdx_not
    have hlen := congrArg List.length htake
    rw [List.length_take, Nat.min_eq_left List.findIdx_le_length,
      Text.isAscii_isAsciiBlank.takeWhile_bytes] at hlen
    rw [← hlen, Text.isAscii_isAsciiBlank.size_takeWhile]
  rw [ownHash, List.findIdx?_eq_some_iff_findIdx_eq, hidx, Text.length_bytes, eq_comm (a := size _)]

theorem notMem_marks_of_isAsciiBlank {c : Char} (hc : Text.isAsciiBlank c = true) : c ∉ marks := by
  intro hmem
  have hall : ∀ m ∈ marks, Text.isAsciiBlank m = false := by simp [marks, Text.isAsciiBlank]
  have hfalse := hall c hmem
  rw [hc] at hfalse
  cases hfalse

theorem isPlain_of_notMem {c : Char} (hc : c ∉ marks) : IsPlain zone c := by
  intro _
  simp only [marks, List.mem_cons, List.not_mem_nil, or_false, not_or] at hc
  exact ⟨hc.2.2.2.2.1, hc.2.2.2.2.2⟩

/-- Blanks in front are passed. -/
theorem scanFrom_blanks : ∀ {blanks done pending cs : List Char} {i : Nat},
    Reached line i copied done pending (blanks ++ cs) →
    (∀ b ∈ blanks, Text.isAsciiBlank b = true) →
      scanFrom bound line substitute own zone i copied =
        scanFrom bound line substitute own zone (i + size blanks) copied
  | [], _, _, _, _, _, _ => rfl
  | b :: blanks, done, pending, cs, i, h, hblanks => by
    have hb := notMem_marks_of_isAsciiBlank (hblanks b (List.mem_cons_self ..))
    have hpass := scanFrom_plain (isPlain_of_notMem hb : IsPlain zone b) h bound substitute own
    rw [look_unmarked zone hb] at hpass
    have hnext := h.pass (show b :: blanks ++ cs = [b] ++ (blanks ++ cs) from rfl)
    have ih := scanFrom_blanks hnext fun x hx => hblanks x (List.mem_cons_of_mem b hx)
    rw [Nat.add_assoc, ← Text.size_append] at ih
    exact hpass.trans ih

/-- The `#` of a directive is passed. -/
theorem scanFrom_own {done pending cs : List Char}
    (h : Reached line i copied done pending ('#' :: cs)) :
    scanFrom bound line true (some i) zone i copied =
      scanFrom bound line true (some i) zone (i + 1) copied := by
  have hfind : findAt line true (some i) zone i = .ok (.pass zone (i + 1)) := by
    cases zone <;> simp [findAt_cons h, findByte]
  rw [scanFrom_find, hfind]

/-- **A line scanned by bytes is what it is scanned by characters.** -/
theorem scanLine_eq (bound : String → Option String) (manner : Manner) (zone : Zone)
    (line : List Char) :
    scanLine bound manner zone line = (copyLine bound manner zone line).mapError .fault := by
  have hbody (own : Option Nat) (hclear : Clear own line 0) :
      scanFrom bound line true own zone 0 0 = (scan bound zone line).mapError .fault := by
    have hscan := scanFrom_eq bound zone (.start line) hclear
    rwa [prepend_nil] at hscan
  cases manner with
  | body => exact hbody none nofun
  | verbatim => exact scanFrom_verbatim bound none zone (.start line)
  | define =>
    show scanFrom bound line true (ownHash .define line) zone 0 0 =
      (match line.dropWhile Text.isAsciiBlank with
        | '#' :: rest => prepend (line.takeWhile Text.isAsciiBlank ++ ['#']) (scan bound zone rest)
        | _ => scan bound zone line).mapError Slip.fault
    have hsplit := List.takeWhile_append_dropWhile (p := Text.isAsciiBlank) (l := line)
    have hblanks : ∀ b ∈ line.takeWhile Text.isAsciiBlank, Text.isAsciiBlank b = true :=
      fun b hb => List.mem_takeWhile_imp hb
    have hown := ownHash_eq_some_iff line
    generalize ownHash .define line = own at hown ⊢
    generalize line.takeWhile Text.isAsciiBlank = blanks at *
    generalize line.dropWhile Text.isAsciiBlank = behind at *
    subst hsplit
    by_cases hhash : behind.head? = some '#'
    · obtain ⟨rest, rfl⟩ := List.head?_eq_some_iff.1 hhash
      have hlt : size blanks < size (blanks ++ '#' :: rest) := by
        rw [Text.size_append, Text.size_cons]
        have hpos := Char.utf8Size_pos '#'
        omega
      obtain rfl : own = some (size blanks) := (hown _).2 ⟨hlt, rfl⟩
      have hstart := Reached.start (blanks ++ '#' :: rest)
      -- the scan stands at the `#`, passes it and does not meet it again
      have hhere := hstart.pass rfl
      rw [Nat.zero_add] at hhere
      have hnext := hhere.pass_char (by decide)
      have hclear : Clear (some (size blanks)) (blanks ++ '#' :: rest) (size blanks + 1) := by
        intro j hj hle
        cases hj
        exact absurd hle (Nat.not_succ_le_self _)
      rw [scanFrom_blanks hstart hblanks, Nat.zero_add, scanFrom_own hhere,
        scanFrom_eq bound zone hnext hclear]
      rfl
    · have hclear : Clear own (blanks ++ behind) 0 := by
        intro j hj _
        rw [((hown j).1 hj).2, ← List.head?_drop, Text.drop_bytes, ne_eq,
          Text.head?_bytes_eq_some_iff (by decide)]
        exact hhash
      rw [hbody own hclear]
      split
      · exact absurd rfl hhash
      · rfl

end Bytewise
end AudioShader
