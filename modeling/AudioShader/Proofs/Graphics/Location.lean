/-
# Where a log line says it is about

A location is a file and a line in digits, as `0:12` or `0(12)`, with no letter or digit in front
of it. The first one in a log line is read (`locate?_eq_some_iff`), and if its numbers fit a word
the log line is about them. So the forms in which compilers write locations are all read back,
whatever stands in front of them and whatever they say.

Key definitions: `Locates`, `LocatedAt`, `FirstLocatedAt`.
Key theorems: `locationAt?_eq_some_iff`, `findLocation?_eq_some_iff`, `readWord64?_eq_some_iff`,
`locate?_eq_some_iff`.
-/
import AudioShader.Diagnostic
import AudioShader.Proofs.Graphics.Offences
import AudioShader.Proofs.Text.Cuts
import AudioShader.Proofs.Text.Letters

namespace AudioShader

/-! ### Locations -/

/-- Digits, and at least one of them. -/
structure IsNumeral (ds : List Char) : Prop where
  ne_nil : ds ≠ []
  digits : ∀ c ∈ ds, c.isDigit = true

/-- A text begins with a location: the digits of a file and of a line, and what follows. -/
inductive Locates : List Char → List Char × List Char × List Char → Prop
  | colon {file line rest : List Char} (hfile : IsNumeral file) (hline : IsNumeral line)
      (hrest : ∀ c ∈ rest.head?, c.isDigit = false) :
      Locates (file ++ ':' :: (line ++ rest)) (file, line, rest)
  | parens {file line rest : List Char} (hfile : IsNumeral file) (hline : IsNumeral line) :
      Locates (file ++ '(' :: (line ++ ')' :: rest)) (file, line, rest)

theorem IsNumeral.head?_append {ds : List Char} (h : IsNumeral ds) (rest : List Char) :
    ∃ c ∈ (ds ++ rest).head?, c.isDigit = true := by
  obtain ⟨hne, hdigits⟩ := h
  cases ds with
  | nil => exact absurd rfl hne
  | cons c ds => exact ⟨c, rfl, hdigits c List.mem_cons_self⟩

/-- A location begins with a digit. -/
theorem Locates.head? {cs : List Char} {found : List Char × List Char × List Char}
    (h : Locates cs found) : ∃ c ∈ cs.head?, c.isDigit = true := by
  cases h with
  | colon hfile _ _ => exact hfile.head?_append _
  | parens hfile _ => exact hfile.head?_append _

theorem Locates.isNumeral {cs fs ls rest : List Char} (h : Locates cs (fs, ls, rest)) :
    IsNumeral fs ∧ IsNumeral ls := by
  cases h with
  | colon hfile hline _ => exact ⟨hfile, hline⟩
  | parens hfile hline => exact ⟨hfile, hline⟩

theorem takeWhile_digits {ds : List Char} (hd : ∀ c ∈ ds, c.isDigit = true) {c : Char}
    (hc : c.isDigit = false) (rest : List Char) :
    (ds ++ c :: rest).takeWhile Char.isDigit = ds ∧
      (ds ++ c :: rest).dropWhile Char.isDigit = c :: rest := by
  constructor
  · rw [List.takeWhile_append_of_pos hd, List.takeWhile_cons_of_neg (by simp [hc]), List.append_nil]
  · rw [List.dropWhile_append_of_pos hd, List.dropWhile_cons_of_neg (by simp [hc])]

/-- Digits end where no digit follows. -/
theorem span_digits {ds rest : List Char} (hd : ∀ c ∈ ds, c.isDigit = true)
    (hrest : ∀ c ∈ rest.head?, c.isDigit = false) :
    (ds ++ rest).takeWhile Char.isDigit = ds ∧ (ds ++ rest).dropWhile Char.isDigit = rest := by
  cases rest with
  | nil => simpa using hd
  | cons c rest => exact takeWhile_digits hd (hrest c rfl) rest

theorem isNumeral_takeWhile {cs : List Char} (h : (cs.takeWhile Char.isDigit).isEmpty = false) :
    IsNumeral (cs.takeWhile Char.isDigit) where
  ne_nil hnil := by rw [hnil] at h; cases h
  digits _ hc := List.mem_takeWhile_imp hc

/-- What is read at a digit is a location, and every location is read. -/
theorem locationAt?_eq_some_iff {d : Char} (hd : d.isDigit = true) {cs : List Char}
    {found : List Char × List Char × List Char} :
    locationAt? (d :: cs) = some found ↔ Locates (d :: cs) found := by
  constructor
  · intro h
    have htext : (d :: cs).takeWhile Char.isDigit ++ (d :: cs).dropWhile Char.isDigit = d :: cs :=
      List.takeWhile_append_dropWhile
    have hfile : IsNumeral ((d :: cs).takeWhile Char.isDigit) := isNumeral_takeWhile (by simp [hd])
    unfold locationAt? at h
    dsimp only at h
    split at h
    · next separator more hmore =>
      rw [hmore] at htext
      have hbehind : more.takeWhile Char.isDigit ++ more.dropWhile Char.isDigit = more :=
        List.takeWhile_append_dropWhile
      split at h
      · cases h
      · next hne =>
        have hline : IsNumeral (more.takeWhile Char.isDigit) := isNumeral_takeWhile (by simpa using hne)
        split at h
        · cases h
          have hloc := Locates.colon hfile hline (Text.head?_dropWhile Char.isDigit more)
          rwa [hbehind, htext] at hloc
        · next rest hrest =>
          cases h
          rw [hrest] at hbehind
          have hloc := @Locates.parens _ _ rest hfile hline
          rwa [hbehind, htext] at hloc
        · cases h
    · cases h
  · generalize d :: cs = text
    intro h
    cases h with
    | @colon file line rest hfile hline hrest =>
      obtain ⟨hft, hfd⟩ := takeWhile_digits hfile.digits (c := ':') (by decide) (line ++ rest)
      obtain ⟨hlt, hld⟩ := span_digits hline.digits hrest
      simp only [locationAt?, hft, hfd, hlt, hld]
      rw [if_neg (by simpa using hline.ne_nil)]
    | @parens file line rest hfile hline =>
      obtain ⟨hft, hfd⟩ := takeWhile_digits hfile.digits (c := '(') (by decide) (line ++ ')' :: rest)
      obtain ⟨hlt, hld⟩ := takeWhile_digits hline.digits (c := ')') (by decide) rest
      simp only [locationAt?, hft, hfd, hlt, hld]
      rw [if_neg (by simpa using hline.ne_nil)]

/-! ### The first location -/

/-- A location may stand behind a text: no letter or digit is in front of it. `open_` tells it
where the text is empty. -/
def Opens (open_ : Bool) (before : List Char) : Prop :=
  match before.getLast? with
  | none => open_ = true
  | some c => c.isAlphanum = false

/-- A location stands at a place of a text. -/
def LocatedAt (open_ : Bool) (cs : List Char) (i : Nat)
    (found : List Char × List Char × List Char) : Prop :=
  Opens open_ (cs.take i) ∧ Locates (cs.drop i) found

/-- The first location of a text stands at a place. -/
def FirstLocatedAt (open_ : Bool) (cs : List Char) (i : Nat)
    (found : List Char × List Char × List Char) : Prop :=
  LocatedAt open_ cs i found ∧ ∀ j < i, ∀ other, ¬LocatedAt open_ cs j other

theorem opens_cons (open_ : Bool) (c : Char) (before : List Char) :
    Opens open_ (c :: before) ↔ Opens (!c.isAlphanum) before := by
  cases before with
  | nil => simp [Opens]
  | cons d before =>
    unfold Opens
    rw [List.getLast?_cons_cons, List.getLast?_cons]

theorem locatedAt_cons_succ {open_ : Bool} {c : Char} {cs : List Char} {i : Nat}
    {found : List Char × List Char × List Char} :
    LocatedAt open_ (c :: cs) (i + 1) found ↔ LocatedAt (!c.isAlphanum) cs i found := by
  rw [LocatedAt, LocatedAt, List.take_succ_cons, List.drop_succ_cons, opens_cons]

theorem firstLocatedAt_cons_succ {open_ : Bool} {c : Char} {cs : List Char} {i : Nat}
    {found : List Char × List Char × List Char} (h : ∀ other, ¬LocatedAt open_ (c :: cs) 0 other) :
    FirstLocatedAt open_ (c :: cs) (i + 1) found ↔ FirstLocatedAt (!c.isAlphanum) cs i found := by
  rw [FirstLocatedAt, FirstLocatedAt, locatedAt_cons_succ]
  refine and_congr_right fun _ => ⟨fun hj j hlt => ?_, fun hj j hlt => ?_⟩
  · simpa only [locatedAt_cons_succ] using hj (j + 1) (Nat.succ_lt_succ hlt)
  · cases j with
    | zero => exact h
    | succ j => simpa only [locatedAt_cons_succ] using hj j (Nat.lt_of_succ_lt_succ hlt)

/-- Without a location in front the first one stands further on. -/
theorem exists_firstLocatedAt_cons {open_ : Bool} {c : Char} {cs : List Char}
    {found : List Char × List Char × List Char} (h : ∀ other, ¬LocatedAt open_ (c :: cs) 0 other) :
    (∃ i, FirstLocatedAt open_ (c :: cs) i found) ↔
      ∃ i, FirstLocatedAt (!c.isAlphanum) cs i found := by
  constructor
  · rintro ⟨_ | i, hi⟩
    · exact absurd hi.1 (h found)
    · exact ⟨i, (firstLocatedAt_cons_succ h).1 hi⟩
  · rintro ⟨i, hi⟩
    exact ⟨i + 1, (firstLocatedAt_cons_succ h).2 hi⟩

/-- The first location of a text is found, and nothing else is. -/
theorem findLocation?_eq_some_iff {open_ : Bool} {cs : List Char}
    {found : List Char × List Char × List Char} :
    findLocation? open_ cs = some found ↔ ∃ i, FirstLocatedAt open_ cs i found := by
  induction cs generalizing open_ with
  | nil =>
    refine ⟨nofun, ?_⟩
    rintro ⟨i, ⟨-, h⟩, -⟩
    obtain ⟨c, hc, -⟩ := h.head?
    simp at hc
  | cons c cs ih =>
    rw [findLocation?]
    by_cases hfront : open_ = true ∧ c.isDigit = true
    · obtain ⟨rfl, hdigit⟩ := hfront
      have hiff (other) : locationAt? (c :: cs) = some other ↔ Locates (c :: cs) other :=
        locationAt?_eq_some_iff hdigit
      rw [hdigit, Bool.and_self, if_pos rfl]
      cases hat : locationAt? (c :: cs) with
      | some first =>
        have hfirst : LocatedAt true (c :: cs) 0 first := ⟨rfl, (hiff first).1 hat⟩
        refine ⟨fun h => ?_, fun ⟨i, hi⟩ => ?_⟩
        · cases h
          exact ⟨0, hfirst, nofun⟩
        · obtain rfl : i = 0 := by
            by_contra hne
            exact hi.2 0 (Nat.pos_of_ne_zero hne) first hfirst
          exact hat.symm.trans ((hiff found).2 hi.1.2)
      | none =>
        have hnone (other) : ¬LocatedAt true (c :: cs) 0 other := fun h => by
          have := (hiff other).2 h.2
          rw [hat] at this
          cases this
        have hword : c.isAlphanum = true := by simp [Char.isAlphanum, hdigit]
        rw [exists_firstLocatedAt_cons hnone, hword]
        exact ih
    · have hnone (other) : ¬LocatedAt open_ (c :: cs) 0 other := by
        rintro ⟨hopen, hloc⟩
        obtain ⟨d, hd, hdigit⟩ := hloc.head?
        cases hd
        exact hfront ⟨hopen, hdigit⟩
      rw [exists_firstLocatedAt_cons hnone, if_neg (by simpa using hfront)]
      exact ih

/-! ### Numbers -/

theorem ofDigitChars_of_readDigits {limit : Nat} {excess : IntFault} {cs : List Char} {n m : Nat}
    (h : readDigits limit excess n cs = .ok m) : Nat.ofDigitChars 10 cs n = m := by
  induction cs generalizing n with
  | nil =>
    rw [readDigits] at h
    cases h
    rfl
  | cons c cs ih =>
    rw [readDigits] at h
    split at h
    · cases h
    · split at h
      · cases h
      · exact ih h

/-- A text of digits is read as its number if that fits a word. -/
theorem readWord64?_eq_some_iff {ds : List Char} (h : IsNumeral ds) {n : Nat} :
    readWord64? ds = some n ↔ Nat.ofDigitChars 10 ds 0 = n ∧ n < UInt64.size := by
  have hread : readWord64? ds = (readDigits (UInt64.size - 1) .tooLarge 0 ds).toOption := by
    obtain ⟨hne, hdigits⟩ := h
    unfold readWord64?
    split
    · exact absurd (hdigits '+' List.mem_cons_self) (by decide)
    · rw [if_neg (by simpa using hne)]
  have hsize : UInt64.size - 1 < UInt64.size := by decide
  rw [hread]
  constructor
  · intro hn
    have hok : readDigits (UInt64.size - 1) .tooLarge 0 ds = .ok n := by
      cases hcases : readDigits (UInt64.size - 1) .tooLarge 0 ds with
      | error e => rw [hcases] at hn; cases hn
      | ok m => rw [hcases] at hn; cases hn; rfl
    exact ⟨ofDigitChars_of_readDigits hok,
      (readDigits_le _ _ 0 ds n (Nat.zero_le _) hok).trans_lt hsize⟩
  · rintro ⟨rfl, hfits⟩
    rw [readDigits_eq_ok h.digits (Nat.le_sub_one_of_lt hfits)]
    rfl

theorem isNumeral_toString (n : Nat) : IsNumeral (toString n).toList :=
  ⟨toString_ne_nil n, fun _ => isDigit_of_mem_toString⟩

/-! ### Log lines -/

/-- A log line is about the numbers of its first location, if they fit a word. -/
theorem locate?_eq_some_iff {cs : List Char} {file line : Nat} {message : List Char} :
    locate? cs = some (file, line, message) ↔ ∃ (i : Nat) (fs ls rest : List Char),
      FirstLocatedAt true cs i (fs, ls, rest) ∧
      (Nat.ofDigitChars 10 fs 0 = file ∧ file < UInt64.size) ∧
      (Nat.ofDigitChars 10 ls 0 = line ∧ line < UInt64.size) ∧ message = trimMessage rest := by
  constructor
  · intro h
    simp only [locate?, Option.bind_eq_bind, Option.bind_eq_some_iff, Option.pure_def,
      Option.some.injEq, Prod.mk.injEq] at h
    obtain ⟨⟨fs, ls, rest⟩, hfind, f, hfile, l, hline, rfl, rfl, rfl⟩ := h
    obtain ⟨i, hi⟩ := findLocation?_eq_some_iff.1 hfind
    obtain ⟨hfs, hls⟩ := hi.1.2.isNumeral
    exact ⟨i, fs, ls, rest, hi, (readWord64?_eq_some_iff hfs).1 hfile,
      (readWord64?_eq_some_iff hls).1 hline, rfl⟩
  · rintro ⟨i, fs, ls, rest, hi, hfile, hline, rfl⟩
    obtain ⟨hfs, hls⟩ := hi.1.2.isNumeral
    rw [locate?, findLocation?_eq_some_iff.2 ⟨i, hi⟩, Option.bind_eq_bind, Option.bind_some]
    dsimp only
    rw [(readWord64?_eq_some_iff hfs).2 hfile, (readWord64?_eq_some_iff hls).2 hline]
    rfl

/-- Behind a text without digits that does not end with a letter a location is the first one. -/
theorem firstLocatedAt_append {before cs : List Char} {found : List Char × List Char × List Char}
    (hdigit : ∀ c ∈ before, c.isDigit = false) (hlast : ∀ c ∈ before.getLast?, c.isAlpha = false)
    (h : Locates cs found) : FirstLocatedAt true (before ++ cs) before.length found := by
  refine ⟨⟨?_, ?_⟩, fun j hj other hother => ?_⟩
  · rw [List.take_left, Opens]
    split
    · rfl
    · next c hc =>
      rw [Char.isAlphanum, hlast c hc, hdigit c (List.mem_of_getLast? hc), Bool.or_self]
  · rwa [List.drop_left]
  · obtain ⟨c, hc, hd⟩ := hother.2.head?
    rw [List.drop_append_of_le_length (Nat.le_of_lt hj), List.head?_append,
      List.head?_drop, List.getElem?_eq_getElem hj, Option.some_or, Option.mem_some_iff] at hc
    rw [← hc, hdigit _ (List.getElem_mem hj)] at hd
    cases hd

theorem locate?_append {before cs rest : List Char} {file line : Nat}
    (hdigit : ∀ c ∈ before, c.isDigit = false) (hlast : ∀ c ∈ before.getLast?, c.isAlpha = false)
    (hfile : file < UInt64.size) (hline : line < UInt64.size)
    (h : Locates cs ((toString file).toList, (toString line).toList, rest)) :
    locate? (before ++ cs) = some (file, line, trimMessage rest) := by
  have hvalue (n : Nat) : Nat.ofDigitChars 10 (toString n).toList 0 = n := by
    rw [toList_toString, Nat.ofDigitChars_ten_toDigits]
  exact locate?_eq_some_iff.2 ⟨before.length, _, _, rest, firstLocatedAt_append hdigit hlast h,
    ⟨hvalue file, hfile⟩, ⟨hvalue line, hline⟩, rfl⟩

/-! ### What is said -/

/-- A column is no part of what is said. -/
theorem dropColumn_column (column : Nat) (rest : List Char) :
    dropColumn ('(' :: ((toString column).toList ++ ')' :: rest)) = rest := by
  have hdigits : ∀ c ∈ (toString column).toList, c.isDigit = true := fun _ => isDigit_of_mem_toString
  have hmark : ')' ∉ (toString column).toList := fun h => absurd (hdigits _ h) (by decide)
  rw [dropColumn, Text.cutAt?_singleton hmark]
  dsimp only
  rw [if_pos (List.all_eq_true.2 hdigits)]

section Messages

variable {message : List Char} (h : ∀ c ∈ message.head?, c ≠ ':' ∧ c ≠ ' ')
include h

theorem dropWhile_separators : (':' :: ' ' :: message).dropWhile (fun c => c == ':' || c == ' ') =
    message := by
  rw [List.dropWhile_cons_of_pos (by decide), List.dropWhile_cons_of_pos (by decide)]
  cases message with
  | nil => rfl
  | cons c message =>
    obtain ⟨hcolon, hblank⟩ := h c rfl
    rw [List.dropWhile_cons_of_neg (by simp [hcolon, hblank])]

theorem trimMessage_colon : trimMessage (':' :: ' ' :: message) = message := by
  rw [trimMessage, Text.trimStart_cons (by decide)]
  exact dropWhile_separators h

theorem trimMessage_blank : trimMessage (' ' :: ':' :: ' ' :: message) = message := by
  rw [trimMessage, Text.trimStart, List.dropWhile_cons_of_pos (by decide)]
  exact trimMessage_colon h

theorem trimMessage_column (column : Nat) :
    trimMessage ('(' :: ((toString column).toList ++ ')' :: ':' :: ' ' :: message)) = message := by
  rw [trimMessage, Text.trimStart_cons (by decide), dropColumn_column]
  exact dropWhile_separators h

end Messages

/-! ### Logs of compilers -/

/-- How compilers write a file, a line and a column in front of what they say. -/
def logLeads (file line column : Nat) : List String :=
  [s!"{file}:{line}: ", s!"{file}:{line}({column}): ", s!"{file}({line}) : "]

theorem locates_colon (file line : Nat) {rest : List Char}
    (hrest : ∀ c ∈ rest.head?, c.isDigit = false) :
    Locates ((toString file).toList ++ ':' :: ((toString line).toList ++ rest))
      ((toString file).toList, (toString line).toList, rest) :=
  .colon (isNumeral_toString file) (isNumeral_toString line) hrest

/-- Every form in which a compiler writes a location is one, with nothing but what is said behind
it. -/
theorem exists_locates_of_mem_logLeads {file line column : Nat} {lead : String}
    (hlead : lead ∈ logLeads file line column) {message : List Char}
    (h : ∀ c ∈ message.head?, c ≠ ':' ∧ c ≠ ' ') : ∃ rest,
    Locates (lead.toList ++ message) ((toString file).toList, (toString line).toList, rest) ∧
      trimMessage rest = message := by
  simp only [logLeads, List.mem_cons, List.not_mem_nil, or_false] at hlead
  obtain rfl | rfl | rfl := hlead
  · refine ⟨':' :: ' ' :: message, ?_, trimMessage_colon h⟩
    have htext : (s!"{file}:{line}: ").toList ++ message =
        (toString file).toList ++ ':' :: ((toString line).toList ++ ':' :: ' ' :: message) := by
      simp only [String.toList_append, List.append_assoc]
      rfl
    rw [htext]
    exact locates_colon file line (by simp)
  · refine ⟨'(' :: ((toString column).toList ++ ')' :: ':' :: ' ' :: message), ?_,
      trimMessage_column h column⟩
    have htext : (s!"{file}:{line}({column}): ").toList ++ message =
        (toString file).toList ++ ':' :: ((toString line).toList ++
          '(' :: ((toString column).toList ++ ')' :: ':' :: ' ' :: message)) := by
      simp only [String.toList_append, List.append_assoc]
      rfl
    rw [htext]
    exact locates_colon file line (by simp)
  · refine ⟨' ' :: ':' :: ' ' :: message, ?_, trimMessage_blank h⟩
    have htext : (s!"{file}({line}) : ").toList ++ message =
        (toString file).toList ++ '(' :: ((toString line).toList ++
          ')' :: ' ' :: ':' :: ' ' :: message) := by
      simp only [String.toList_append, List.append_assoc]
      rfl
    rw [htext]
    exact .parens (isNumeral_toString file) (isNumeral_toString line)

/-- A log line that a compiler writes is about the file and the line that it names, and any line
is about the first location in it, or about nothing. -/
theorem log_lines_are_located :
    (∀ (file line column : Nat) (before message : List Char),
      file < UInt64.size → line < UInt64.size →
      (∀ c ∈ before, c.isDigit = false) → (∀ c ∈ before.getLast?, c.isAlpha = false) →
      (∀ c ∈ message.head?, c ≠ ':' ∧ c ≠ ' ') →
      ∀ lead ∈ logLeads file line column,
        locate? (before ++ (lead.toList ++ message)) = some (file, line, message)) ∧
    ∀ (cs : List Char) (file line : Nat) (message : List Char),
      locate? cs = some (file, line, message) ↔ ∃ (i : Nat) (fs ls rest : List Char),
        FirstLocatedAt true cs i (fs, ls, rest) ∧
        (Nat.ofDigitChars 10 fs 0 = file ∧ file < UInt64.size) ∧
        (Nat.ofDigitChars 10 ls 0 = line ∧ line < UInt64.size) ∧ message = trimMessage rest := by
  refine ⟨fun file line column before message hfile hline hdigit hlast hmessage lead hlead => ?_,
    fun cs file line message => locate?_eq_some_iff⟩
  obtain ⟨rest, hlocates, hrest⟩ := exists_locates_of_mem_logLeads hlead hmessage
  rw [locate?_append hdigit hlast hfile hline hlocates, hrest]

theorem log_lines_are_located_error :
    ∀ lead ∈ ["2:41: ", "2:41(7): ", "2(41) : "],
      locate? ("ERROR: ".toList ++ (lead.toList ++ "undeclared 'x'".toList)) =
        some (2, 41, "undeclared 'x'".toList) := by
  have hdigit : ∀ c ∈ "ERROR: ".toList, c.isDigit = false := by simp
  have hlast : ∀ c ∈ "ERROR: ".toList.getLast?, c.isAlpha = false := by
    rintro _ ⟨⟩
    rfl
  have hmessage : ∀ c ∈ "undeclared 'x'".toList.head?, c ≠ ':' ∧ c ≠ ' ' := by
    rintro _ ⟨⟩
    decide
  exact log_lines_are_located.1 2 41 7 _ _ (by decide) (by decide) hdigit hlast hmessage

end AudioShader
