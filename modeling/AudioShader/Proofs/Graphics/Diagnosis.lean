/-
# From a log back to the lines

The log of a scan has one line for each line that is refused, `ERROR: 0:12:` and
what is wrong. Read again, it tells the file and the line that the map has for
the line of the text, and the same words (`diagnose_scan`).

Key theorems: `locate?_location`, `diagnose_scan`.
-/
import AudioShader.Proofs.Graphics.Location

namespace AudioShader

/-! ### Locations -/

/-- What stands in front of a location in a log. -/
def errorLead : List Char := ['E', 'R', 'R', 'O', 'R', ':', ' ']

/-- The line of a log for a file and a line, as digits. -/
def locationText (fs ls what : List Char) : List Char :=
  errorLead ++ (fs ++ ':' :: (ls ++ ':' :: ' ' :: what))

theorem locationText_eq (fs ls what : List Char) : locationText fs ls what =
    (errorLead ++ fs ++ [':'] ++ ls ++ [':', ' ']) ++ what := by
  simp only [locationText, List.append_assoc, List.cons_append, List.nil_append]

theorem unbroken_locationText {fs ls what : List Char} (hf : '\n' ∉ fs) (hl : '\n' ∉ ls)
    (h : '\n' ∉ what) : '\n' ∉ locationText fs ls what := by
  have h₁ : '\n' ∉ errorLead := by decide
  have h₂ : '\n' ∉ [':'] := by decide
  have h₃ : '\n' ∉ [':', ' '] := by decide
  rw [locationText_eq]
  simp only [List.mem_append, not_or]
  exact ⟨⟨⟨⟨⟨h₁, hf⟩, h₂⟩, hl⟩, h₃⟩, h⟩

theorem getLast?_locationText (fs ls : List Char) {what : List Char} (h : what ≠ []) :
    (locationText fs ls what).getLast? = what.getLast? := by
  rw [locationText_eq, List.getLast?_append_of_ne_nil _ h]

/-- A log line begins with a letter. -/
theorem head?_locationText (fs ls what : List Char) :
    ∃ rest, locationText fs ls what = 'E' :: rest := ⟨_, rfl⟩

/-- What a location is read from is read back. -/
theorem locate?_location {file line : Nat} (hf : file < UInt64.size) (hl : line < UInt64.size)
    (rest : List Char) :
    locate? (locationText (toString file).toList (toString line).toList ('\'' :: rest)) =
      some (file, line, '\'' :: rest) := by
  have hdigit : ∀ c ∈ errorLead, c.isDigit = false := by simp [errorLead]
  have hlast : ∀ c ∈ errorLead.getLast?, c.isAlpha = false := by simp [errorLead]
  have hlocates : Locates ((toString file).toList ++ ':' ::
      ((toString line).toList ++ ':' :: ' ' :: '\'' :: rest)) _ := locates_colon file line (by simp)
  rw [locationText, locate?_append hdigit hlast hf hl hlocates, trimMessage_colon (by simp)]

/-! ### What is said -/

theorem mem_of_mem_trim {cs : List Char} {c : Char} (h : c ∈ Text.trim cs) : c ∈ cs := by
  have h₁ := (List.dropWhile_sublist _).subset (List.mem_reverse.1 h)
  exact (List.dropWhile_sublist _).subset (List.mem_reverse.1 h₁)

/-- A trimmed text does not end with a blank. -/
theorem isBlank_of_getLast?_trim {cs : List Char} {c : Char} (h : (Text.trim cs).getLast? = some c) :
    Text.isBlank c = false := by
  rw [Text.trim, Text.trimEnd, Text.dropEnd, List.getLast?_reverse] at h
  have := List.head?_dropWhile_not Text.isBlank (Text.trimStart cs).reverse
  rw [h] at this
  simpa using this

theorem message_of_ofText {cs message : List Char} (h : ShaderLine.ofText cs = .error message) :
    ∃ rest, Text.after? "#error".toList cs = some rest ∧ message = Text.trim rest := by
  unfold ShaderLine.ofText at h
  split at h
  · cases h
  · split at h
    · next rest hr =>
      cases h
      exact ⟨rest, hr, rfl⟩
    · split at h <;> cases h

theorem declared?_of_ofText {cs : List Char} {type : ValueType} {name : String}
    (h : ShaderLine.ofText cs = .uniform type name) : declared? cs = some (type, name) := by
  unfold ShaderLine.ofText at h
  split at h
  · cases h
  · split at h
    · cases h
    · split at h
      · next hd =>
        cases h
        exact hd
      · cases h

/-- What is wrong with a line is told in quotes, on one line. -/
theorem offence?_text {earlier : List (List Char)} {line : List Char} {what : String}
    (hl : '\n' ∉ line) (h : offence? earlier line = some what) :
    (∃ rest, what.toList = '\'' :: rest) ∧ '\n' ∉ what.toList ∧ what.toList.getLast? ≠ some '\r' := by
  unfold offence? at h
  split at h
  · next message hm =>
    cases h
    obtain ⟨rest, hr, rfl⟩ := message_of_ofText hm
    have hn : '\n' ∉ Text.trim rest := by
      intro hmem
      have hrest := mem_of_mem_trim hmem
      have htrim : '\n' ∈ Text.trim line := by
        rw [Text.eq_append_of_after? hr]
        exact List.mem_append_right _ hrest
      exact hl (mem_of_mem_trim htrim)
    have hlist : ("'#error' : " ++ String.ofList (Text.trim rest)).toList =
        "'#error' : ".toList ++ Text.trim rest := by
      simp only [String.toList_append, String.toList_ofList]
    change (∃ _, ("'#error' : " ++ String.ofList (Text.trim rest)).toList = _) ∧
      '\n' ∉ ("'#error' : " ++ String.ofList (Text.trim rest)).toList ∧
      ("'#error' : " ++ String.ofList (Text.trim rest)).toList.getLast? ≠ _
    refine ⟨⟨_, by rw [hlist]; rfl⟩, ?_, ?_⟩
    · rw [hlist, List.mem_append, not_or]
      exact ⟨by decide, hn⟩
    · rw [hlist]
      intro hlast
      by_cases hnil : Text.trim rest = []
      · rw [hnil, List.append_nil] at hlast
        revert hlast
        decide
      · rw [List.getLast?_append_of_ne_nil _ hnil] at hlast
        exact absurd (isBlank_of_getLast?_trim hlast) (by decide)
  · next type name hu =>
    split at h
    · cases h
      have hn : '\n' ∉ name.toList := by
        intro hmem
        exact absurd (blankless_of_declared? (declared?_of_ofText hu) _ hmem) (by decide)
      have hlist : ("'" ++ name ++ "' : redefinition").toList =
          "'".toList ++ name.toList ++ "' : redefinition".toList := by
        rw [String.toList_append, String.toList_append]
      change (∃ _, ("'" ++ name ++ "' : redefinition").toList = _) ∧
        '\n' ∉ ("'" ++ name ++ "' : redefinition").toList ∧
        ("'" ++ name ++ "' : redefinition").toList.getLast? ≠ _
      refine ⟨⟨_, by rw [hlist]; rfl⟩, ?_, ?_⟩
      · rw [hlist, List.mem_append, List.mem_append, not_or, not_or]
        exact ⟨⟨by decide, hn⟩, by decide⟩
      · rw [hlist, List.getLast?_append_of_ne_nil _ (by decide)]
        decide
    · cases h
  · cases h

theorem offencesFrom_text : ∀ {earlier ls : List (List Char)} {o : Nat × String},
    (∀ line ∈ ls, '\n' ∉ line) → o ∈ offencesFrom earlier ls →
    (∃ rest, o.2.toList = '\'' :: rest) ∧ '\n' ∉ o.2.toList ∧ o.2.toList.getLast? ≠ some '\r'
  | earlier, [], o, _, h => by simp [offencesFrom] at h
  | earlier, line :: ls, o, hl, h => by
    rw [offencesFrom, List.mem_append] at h
    rcases h with h | h
    · obtain ⟨what, hw, rfl⟩ := List.mem_map.1 h
      exact offence?_text (hl line (List.mem_cons_self ..)) (by simpa using hw)
    · exact offencesFrom_text (fun l hm => hl l (List.mem_cons_of_mem _ hm)) h

/-! ### A whole log -/

theorem toList_error (f l : String) (what : String) :
    ("ERROR: " ++ f ++ ":" ++ l ++ ": " ++ what).toList =
      locationText f.toList l.toList what.toList := by
  have herror : "ERROR: ".toList = errorLead := by decide
  have hcolon : ":".toList = [':'] := by decide
  have hcolon' : ": ".toList = [':', ' '] := by decide
  rw [locationText_eq]
  simp only [String.toList_append, herror, hcolon, hcolon']

theorem toList_logLine (markers : List LineOrigin) (o : Nat × String) :
    (logLine markers o).toList =
      locationText (toString (position markers o.1).1).toList
        (toString (position markers o.1).2).toList o.2.toList :=
  toList_error _ _ _

section Logs

variable {text : String} {map : SourceMap} {o : Nat × String}

/-- Every line behind the first marker is resolved. -/
theorem isSome_resolve {n : Nat} (hfiles : ∀ m ∈ map.markers, m.file < map.files.length)
    {first : LineOrigin} (hfirst : map.markers.head? = some first) (hn : first.outputLine ≤ n) :
    (map.resolve n).isSome = true := by
  obtain ⟨m, hmem, -, hpos⟩ := position_eq hfirst hn
  rw [resolve_eq_position hfirst hn, hpos, List.getElem?_eq_getElem (hfiles m hmem)]
  rfl

/-- The log line for a line behind the first marker is traced back to it. -/
theorem ofLine_logLine (hfiles : ∀ m ∈ map.markers, m.file < map.files.length)
    (hlength : map.files.length ≤ UInt64.size)
    (hfits : ∀ m ∈ map.markers, m.line + o.1 < UInt64.size) {first : LineOrigin}
    (hfirst : map.markers.head? = some first) (hn : first.outputLine ≤ o.1)
    (hwhat : ∃ rest, o.2.toList = '\'' :: rest) :
    Diagnostic.ofLine map (logLine map.markers o).toList = ⟨map.resolve o.1, o.2⟩ := by
  obtain ⟨m, hmem, hle, hpos⟩ := position_eq hfirst hn
  obtain ⟨rest, hrest⟩ := hwhat
  have hf := hfiles m hmem
  have hl := hfits m hmem
  have hloc : locate? (logLine map.markers o).toList =
      some (m.file, m.line + (o.1 - m.outputLine), '\'' :: rest) := by
    rw [toList_logLine, hpos, hrest]
    exact locate?_location (by omega) (by omega) rest
  have htext : String.ofList ('\'' :: rest) = o.2 := by rw [← hrest, String.ofList_toList]
  rw [resolve_eq_position hfirst hn, hpos, List.getElem?_eq_getElem hf]
  unfold Diagnostic.ofLine
  rw [hloc]
  simp [SourceMap.resolveReported, List.getElem?_eq_getElem hf, htext]

/-- The diagnostics of a refused text are those of the lines that are refused, in
order, each at the line that the map resolves it to. -/
theorem diagnose_scan {log : String} (hm : Mirrors map.markers (Text.lines text))
    (hfiles : ∀ m ∈ map.markers, m.file < map.files.length)
    (hlength : map.files.length ≤ UInt64.size)
    (hfits : ∀ m ∈ map.markers, m.line + (Text.lines text).length < UInt64.size)
    (hbehind : ∀ o ∈ offences (Text.lines text),
      ∃ first, map.markers.head? = some first ∧ first.outputLine ≤ o.1)
    (h : scanFragment text = .error log) :
    diagnose log map = (offences (Text.lines text)).map fun o => ⟨map.resolve o.1, o.2⟩ := by
  have hlog : log =
      String.intercalate "\n" ((offences (Text.lines text)).map (logLine map.markers)) := by
    rw [scanFragment, errors_foldl_step hm] at h
    split at h
    · cases h
    · exact (Except.error.inj h).symm
  have htext : ∀ o ∈ offences (Text.lines text), (∃ rest, o.2.toList = '\'' :: rest) ∧
      '\n' ∉ o.2.toList ∧ o.2.toList.getLast? ≠ some '\r' := fun o ho =>
    offencesFrom_text (fun line hline => Text.unbroken_of_mem_lines hline) ho
  have hline : ∀ o ∈ offences (Text.lines text),
      Diagnostic.ofLine map (logLine map.markers o).toList = ⟨map.resolve o.1, o.2⟩ := by
    intro o ho
    obtain ⟨first, hfirst, hn⟩ := hbehind o ho
    have hle := (@lt_of_mem_offencesFrom [] _ o.1 o.2 ho).2
    refine ofLine_logLine hfiles hlength (fun m hmem => ?_) hfirst hn (htext o ho).1
    have := hfits m hmem
    simp only [List.length_nil, Nat.zero_add] at hle
    omega
  have hcut : Text.lines log =
      (offences (Text.lines text)).map fun o => (logLine map.markers o).toList := by
    rw [hlog, Text.lines_intercalate, List.map_map]
    · rfl
    · intro s hs
      obtain ⟨o, ho, rfl⟩ := List.mem_map.1 hs
      obtain ⟨⟨rest, hrest⟩, hn, hr⟩ := htext o ho
      have hne : o.2.toList ≠ [] := by rw [hrest]; simp
      rw [toList_logLine]
      obtain ⟨tail, htail⟩ := head?_locationText (toString (position map.markers o.1).1).toList
        (toString (position map.markers o.1).2).toList o.2.toList
      refine ⟨by rw [htail]; simp, ?_, ?_⟩
      · exact unbroken_locationText (unbroken_toString _) (unbroken_toString _) hn
      · rw [getLast?_locationText _ _ hne]
        exact hr
  rw [diagnose, hcut, List.filter_eq_self.2, List.map_map]
  · refine List.map_congr_left fun o ho => ?_
    rw [Function.comp_apply, hline o ho]
  · intro cs hcs
    obtain ⟨o, -, rfl⟩ := List.mem_map.1 hcs
    obtain ⟨tail, htail⟩ := head?_locationText (toString (position map.markers o.1).1).toList
      (toString (position map.markers o.1).2).toList o.2.toList
    have hb : Text.isBlank 'E' = false := by decide
    rw [toList_logLine, htail, List.all_cons, hb]
    rfl

end Logs

end AudioShader
