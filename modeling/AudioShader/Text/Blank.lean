/-
# Blank characters, names and trimming

The character classes that directive lines, configuration texts and shader
lines are cut by: the Unicode white space, its ASCII part, and the characters
of names; and trimming by such a class.

Key definitions: `isBlank`, `isAsciiBlank`, `isNameChar`, `trimStart`,
`trimEnd`, `trim`.
-/

namespace AudioShader
namespace Text

/-- The characters with the Unicode property White_Space. -/
def isBlank (c : Char) : Bool :=
  let n := c.toNat
  (0x09 ≤ n && n ≤ 0x0D) || n == 0x20 || n == 0x85 || n == 0xA0 || n == 0x1680 ||
    (0x2000 ≤ n && n ≤ 0x200A) || n == 0x2028 || n == 0x2029 || n == 0x202F || n == 0x205F ||
    n == 0x3000

/-- The blanks that separate words on a directive line: space, tab, line feed,
form feed and carriage return. -/
def isAsciiBlank (c : Char) : Bool :=
  c == ' ' || c == '\t' || c == '\n' || c == '\x0c' || c == '\r'

/-- A separator of words is white space. -/
theorem isBlank_of_isAsciiBlank (c : Char) (h : isAsciiBlank c = true) : isBlank c = true := by
  simp only [isAsciiBlank, Bool.or_eq_true, beq_iff_eq] at h
  rcases h with (((h | h) | h) | h) | h <;> subst h <;> decide

/-- The characters a name is made of: ASCII letters, digits and the underscore. -/
def isNameChar (c : Char) : Bool :=
  c.isAlphanum || c == '_'

/-- The characters a name starts with: no digit. -/
def isNameStart (c : Char) : Bool :=
  c.isAlpha || c == '_'

theorem isNameChar_of_isNameStart (c : Char) (h : isNameStart c = true) :
    isNameChar c = true := by
  simp only [isNameStart, isNameChar, Char.isAlphanum, Bool.or_eq_true] at *
  rcases h with h | h
  · exact Or.inl (Or.inl h)
  · exact Or.inr h

/-- A name: a letter or underscore, then letters, digits and underscores. -/
def isName (s : String) : Bool :=
  match s.toList with
  | [] => false
  | c :: cs => isNameStart c && cs.all isNameChar

/-! ### Trimming -/

/-- The text without the characters of a class at its end. -/
def dropEnd (p : Char → Bool) (cs : List Char) : List Char :=
  (cs.reverse.dropWhile p).reverse

/-- The text without leading white space. -/
def trimStart (cs : List Char) : List Char := cs.dropWhile isBlank

/-- The text without trailing white space. -/
def trimEnd (cs : List Char) : List Char := dropEnd isBlank cs

/-- The text without white space at either end. -/
def trim (cs : List Char) : List Char := trimEnd (trimStart cs)

/-- A string without white space at either end. -/
def trimmed (s : String) : String := String.ofList (trim s.toList)

theorem length_dropWhile_le (p : Char → Bool) :
    ∀ cs : List Char, (cs.dropWhile p).length ≤ cs.length
  | [] => Nat.le_refl _
  | c :: cs => by
    rw [List.dropWhile_cons]
    split
    · exact Nat.le_succ_of_le (length_dropWhile_le p cs)
    · exact Nat.le_refl _

theorem length_trimStart_le (cs : List Char) : (trimStart cs).length ≤ cs.length :=
  length_dropWhile_le isBlank cs

end Text
end AudioShader
