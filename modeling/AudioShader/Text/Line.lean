/-
# Lines

A text is cut into lines in two ways: with every line keeping its terminator,
which loses nothing (`flatten_splitLines`), and without the terminators, as a
reader of logs and shaders sees them.

Key definitions: `splitLines`, `lines`, `countBreaks`.
Key theorems: `flatten_splitLines`.
-/

namespace AudioShader
namespace Text

/-- The lines of a text, each with the line feed that ends it. -/
def splitLines : List Char → List (List Char)
  | [] => []
  | c :: cs =>
    if c = '\n' then [c] :: splitLines cs
    else
      match splitLines cs with
      | [] => [[c]]
      | l :: ls => (c :: l) :: ls

/-- Cutting into lines loses nothing and adds nothing. -/
theorem flatten_splitLines : ∀ cs : List Char, (splitLines cs).flatten = cs
  | [] => rfl
  | c :: cs => by
    have ih := flatten_splitLines cs
    unfold splitLines
    split
    · simp [ih]
    · split
      · next h => rw [h] at ih; simp [← ih]
      · next l ls h => rw [h] at ih; simp only [List.flatten_cons] at ih; simp [← ih]

/-- A line without its line feed, or its carriage return and line feed. -/
def chomp (line : List Char) : List Char :=
  match line.reverse with
  | '\n' :: '\r' :: rest => rest.reverse
  | '\n' :: rest => rest.reverse
  | _ => line

/-- The lines of a text without their terminators. -/
def lines (s : String) : List (List Char) := (splitLines s.toList).map chomp

/-- The number of line feeds. -/
def countBreaks (cs : List Char) : Nat := cs.count '\n'

/-- Whether the last character is a line feed. -/
def endsLine (cs : List Char) : Bool := cs.getLast? == some '\n'

/-- Lines written one after the other, each with a line feed. -/
def unlines (ls : List String) : String := String.join (ls.map (· ++ "\n"))

end Text
end AudioShader
