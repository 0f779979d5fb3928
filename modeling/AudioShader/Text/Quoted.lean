/-
# Quoted text

How texts stand in log fields and in messages that must stay on one line: in
double quotes, with a backslash before the quote and the backslash, letters
for the common controls, and code points in hexadecimal for characters that
do not print.

Key definitions: `quoted`, `escaped`.
-/
import AudioShader.Text.Unprinted

namespace AudioShader
namespace Text

/-- The code point in lower-case hexadecimal. -/
def codePoint (c : Char) : List Char :=
  "\\u\x7b".toList ++ Nat.toDigits 16 c.toNat ++ ['\x7d']

/-- One character, with the quote marks `marks` escaped; `joining` says whether
a mark that joins its predecessor is written as its code point. -/
def escapeChar (marks : List Char) (joining : Bool) (c : Char) : List Char :=
  if c = '\x00' then ['\\', '0']
  else if c = '\t' then ['\\', 't']
  else if c = '\r' then ['\\', 'r']
  else if c = '\n' then ['\\', 'n']
  else if c = '\\' ∨ c ∈ marks then ['\\', c]
  else if joining && isJoining c then codePoint c
  else if isUnprinted c then codePoint c
  else [c]

/-- A text as log fields show it. -/
def quoted (s : String) : String :=
  String.ofList ('"' :: s.toList.flatMap (escapeChar ['"'] true) ++ ['"'])

/-- A text on one line, without quotes around it; both kinds of quote are
escaped, and of the joining marks only a leading one. -/
def escaped (s : String) : String :=
  match s.toList with
  | [] => ""
  | c :: cs =>
    String.ofList (escapeChar ['"', '\''] true c ++ cs.flatMap (escapeChar ['"', '\''] false))

end Text
end AudioShader
