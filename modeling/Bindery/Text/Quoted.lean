/-
  QUOTED TEXT: a text as a literal on one line, as messages show it.

  The quotes are single, unless the text holds a single quote and no double one.  Inside, the
  quote in use and the backslash stand behind a backslash, line feed, carriage return and tab
  have letters, and every other character that is not printable is written by its code point in
  lower-case hexadecimal: two digits after `\x`, four after `\u`, eight after `\U`.  So is a
  code point without a character.
-/
import Bindery.Text.CodePoint
import Bindery.Text.Printable

namespace Bindery.Text

/-- A number in lower-case hexadecimal, padded with zeros to `width` digits. -/
def hexPadded (width n : Nat) : List Char :=
  let digits := Nat.toDigits 16 n
  List.replicate (width - digits.length) '0' ++ digits

/-- One character inside the quotes `q`. -/
def escapeChar (q c : Char) : List Char :=
  if c == q || c == '\\' then ['\\', c]
  else if c == '\n' then ['\\', 'n']
  else if c == '\r' then ['\\', 'r']
  else if c == '\t' then ['\\', 't']
  else if isPrintable c then [c]
  else if c.toNat < 0x100 then '\\' :: 'x' :: hexPadded 2 c.toNat
  else if c.toNat < 0x10000 then '\\' :: 'u' :: hexPadded 4 c.toNat
  else '\\' :: 'U' :: hexPadded 8 c.toNat

/-- The quote that needs the fewest escapes, the single one where both or neither would do. -/
def quoteFor (s : List Char) : Char :=
  if s.contains '\'' && !s.contains '"' then '"' else '\''

/-- The text as a literal. -/
def quoted (s : String) : String :=
  let q := quoteFor s.toList
  String.ofList (q :: s.toList.flatMap (escapeChar q) ++ [q])

/-- One code point inside the quotes `q`. -/
def escapePoint (q : Char) (n : Nat) : List Char :=
  if isHalf n then '\\' :: 'u' :: hexPadded 4 n else escapeChar q (Char.ofNat n)

/-- A text of code points as a literal. -/
def quotedPoints (ps : List Nat) : String :=
  let q := quoteFor (ps.map pointChar)
  String.ofList (q :: ps.flatMap (escapePoint q) ++ [q])

end Bindery.Text
