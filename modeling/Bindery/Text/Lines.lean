/-
  LINES: where a text is broken into lines.

  Two rules stand side by side.  Files are read with one newline: `unifyNewlines` turns each of
  CR LF, CR and LF into LF, and only LF counts as a line after that.  A text given as an option
  is cut by `splitLines` at every line break of Unicode, and a break at the very end opens no
  further line; such a text may hold what no string can, so it is cut as code points.
-/

namespace Bindery.Text

/-- Every CR LF and every lone CR becomes LF. -/
def unifyNewlines : List Char → List Char
  | [] => []
  | '\r' :: '\n' :: s => '\n' :: unifyNewlines s
  | c :: s => (if c == '\r' then '\n' else c) :: unifyNewlines s

/-- The code points that end a line: LF, VT, FF, CR, the separators U+001C to U+001E, NEL and
the line and paragraph separators. -/
def isLineBreak (n : Nat) : Bool :=
  (0x0A ≤ n && n ≤ 0x0D) || (0x1C ≤ n && n ≤ 0x1E) || n == 0x85 || n == 0x2028 || n == 0x2029

/-- The lines of a text, without their breaks; CR LF is one break. -/
def splitLines : List Nat → List (List Nat)
  | [] => []
  | 0x0D :: 0x0A :: s => [] :: splitLines s
  | c :: s =>
    if isLineBreak c then [] :: splitLines s
    else
      match splitLines s with
      | [] => [[c]]
      | l :: ls => (c :: l) :: ls

/-- The number of line feeds in a text. -/
def newlines (s : List Char) : Nat := s.count '\n'

end Bindery.Text
