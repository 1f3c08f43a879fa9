/-
  CODE POINTS: texts that no string can hold.

  The first and the last half of a surrogate pair are code points without a character.  An escape
  may name one, and then the text is kept as its code points; two halves that meet are not made
  one character.  Where such a text has to be shown as it is, `joined` does pair the halves, and
  puts the replacement character where one stands alone.
-/

namespace Bindery.Text

/-- The first half of a surrogate pair. -/
def isHighHalf (n : Nat) : Bool := 0xD800 ≤ n && n < 0xDC00

/-- The last half of a surrogate pair. -/
def isLowHalf (n : Nat) : Bool := 0xDC00 ≤ n && n < 0xE000

/-- A code point without a character. -/
def isHalf (n : Nat) : Bool := isHighHalf n || isLowHalf n

/-- The code points of a text. -/
def pointsOf (s : List Char) : List Nat := s.map Char.toNat

/-- The text of code points, if each of them is a character. -/
def ofPoints? (ps : List Nat) : Option (List Char) :=
  if ps.any isHalf then none else some (ps.map Char.ofNat)

/-- The character that two halves make. -/
def pairChar (high low : Nat) : Char :=
  Char.ofNat (0x10000 + (high - 0xD800) * 0x400 + (low - 0xDC00))

/-- The character of a code point; the replacement character where there is none. -/
def pointChar (n : Nat) : Char := if isHalf n then Char.ofNat 0xFFFD else Char.ofNat n

/-- The text of code points, with halves that meet made one character. -/
def joined : List Nat → List Char
  | a :: b :: ps =>
    if isHighHalf a && isLowHalf b then pairChar a b :: joined ps
    else pointChar a :: joined (b :: ps)
  | [a] => [pointChar a]
  | [] => []

end Bindery.Text
