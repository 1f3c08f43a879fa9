/-
  BLANKS: the white space of descriptions, and cutting text at characters.

  The set holds the white space of Unicode and the four information separators U+001C to U+001F.
  `splitWhere` is the one way texts are cut in this library: at every character with a property,
  keeping the empty pieces, so that each cut costs exactly one character.
-/
import Bindery.Text.Ranges

namespace Bindery.Text

/-- White space, as closed ranges. -/
def blankRanges : List (Nat × Nat) :=
  [(0x09, 0x0D), (0x1C, 0x20), (0x85, 0x85), (0xA0, 0xA0), (0x1680, 0x1680), (0x2000, 0x200A),
   (0x2028, 0x2029), (0x202F, 0x202F), (0x205F, 0x205F), (0x3000, 0x3000)]

/-- Whether a character is white space. -/
def isBlank (c : Char) : Bool := inRanges blankRanges c.toNat

/-! ## Trimming -/

/-- Drops the blanks in front. -/
def trimLeft (s : List Char) : List Char := s.dropWhile isBlank

/-- Drops the longest tail of items with the property. -/
def dropTail {α : Type} (p : α → Bool) : List α → List α
  | [] => []
  | a :: s =>
    match dropTail p s with
    | [] => if p a then [] else [a]
    | t => a :: t

/-- Drops the blanks at the end. -/
def trimRight (s : List Char) : List Char := dropTail isBlank s

/-- Drops the blanks at both ends. -/
def trim (s : List Char) : List Char := trimRight (trimLeft s)

/-! ## Cutting -/

/-- The pieces between the characters with the property; a text without one is one piece. -/
def splitWhere (p : Char → Bool) : List Char → List (List Char)
  | [] => [[]]
  | c :: s =>
    if p c then [] :: splitWhere p s
    else
      match splitWhere p s with
      | [] => [[c]]
      | w :: ws => (c :: w) :: ws

/-- The pieces between the occurrences of one character. -/
def splitOn (c : Char) (s : List Char) : List (List Char) := splitWhere (· == c) s

/-- The words between blanks, with no empty word. -/
def words (s : List Char) : List (List Char) := (splitWhere isBlank s).filter (!·.isEmpty)

theorem splitWhere_ne_nil (p : Char → Bool) (s : List Char) : splitWhere p s ≠ [] := by
  cases s with
  | nil => simp [splitWhere]
  | cons c s =>
    unfold splitWhere
    split
    · simp
    · split <;> simp

end Bindery.Text
