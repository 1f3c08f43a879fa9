/-
  A PLACE IN A TEXT with its line and column.

  The block style of the markup is a matter of columns, so whatever reads it has to know where it
  stands.  Lines end at a line feed, at NEL and at the two separators of Unicode; a byte-order
  mark takes no column.
-/

namespace Bindery.Markup

/-! ## Classes of characters -/

/-- The characters that end a line. -/
def isBreak (c : Char) : Bool :=
  c == '\n' || c.toNat == 0x85 || c.toNat == 0x2028 || c.toNat == 0x2029

/-- A space or a tab. -/
def isSpace (c : Char) : Bool := c == ' ' || c == '\t'

/-- Whether a word ends here: at a space, a tab, a line break or the end of the text. -/
def endsWord (c : Option Char) : Bool := c.all fun c => isSpace c || isBreak c

/-- Whether a line ends here. -/
def endsLine (c : Option Char) : Bool := c.all isBreak

/-- Whether a line or its next word ends here; a tab does not count. -/
def endsField (c : Option Char) : Bool := c.all fun c => c == ' ' || isBreak c

/-- The characters that a text may hold: tab, line breaks and what can be printed, leaving out
most control characters and the two code points at the end of the first plane. -/
def isAllowed (c : Char) : Bool :=
  let n := c.toNat
  n == 0x09 || n == 0x0A || n == 0x0D || (0x20 ≤ n && n ≤ 0x7E) || n == 0x85 ||
    (0xA0 ≤ n && n ≤ 0xD7FF) || (0xE000 ≤ n && n ≤ 0xFFFD) || 0x10000 ≤ n

/-! ## Cursors -/

/-- A place in a text. -/
structure Cursor where
  /-- The text from here on. -/
  rest : List Char
  /-- How many characters are ahead. -/
  ahead : Nat
  /-- How many characters are behind. -/
  index : Nat
  line : Nat
  column : Nat

namespace Cursor

/-- The start of a text. -/
def start (s : List Char) : Cursor := ⟨s, s.length, 0, 0, 0⟩

/-- The next character. -/
def peek (c : Cursor) : Option Char := c.rest.head?

/-- The character so many places ahead. -/
def peekAt (c : Cursor) (n : Nat) : Option Char := c.rest[n]?

/-- One character further. -/
def step (c : Cursor) : Cursor :=
  match c.rest with
  | [] => c
  | ch :: s =>
    if isBreak ch then ⟨s, c.ahead - 1, c.index + 1, c.line + 1, 0⟩
    else if ch.toNat == 0xFEFF then ⟨s, c.ahead - 1, c.index + 1, c.line, c.column⟩
    else ⟨s, c.ahead - 1, c.index + 1, c.line, c.column + 1⟩

/-- So many characters further. -/
def advance : Nat → Cursor → Cursor
  | 0, c => c
  | n + 1, c => advance n c.step

/-- The longest run of characters with the property, and the place behind it. -/
def takeRun (p : Char → Bool) (c : Cursor) : List Char × Cursor :=
  let run := c.rest.takeWhile p
  (run, c.advance run.length)

/-- Behind the longest run of characters with the property. -/
def skip (p : Char → Bool) (c : Cursor) : Cursor := (c.takeRun p).2

/-- Whether the next character is the given one. -/
def isAt (c : Cursor) (ch : Char) : Bool := c.peek == some ch

/-- The line break here, as it counts in a text, and the place behind it: all but the separators
of Unicode count as line feeds. -/
def lineBreak? (c : Cursor) : Option (Char × Cursor) :=
  match c.peek with
  | none => none
  | some ch =>
    if ch == '\n' || ch.toNat == 0x85 then some ('\n', c.step)
    else if isBreak ch then some (ch, c.step)
    else none

/-- Behind the line break here, if there is one. -/
def skipBreak (c : Cursor) : Cursor := (c.lineBreak?.map (·.2)).getD c

/-- Whether three equal characters stand here as a word of their own. -/
def isTriple (c : Cursor) (ch : Char) : Bool :=
  c.peek == some ch && c.peekAt 1 == some ch && c.peekAt 2 == some ch && endsWord (c.peekAt 3)

/-- Whether a mark for the start or the end of a document stands here. -/
def isDocumentMark (c : Cursor) : Bool := c.isTriple '-' || c.isTriple '.'

end Cursor

/-! ## Faults -/

/-- Why a text cannot be read. -/
inductive Fault where
  /-- The text breaks a rule of the format. -/
  | malformed
  /-- A number, a code point or a moment that its notation does not allow, or that is too long. -/
  | badNumber
  /-- A number that is too large to be computed with. -/
  | tooLarge
  /-- Nothing where a number is asked for. -/
  | emptyNumber
  /-- No word for yes or no where one is asked for. -/
  | notTruth
  /-- Something else where a moment is asked for. -/
  | notMoment
  /-- A mapping where a moment is asked for. -/
  | mappedMoment
  /-- Collections inside one another without an end, or too many. -/
  | tooDeep
  deriving DecidableEq, Repr

/-- What a fault is. -/
def Fault.message : Fault → String
  | malformed => "malformed document"
  | badNumber => "a number cannot be read"
  | tooLarge => "a number is too large"
  | emptyNumber => "a number is empty"
  | notTruth => "a truth value cannot be read"
  | notMoment => "a moment cannot be read"
  | mappedMoment => "a moment is a mapping"
  | tooDeep => "the nesting is too deep"

/-- What reading gives. -/
abbrev Reading (α : Type) := Except Fault α

/-- The answer for a text that breaks a rule. -/
def refuse {α : Type} : Reading α := .error .malformed

/-- Goes on where the condition holds. -/
def require (condition : Bool) : Reading Unit := if condition then .ok () else refuse

end Bindery.Markup
