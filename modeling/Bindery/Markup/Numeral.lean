/-
  NUMERALS: the numbers that a text is asked to be.

  Whoever asks for a number may write more than the form of a number shows: digits of any script,
  blanks around, a sign of each part.  Underscores mean nothing anywhere.  Whole numbers may be
  binary, octal (a leading zero), decimal, hexadecimal or in base sixty, where the parts may have
  any size; floating-point numbers may be in base sixty, too, and there the powers of sixty must
  not grow beyond what a floating-point number holds.
-/
import Bindery.Decimal.Notation
import Bindery.Decimal.Reading
import Bindery.Markup.Cursor
import Bindery.Text.Blank
import Bindery.Text.Digit
import Bindery.Text.LetterCase

namespace Bindery.Markup.Numeral

/-! ## Text in front of the digits -/

/-- A text without its sign, and whether that is a minus. -/
def unsigned (s : List Char) : Bool × List Char :=
  match s with
  | '-' :: s => (true, s)
  | '+' :: s => (false, s)
  | s => (false, s)

/-- A text without underscores. -/
def withoutMarks (s : List Char) : List Char := s.filter (· != '_')

/-- A character as it counts in a number: a blank as a space, a digit as that of ASCII. -/
def normal (c : Char) : Char :=
  if c.toNat < 0x80 then c
  else if Text.isBlank c then ' '
  else
    match Text.digitValue? c with
    | some v => Char.ofNat (0x30 + v)
    | none => c

/-- The blanks that may stand around a number. -/
def isMargin (c : Char) : Bool := c == ' ' || (0x09 ≤ c.toNat && c.toNat ≤ 0x0D)

/-- The characters of a number, without the blanks around. -/
def trimmed (s : List Char) : List Char :=
  ((((s.map normal).dropWhile isMargin).reverse).dropWhile isMargin).reverse

/-! ## Whole numbers -/

/-- The value of a digit in a base up to sixteen. -/
def digit? (base : Nat) (c : Char) : Option Nat :=
  let v :=
    if c.isDigit then c.toNat - 0x30
    else if 'a' ≤ c && c ≤ 'f' then c.toNat - 0x57
    else if 'A' ≤ c && c ≤ 'F' then c.toNat - 0x37
    else base
  if v < base then some v else none

/-- The letter that may stand behind a zero in front of the digits of a base. -/
def baseLetter? (base : Nat) : Option Char :=
  if base = 2 then some 'b' else if base = 8 then some 'o' else if base = 16 then some 'x' else none

/-- The digits behind a zero and the letter of the base, where these stand in front. -/
def withoutBase (base : Nat) (s : List Char) : List Char :=
  match s with
  | '0' :: c :: ds => if baseLetter? base = some c.toLower then ds else s
  | s => s

/-- A whole number in a base, with blanks around and a sign; a decimal one must not have too many
digits. -/
def inBase (base : Nat) (s : List Char) : Reading Int :=
  let (negative, s) := unsigned (trimmed s)
  let ds := withoutBase base s
  match ds.mapM (digit? base) with
  | none => .error .badNumber
  | some vs =>
    if vs.isEmpty || (base == 10 && vs.length > Decimal.maxDigits) then .error .badNumber
    else
      let n : Int := (vs.foldl (fun n v => base * n + v) 0 : Nat)
      .ok (if negative then -n else n)

/-- A number in base sixty. -/
def sixties (parts : List Int) : Int := parts.foldl (fun n p => 60 * n + p) 0

/-- The value of a whole number behind its sign. -/
def magnitude (s : List Char) : Reading Int :=
  match s with
  | [] => .error .emptyNumber
  | ['0'] => .ok 0
  | '0' :: 'b' :: ds => inBase 2 ds
  | '0' :: 'x' :: ds => inBase 16 ds
  | '0' :: ds => inBase 8 ('0' :: ds)
  | s =>
    if s.contains ':' then (Text.splitOn ':' s).mapM (inBase 10) |>.map sixties
    else inBase 10 s

/-- The whole number that a text is asked to be. -/
def integer (s : List Char) : Reading Int :=
  match withoutMarks s with
  | [] => .error .emptyNumber
  | s => do
    let (negative, s) := unsigned s
    let n ← magnitude s
    return if negative then -n else n

/-! ## Floating-point numbers -/

/-- The words for infinity. -/
def infinityWords : List (List Char) := ["inf".toList, "infinity".toList]

/-- The word for what is not a number. -/
def nanWord : List Char := "nan".toList

/-- What is not a number. -/
def nan : Float := 0.0 / 0.0

/-- Infinity. -/
def infinity : Float := 1.0 / 0.0

/-- An exponent behind its letter: digits with a sign. -/
def exponent? (s : List Char) : Option Int :=
  let (negative, ds) := unsigned s
  if ds.isEmpty || !ds.all Char.isDigit then none
  else
    let n : Int := Decimal.ofDigits 10 ds
    some (if negative then -n else n)

/-- The value of digits with a point and an exponent, both of which may be missing. -/
def decimal? (s : List Char) : Option Float := do
  let whole := s.takeWhile Char.isDigit
  let s := s.dropWhile Char.isDigit
  let (fraction, s) := match s with
    | '.' :: s => (s.takeWhile Char.isDigit, s.dropWhile Char.isDigit)
    | s => ([], s)
  let exponent ← match s with
    | [] => some 0
    | c :: s => if c == 'e' || c == 'E' then exponent? s else none
  if whole.isEmpty && fraction.isEmpty then none
  else
    return Decimal.toFloat (Decimal.ofDigits 10 (whole ++ fraction))
      (exponent - (fraction.length : Int))

/-- A floating-point number with blanks around and a sign, in small letters. -/
def float (s : List Char) : Reading Float :=
  let (negative, s) := unsigned (trimmed s)
  let x? :=
    if infinityWords.contains s then some infinity
    else if s == nanWord then some nan
    else decimal? s
  match x? with
  | none => .error .badNumber
  | some x => .ok (if negative then -x else x)

/-- How many powers of sixty a floating-point number holds, the first one being one. -/
def maxSixties : Nat := 174

/-- A number in base sixty, the last part first: each part counts with its power of sixty, rounded
on its own. -/
def floatSixties (parts : List Float) : Reading Float :=
  if parts.length > maxSixties then .error .tooLarge
  else
    .ok <| parts.zipIdx.foldl (fun x p => x + p.1 * Decimal.toFloat (Nat.pow 60 p.2) 0) 0.0

/-- A text in small letters without underscores, as a floating-point number is asked for. -/
def floatText (s : List Char) : List Char := Text.lower (withoutMarks s)

/-- Whether a text is the word of the format for what is not a number. -/
def isNanMark (s : List Char) : Bool := (unsigned (floatText s)).2 == '.' :: nanWord

/-- The floating-point number that a text is asked to be. -/
def floating (s : List Char) : Reading Float :=
  match floatText s with
  | [] => .error .emptyNumber
  | s => do
    let (negative, s) := unsigned s
    let x ←
      if s == ".inf".toList then pure infinity
      else if s == '.' :: nanWord then pure nan
      else if s.contains ':' then do
        floatSixties (← (Text.splitOn ':' s).mapM float).reverse
      else float s
    return if negative then -x else x

end Bindery.Markup.Numeral
