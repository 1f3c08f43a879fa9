/-
  DECIMAL NOTATION: how a number is spelled.

  `Spelling` holds the decisions of one format and applies them to the shortest digits.
-/
import Bindery.Decimal.Shortest

namespace Bindery.Decimal

/-- The spelling of floating-point numbers. -/
structure Spelling where
  /-- The least power of ten written without an exponent. -/
  positionalFrom : Int
  /-- The first power of ten that is written with an exponent again. -/
  positionalTo : Int
  /-- The least number of digits in an exponent. -/
  exponentDigits : Nat
  /-- What follows a whole number that is written without an exponent. -/
  wholeTail : String
  /-- The text of a value that is not a number. -/
  nan : String
  /-- The text of infinity. -/
  infinity : String

/-- The decimal digits of a number. -/
def digitsOf (n : Nat) : List Char := Nat.toDigits 10 n

/-- A whole number with its sign. -/
def integer (n : Int) : String :=
  match n with
  | .ofNat n => String.ofList (digitsOf n)
  | .negSucc n => String.ofList ('-' :: digitsOf (n + 1))

/-- The most digits of a whole number that is read or written. -/
def maxDigits : Nat := 4300

/-- Whether a whole number has no more digits than are written. -/
def isShort (n : Int) : Bool := n.natAbs < Nat.pow 10 maxDigits

/-- A whole number with its sign, unless it has too many digits. -/
def integer? (n : Int) : Option String := if isShort n then some (integer n) else none

/-- A positive decimal in the given spelling. -/
def Spelling.positive (s : Spelling) (x : Numeral) : String :=
  let digits := digitsOf x.digits
  let power := x.exponent + (digits.length : Int) - 1
  if s.positionalFrom ≤ power && power < s.positionalTo then
    if 0 ≤ x.exponent then
      String.ofList (digits ++ List.replicate x.exponent.toNat '0') ++ s.wholeTail
    else if 0 ≤ power then
      let whole := power.toNat + 1
      String.ofList (digits.take whole ++ '.' :: digits.drop whole)
    else String.ofList ('0' :: '.' :: List.replicate (-power - 1).toNat '0' ++ digits)
  else
    let fraction := match digits.drop 1 with
      | [] => []
      | rest => '.' :: rest
    let exponent := digitsOf power.natAbs
    let padding := List.replicate (s.exponentDigits - exponent.length) '0'
    let sign := if power < 0 then '-' else '+'
    String.ofList (digits.take 1 ++ fraction ++ 'e' :: sign :: padding ++ exponent)

/-- A double in the given spelling. -/
def Spelling.double (s : Spelling) : Double → String
  | .nan => s.nan
  | .infinite negative => (if negative then "-" else "") ++ s.infinity
  | .zero negative => (if negative then "-" else "") ++ "0" ++ s.wholeTail
  | .finite negative size => (if negative then "-" else "") ++ s.positive size.shortest

end Bindery.Decimal
