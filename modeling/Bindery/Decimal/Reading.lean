/-
  READING DECIMALS: the double nearest to a decimal.

  A decimal far outside the range of doubles is settled by the number of its digits, so that no
  power of ten is computed that has no use.
-/

namespace Bindery.Decimal

/-- The double nearest to `digits · 10 ^ exponent`. -/
def toFloat (digits : Nat) (exponent : Int) : Float :=
  let power : Int := (Nat.toDigits 10 digits).length + exponent
  if digits == 0 || power < -400 then 0.0
  else if 400 < power then 1.0 / 0.0
  else Float.ofScientific digits (decide (exponent < 0)) exponent.natAbs

/-- The number that ASCII digits write in a base up to sixteen; other characters count as
nothing. -/
def ofDigits (base : Nat) (ds : List Char) : Nat :=
  ds.foldl (fun n d =>
    let v :=
      if d.isDigit then d.toNat - 0x30
      else if 'a' ≤ d && d ≤ 'f' then d.toNat - 0x57
      else if 'A' ≤ d && d ≤ 'F' then d.toNat - 0x37
      else 0
    base * n + v) 0

end Bindery.Decimal
