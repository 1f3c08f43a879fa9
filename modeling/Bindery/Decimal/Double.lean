/-
  DOUBLES: what the 64 bits of a floating-point number stand for.

  A finite double other than zero is `mantissa · 2 ^ exponent` with a sign.  Everything that is
  said about doubles in this library is said about that pair, in exact arithmetic.
-/

namespace Bindery.Decimal

/-- A power of a base; one where the exponent is negative. -/
def scale (base : Nat) (k : Int) : Nat := Nat.pow base k.toNat

/-- A positive dyadic fraction `mantissa · 2 ^ exponent` with the ends of its rounding interval. -/
structure Dyadic where
  /-- The digits in base two. -/
  mantissa : Nat
  /-- The power of two. -/
  exponent : Int
  /-- Whether the next smaller double is only half a step away. -/
  narrowBelow : Bool

/-- What the bits of a double stand for. -/
inductive Double where
  | nan
  | infinite (negative : Bool)
  | zero (negative : Bool)
  | finite (negative : Bool) (size : Dyadic)

/-- Reads the bits of a double. -/
def Double.ofBits (bits : Nat) : Double :=
  let unit := scale 2 52
  let negative := bits / unit / 2048 % 2 == 1
  let power := bits / unit % 2048
  let fraction := bits % unit
  if power == 2047 then if fraction == 0 then .infinite negative else .nan
  else if power == 0 then
    if fraction == 0 then .zero negative else .finite negative ⟨fraction, -1074, false⟩
  else .finite negative ⟨unit + fraction, Int.ofNat power - 1075, fraction == 0 && power != 1⟩

/-- The double behind a float. -/
def Double.ofFloat (x : Float) : Double := .ofBits x.toBits.toNat

/-- The whole number that a double equals, if there is one. -/
def Double.toInt? : Double → Option Int
  | .zero _ => some 0
  | .finite negative d =>
    let step := scale 2 (-d.exponent)
    if d.mantissa % step == 0 then
      let n : Int := ((d.mantissa / step * scale 2 d.exponent : Nat) : Int)
      some (if negative then -n else n)
    else none
  | _ => none

end Bindery.Decimal
