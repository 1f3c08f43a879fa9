/-
  SHORTEST DECIMALS: the fewest digits that read back as the same binary fraction.

  A positive double is `mantissa · 2 ^ exponent`.  The reals that round to it form an interval
  whose ends lie half a step away (a quarter below a power of two), and the ends belong to it
  exactly when the mantissa is even.  For 1, 2, … 17 digits the two neighbours of the value on
  that decimal grid are tested against the interval in exact arithmetic; the first grid with a
  hit wins, and of two hits the nearer one, on a tie the even one.
-/
import Bindery.Decimal.Double

namespace Bindery.Decimal

/-! ## The rounding interval, in quarter steps -/

namespace Dyadic

/-- Four times the value, over `2 ^ unit`. -/
def mid (d : Dyadic) : Nat := 4 * d.mantissa

/-- The lower end of the interval. -/
def low (d : Dyadic) : Nat := 4 * d.mantissa - (if d.narrowBelow then 1 else 2)

/-- The upper end of the interval. -/
def high (d : Dyadic) : Nat := 4 * d.mantissa + 2

/-- The exponent of a quarter step. -/
def unit (d : Dyadic) : Int := d.exponent - 2

/-- Compares `n · 10 ^ k` with `q` quarter steps. -/
def compareGrid (d : Dyadic) (n : Nat) (k : Int) (q : Nat) : Ordering :=
  compare (n * scale 10 k * scale 2 (-d.unit)) (q * scale 2 d.unit * scale 10 (-k))

/-- Whether `n · 10 ^ k` rounds to the value. -/
def roundsTo (d : Dyadic) (n : Nat) (k : Int) : Bool :=
  let ends := d.mantissa % 2 == 0
  (match d.compareGrid n k d.low with
    | .gt => true
    | .eq => ends
    | .lt => false) &&
  match d.compareGrid n k d.high with
  | .lt => true
  | .eq => ends
  | .gt => false

/-- The grid point of `10 ^ k` at or below the value. -/
def below (d : Dyadic) (k : Int) : Nat :=
  d.mid * scale 2 d.unit * scale 10 (-k) / (scale 10 k * scale 2 (-d.unit))

/-- The power of ten at or below the value: the grid of `10 ^ -400` is finer than every double. -/
def magnitude (d : Dyadic) : Int := ((Nat.toDigits 10 (d.below (-400))).length : Int) - 401

/-- The neighbour of the value on the grid of `10 ^ k` that reads back as it, if one does. -/
def hit? (d : Dyadic) (k : Int) : Option Nat :=
  let n := d.below k
  match d.roundsTo n k, d.roundsTo (n + 1) k with
  | false, false => none
  | true, false => some n
  | false, true => some (n + 1)
  | true, true =>
    -- the middle between both neighbours, in halves of the grid
    match d.compareGrid (2 * n + 1) k (2 * d.mid) with
    | .lt => some (n + 1)
    | .gt => some n
    | .eq => some (if n % 2 == 0 then n else n + 1)

end Dyadic

/-- A positive decimal `digits · 10 ^ exponent`. -/
structure Numeral where
  /-- The digits, as a number. -/
  digits : Nat
  /-- The power of ten. -/
  exponent : Int

/-- Moves trailing zeros into the exponent, at most `fuel` of them. -/
def Numeral.strip : Nat → Numeral → Numeral
  | 0, x => x
  | fuel + 1, x =>
    if x.digits % 10 == 0 then strip fuel ⟨x.digits / 10, x.exponent + 1⟩ else x

/-- The shortest decimal that reads back as the value; seventeen digits always do. -/
def Dyadic.shortest (d : Dyadic) : Numeral :=
  let top := d.magnitude
  let found := (List.range 17).findSome? fun i =>
    let k := top - Int.ofNat i
    (d.hit? k).map fun n => (⟨n, k⟩ : Numeral)
  (found.getD ⟨d.below (top - 16), top - 16⟩).strip 20

end Bindery.Decimal
