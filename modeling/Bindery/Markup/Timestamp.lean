/-
  TIMESTAMPS: how the markup writes moments.

  A day is `2001-12-14`.  A point in time has its time of day behind a `t` or behind spaces, with a
  fraction of a second if need be, and perhaps how far the clock is off: `Z`, or hours and minutes
  with a sign.  The form alone does not make the calendar have the day; that is seen when the
  moment is asked for.
-/
import Bindery.Decimal.Reading
import Bindery.Markup.Cursor
import Bindery.Moment

namespace Bindery.Markup

/-- The numbers of a time of day, as written. -/
structure TimeNumbers where
  hour : Nat
  minute : Nat
  second : Nat
  /-- The digits behind the point. -/
  fraction : List Char
  /-- How many minutes the clock is ahead. -/
  offset : Option Int

/-- The numbers of a moment, as written. -/
structure Timestamp where
  year : Nat
  /-- The digits of the month. -/
  month : List Char
  /-- The digits of the day. -/
  day : List Char
  time : Option TimeNumbers

namespace Timestamp

/-! ## Pieces of the form -/

/-- From `least` to `most` digits, and the text behind them. -/
def digits (least most : Nat) (s : List Char) : Option (List Char × List Char) :=
  let ds := (s.take most).takeWhile Char.isDigit
  if least ≤ ds.length then some (ds, s.drop ds.length) else none

/-- A number of from `least` to `most` digits, and the text behind it. -/
def number (least most : Nat) (s : List Char) : Option (Nat × List Char) :=
  (digits least most s).map fun x => (Decimal.ofDigits 10 x.1, x.2)

/-- The text behind a character. -/
def behind (c : Char) : List Char → Option (List Char)
  | d :: s => if d = c then some s else none
  | [] => none

/-- The text behind what parts a day from a time: a `t`, or spaces. -/
def separated (s : List Char) : Option (List Char) :=
  match s with
  | 'T' :: s | 't' :: s => some s
  | s => if s.head?.any isSpace then some (s.dropWhile isSpace) else none

/-- How far a clock is off, to the end of the text; nothing at all leaves it open. -/
def offset (s : List Char) : Option (Option Int) :=
  let signed (negative : Bool) (s : List Char) : Option (Option Int) := do
    let (hours, s) ← number 1 2 s
    let minutes ← match s with
      | [] => some 0
      | s => do
        let (minutes, s) ← number 2 2 (← behind ':' s)
        if s.isEmpty then some minutes else none
    let n : Int := (60 * hours + minutes : Nat)
    return some (if negative then -n else n)
  if s.isEmpty then some none
  else
    match s.dropWhile isSpace with
    | ['Z'] => some (some 0)
    | '-' :: s => signed true s
    | '+' :: s => signed false s
    | _ => none

/-- A time of day, to the end of the text. -/
def timeOfDay (s : List Char) : Option TimeNumbers := do
  let (hour, s) ← number 1 2 s
  let (minute, s) ← number 2 2 (← behind ':' s)
  let (second, s) ← number 2 2 (← behind ':' s)
  let (fraction, s) := match s with
    | '.' :: s => (s.takeWhile Char.isDigit, s.dropWhile Char.isDigit)
    | s => ([], s)
  return { hour, minute, second, fraction, offset := ← offset s }

/-! ## Whole forms -/

/-- A text without a line feed at its end; a text that is nothing else keeps it. -/
def withoutFeed (s : List Char) : List Char :=
  if s.getLast? = some '\n' ∧ s ≠ ['\n'] then s.dropLast else s

/-- The numbers of a moment that a text writes. -/
def ofText? (s : List Char) : Option Timestamp := do
  let (year, s) ← number 4 4 (withoutFeed s)
  let (month, s) ← digits 1 2 (← behind '-' s)
  let (day, s) ← digits 1 2 (← behind '-' s)
  if s.isEmpty then return { year, month, day, time := none }
  else return { year, month, day, time := some (← timeOfDay (← separated s)) }

/-- Whether the form alone tells that a text is a moment: a day alone has to be written in full. -/
def isPlain (s : List Char) : Bool :=
  (ofText? s).any fun t => t.time.isSome || (t.month.length == 2 && t.day.length == 2)

/-! ## Moments -/

/-- How many digits of a fraction count. -/
def fractionDigits : Nat := 6

/-- The microseconds that a fraction stands for. -/
def microseconds (fraction : List Char) : Nat :=
  let ds := fraction.take fractionDigits
  Decimal.ofDigits 10 (ds ++ List.replicate (fractionDigits - ds.length) '0')

/-- The moment with the numbers, if there is one. -/
def moment? (t : Timestamp) : Option Moment := do
  let day ← Day.of? t.year (Decimal.ofDigits 10 t.month) (Decimal.ofDigits 10 t.day)
  match t.time with
  | none => return .day day
  | some n =>
    let clock ← Clock.of? n.hour n.minute n.second (microseconds n.fraction)
    Moment.time? day clock n.offset

end Timestamp

end Bindery.Markup
