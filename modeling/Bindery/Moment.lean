/-
  MOMENTS: days, and points in time on a day.

  The calendar is the Gregorian one, also for the time before it was made, from the year 1 to the
  year 9999.  A point in time may tell how far its clock is from the world's, in minutes; two that
  both tell are the same if they are the same instant.
-/
import Bindery.Decimal.Notation

namespace Bindery

/-! ## Days -/

/-- A day of the calendar. -/
structure Day where
  year : Nat
  month : Nat
  day : Nat
  deriving DecidableEq, Repr

namespace Day

/-- Whether a year has a day more. -/
def isLeap (year : Nat) : Bool := year % 4 == 0 && (year % 100 != 0 || year % 400 == 0)

/-- How many days a month has. -/
def monthLength (year month : Nat) : Nat :=
  if month = 2 then if isLeap year then 29 else 28
  else if month ∈ [4, 6, 9, 11] then 30
  else 31

/-- The day with these numbers, if the calendar has it. -/
def of? (year month day : Nat) : Option Day :=
  if 1 ≤ year ∧ year ≤ 9999 ∧ 1 ≤ month ∧ month ≤ 12 ∧ 1 ≤ day ∧ day ≤ monthLength year month then
    some ⟨year, month, day⟩
  else none

/-- How many days lie before a day of its year. -/
def inYear (d : Day) : Nat :=
  (List.range (d.month - 1)).foldl (fun n m => n + monthLength d.year (m + 1)) (d.day - 1)

/-- How many days lie before a day, from the first day of the year 1 on. -/
def number (d : Day) : Nat :=
  let years := d.year - 1
  365 * years + years / 4 - years / 100 + years / 400 + d.inYear

end Day

/-! ## Points in time -/

/-- A time of day. -/
structure Clock where
  hour : Nat
  minute : Nat
  second : Nat
  microsecond : Nat
  deriving DecidableEq, Repr

/-- The time of day with these numbers, if a clock shows it. -/
def Clock.of? (hour minute second microsecond : Nat) : Option Clock :=
  if hour < 24 ∧ minute < 60 ∧ second < 60 ∧ microsecond < 1000000 then
    some ⟨hour, minute, second, microsecond⟩
  else none

/-- A day, or a point in time. -/
inductive Moment where
  | day (d : Day)
  /-- A time of day; `offset` is how many minutes the clock is ahead of the world's. -/
  | time (d : Day) (clock : Clock) (offset : Option Int)
  deriving DecidableEq, Repr

namespace Moment

/-- The minutes of a day. -/
def dayMinutes : Nat := 1440

/-- The point in time with these parts; its clock is less than a day off. -/
def time? (d : Day) (clock : Clock) (offset : Option Int) : Option Moment :=
  if offset.all (·.natAbs < dayMinutes) then some (.time d clock offset) else none

/-- The microseconds from the start of the calendar to a point in time, by its own clock. -/
def microseconds (d : Day) (c : Clock) : Int :=
  (((d.number * 24 + c.hour) * 60 + c.minute) * 60 + c.second) * 1000000 + c.microsecond

/-- Whether two moments are the same.  A day is no point in time, and points in time are
compared only if both or none tell how far their clock is off. -/
def same : Moment → Moment → Bool
  | day a, day b => a == b
  | time a c none, time b d none => a == b && c == d
  | time a c (some m), time b d (some n) =>
    microseconds a c - m * 60000000 == microseconds b d - n * 60000000
  | _, _ => false

/-! ## Text -/

/-- A number with leading zeros. -/
def padded (width n : Nat) : String :=
  let digits := Decimal.digitsOf n
  String.ofList (List.replicate (width - digits.length) '0' ++ digits)

/-- A day as text. -/
def dayText (d : Day) : String :=
  padded 4 d.year ++ "-" ++ padded 2 d.month ++ "-" ++ padded 2 d.day

/-- A time of day as text; microseconds are there only if they are not zero. -/
def clockText (c : Clock) : String :=
  padded 2 c.hour ++ ":" ++ padded 2 c.minute ++ ":" ++ padded 2 c.second ++
    (if c.microsecond = 0 then "" else "." ++ padded 6 c.microsecond)

/-- How far a clock is off, as text. -/
def offsetText (minutes : Int) : String :=
  (if minutes < 0 then "-" else "+") ++ padded 2 (minutes.natAbs / 60) ++ ":" ++
    padded 2 (minutes.natAbs % 60)

/-- A moment as text. -/
def text : Moment → String
  | day d => dayText d
  | time d c offset =>
    dayText d ++ " " ++ clockText c ++ ((offset.map offsetText).getD "")

/-! ## Literals -/

/-- The parts of a time of day in a literal: seconds and microseconds are left out at the end
where they are zero. -/
def clockParts (c : Clock) : List Nat :=
  [c.hour, c.minute] ++
    if c.microsecond ≠ 0 then [c.second, c.microsecond]
    else if c.second ≠ 0 then [c.second]
    else []

/-- The literal of how far a clock is off: whole days and the seconds that are added to them. -/
def offsetLiteral (minutes : Int) : String :=
  if minutes = 0 then "datetime.timezone.utc"
  else
    let seconds := (minutes % dayMinutes) * 60
    "datetime.timezone(datetime.timedelta(" ++ (if minutes < 0 then "days=-1, " else "") ++
      "seconds=" ++ Decimal.integer seconds ++ "))"

/-- Numbers with commas. -/
def numbers (ns : List Nat) : String :=
  ", ".intercalate (ns.map fun (n : Nat) => Decimal.integer n)

/-- The literal of a moment. -/
def literal : Moment → String
  | day d => "datetime.date(" ++ numbers [d.year, d.month, d.day] ++ ")"
  | time d c offset =>
    "datetime.datetime(" ++ numbers ([d.year, d.month, d.day] ++ clockParts c) ++
      ((offset.map fun m => ", tzinfo=" ++ offsetLiteral m).getD "") ++ ")"

end Moment

end Bindery
