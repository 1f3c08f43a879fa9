/-
  EVENTS: what a run says about itself while it goes on.

  An event is a fact; its text and how loudly it is said are decided here.  A console takes
  events and knows the time, so that a run can say how long it took.
-/
import Bindery.Disk.Basic
import Bindery.Value.Display

namespace Bindery

/-- How important an event is. -/
inductive Level where
  | detail
  | progress
  | fault
  deriving DecidableEq, Repr

/-- Something that happened. -/
inductive Event where
  /-- A description was read. -/
  | described (description : Path)
  /-- A description turned out to be an API with so many types, modules and functions. -/
  | checked (types modules functions : Nat)
  /-- Options were overridden. -/
  | overridden (overrides : List (String × Value))
  /-- A description was read and checked, with its options. -/
  | loaded (description : Path)
  /-- The files of a target are generated next. -/
  | emitting (target : String)
  /-- So many files of a target were generated. -/
  | emitted (target : String) (files : Nat)
  /-- A file is in its place. -/
  | generated (file : Path)
  /-- A run came to its end, so many nanoseconds after its start. -/
  | completed (nanoseconds : Nat)
  /-- A description, as it was asked for, is good. -/
  | valid (description : String) (types modules : Nat)
  /-- Something is wrong, perhaps because the disk says so. -/
  | refused (message : String) (cause : Option DiskFault)
  deriving Inhabited

namespace Event

/-- How important an event is. -/
def level : Event → Level
  | described _ | checked _ _ _ | overridden _ | emitting _ | emitted _ _ => .detail
  | loaded _ | generated _ | completed _ | valid _ _ _ => .progress
  | refused _ _ => .fault

/-- A number with a noun. -/
def count (n : Nat) (noun : String) : String := Decimal.integer n ++ " " ++ noun

/-- Milliseconds with two places, rounded from nanoseconds. -/
def milliseconds (nanoseconds : Nat) : String :=
  let hundredths := (nanoseconds + 5000) / 10000
  let places := hundredths % 100
  Decimal.integer (hundredths / 100 : Nat) ++ "." ++
    (if places < 10 then "0" else "") ++ Decimal.integer places

/-- The text of an event. -/
def text : Event → String
  | described p => "Loaded description " ++ p.toString
  | checked types modules functions =>
    "Model has " ++ count types "types" ++ ", " ++ count modules "modules" ++ ", " ++
      count functions "functions"
  | overridden os =>
    let all := Value.map (os.map fun o => (.str o.1, o.2))
    "Option overrides: " ++ (all.literal.getD "")
  | loaded p => "Loaded " ++ p.toString
  | emitting target => "Emitting " ++ target
  | emitted target files => target ++ ": " ++ count files "files"
  | generated p => "Generated: " ++ p.toString
  | completed ns => "Generation completed in " ++ milliseconds ns ++ " ms"
  | valid description types modules =>
    description ++ " is valid: " ++ count types "types" ++ ", " ++ count modules "modules"
  | refused message cause =>
    "error: " ++ message ++ ((cause.map fun e => ": " ++ e.message).getD "")

end Event

/-- Where events go. -/
class Console (m : Type → Type) where
  /-- Takes an event. -/
  note : Event → m Unit
  /-- The time in nanoseconds, from any start. -/
  now : m Nat

end Bindery
