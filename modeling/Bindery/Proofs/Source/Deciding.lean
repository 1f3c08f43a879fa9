/-
  HELPERS THAT DECIDE, read off their lines.

  A helper that checks something has one test and two ends: it hands on what it was given, or refuses
  it.  The test compares numbers, and may ask first whether a pointer is null; the two ends are the
  branches of the test, or the one branch that leaves early and the last line (`Given.end?`).  So what
  a helper answers to a call is told by its text: by the names of its parameters, by the comparison in
  its test and by the order of its ends (`answer?`).
-/
import Bindery.Proofs.Source.Binding

namespace Bindery.Source

open Naming

/-! ## Tests -/

/-- What the comparisons say. -/
def comparisons : List (String × (Nat → Nat → Bool)) :=
  [("<", fun a b => decide (a < b)), ("<=", fun a b => decide (a ≤ b)), (">", fun a b => decide (b < a)),
    (">=", fun a b => decide (b ≤ a)), ("==", fun a b => decide (a = b)), ("!=", fun a b => decide (a ≠ b))]

/-- What a function is given: its numbers, and which of its pointers are null. -/
structure Given where
  number : String → Option Nat
  null : String → Bool

/-- The words between blanks, without parentheses. -/
def bareWords (text : String) : List String :=
  (Text.splitOn ' ' text.toList).map fun word =>
    String.ofList (word.filter fun c => c != '(' && c != ')')

namespace Given

/-- What a condition says: one number is compared with another, or a pointer is null or something else
holds. -/
def holds? (g : Given) : List String → Option Bool
  | [x, "as", "usize", comparison, y] =>
    (comparisons.lookup comparison).bind fun compare =>
      (g.number x).bind fun a => (g.number y).map fun b => compare a b
  | pointer :: "||" :: rest =>
    if behindWord pointer = ".is_null".toList then
      (g.holds? rest).map fun b => g.null (firstWord pointer) || b
    else none
  | _ => none

/-- What the test of a line says. -/
def test? (g : Given) (text : String) : Option Bool :=
  match bareWords text with
  | "if" :: words => if words.getLast? = some "\x7b" then g.holds? words.dropLast else none
  | _ => none

/-- What a function with one test ends with. -/
def end? (g : Given) : List String → Option String
  | test :: first :: "\x7d else \x7b" :: second :: _ =>
    (g.test? test).map fun b => if b then first else second
  | test :: early :: "\x7d" :: last :: _ =>
    if "return ".toList <+: early.toList then (g.test? test).map fun b => if b then early else last
    else none
  | _ => none

/-- Whether it hands on what it was given. -/
def handsOn? (g : Given) (ls : List Line) : Option Bool :=
  (g.end? (textsWithin ls)).map fun text => decide ("Ok(".toList <+: text.toList)

section

variable {g : Given} {test early first second last : String} {texts : List String} {ls : List Line}

/-- A test with two branches, the first of which hands on. -/
theorem handsOn?_branches (h : textsWithin ls = test :: first :: "\x7d else \x7b" :: second :: texts)
    (hfirst : "Ok(".toList <+: first.toList) (hsecond : ¬ "Ok(".toList <+: second.toList) :
    g.handsOn? ls = g.test? test := by
  have hend : g.end? (textsWithin ls) = (g.test? test).map fun b => if b then first else second := by
    rw [h]
    rfl
  rw [handsOn?, hend, Option.map_map]
  cases g.test? test with
  | none => rfl
  | some b =>
    cases b with
    | false => exact congrArg some (decide_eq_false hsecond)
    | true => exact congrArg some (decide_eq_true hfirst)

/-- A test that leaves early where it holds. -/
theorem handsOn?_early (h : textsWithin ls = test :: early :: "\x7d" :: last :: texts)
    (hearly : "return ".toList <+: early.toList) (hlast : "Ok(".toList <+: last.toList) :
    g.handsOn? ls = (g.test? test).map (!·) := by
  have hend : g.end? (textsWithin ls) = (g.test? test).map fun b => if b then early else last := by
    rw [h]
    exact if_pos hearly
  have hother : ¬ "Ok(".toList <+: early.toList := by
    rintro ⟨more, hmore⟩
    rw [← hmore] at hearly
    exact absurd (List.cons_prefix_cons.1 hearly).1 (by decide)
  rw [handsOn?, hend, Option.map_map]
  cases g.test? test with
  | none => rfl
  | some b =>
    cases b with
    | false => exact congrArg some (decide_eq_true hlast)
    | true => exact congrArg some (decide_eq_false hother)

end

end Given

/-! ## Helpers -/

/-- What the first line of a helper starts with. -/
def helperHeads : List String := ["pub(crate) unsafe fn ", "pub(crate) fn "]

/-- The name of a helper, and those of its parameters. -/
def helperIn? (text : String) : Option (String × List String) :=
  (helperHeads.find? fun head => decide (head.toList <+: text.toList)).map fun head =>
    let behind := String.ofList (text.toList.drop head.toList.length)
    (firstWord behind, (parametersIn behind).filterMap parameterName?)

/-- What the helper of the lines answers to a call by the name, with such numbers and without null
pointers: whether it hands on what it was given. -/
def answer? (ls : List Line) (name : String) (values : List (Option Nat)) : Option Bool :=
  (helperIn? ((textsAt 0 ls).headD "")).bind fun helper =>
    if helper.1 = name then
      Given.handsOn? ⟨fun x => ((helper.2.zip values).lookup x).join, fun _ => false⟩ ls
    else none

end Bindery.Source
