/-
  READING a text of the description language.

  Comments go first; then statement follows statement, with blanks between them, to the end of
  the text.  The first fault ends the reading.
-/
import Bindery.Idl.Body
import Bindery.Idl.Comment

namespace Bindery.Idl

open Text

/-- The number written by digits of any script. -/
def naturalOf (digits : List Char) : Nat :=
  digits.foldl (fun n c => 10 * n + (digitValue? c).getD 0) 0

/-- The integer written by digits, perhaps behind a minus. -/
def integerOf (s : List Char) : Except Failure Int :=
  let (negative, digits) := match s with
    | '-' :: digits => (true, digits)
    | digits => (false, digits)
  if digits.length > Decimal.maxDigits then .error .numeralTooLong
  else .ok (if negative then -(naturalOf digits : Int) else naturalOf digits)

/-- The statement of an outline that starts on `line`; `lineOf` tells where the rest of the text
is. -/
def Outline.resolve (line : Nat) (lineOf : List Char → Nat) (d : Document) :
    Outline → Except Failure Statement
  | option name value =>
    if d.hasOption name then .error (.rejected line (.repeatedOption name))
    else .ok (.option name value)
  | buffer name size placement => do
    return .type ⟨name, .buffer (← integerOf size), placement⟩
  | scalar name size => do
    return .type ⟨name, .scalar (← integerOf size), none⟩
  | enum name placement body => do
    let vs ← (variants body).mapError (Failure.rejected line)
    return .type ⟨name, .enum vs, placement⟩
  | module name body behind => do
    let fs ← (functions (lineOf behind) body).mapError fun x => Failure.rejected x.1 x.2
    return .module ⟨name, fs⟩

/-- The first line of a text, without the blanks around it. -/
def firstLine (s : List Char) : List Char := trim (s.takeWhile (· != '\n'))

/-- Reads the statements of a text that starts at a statement, behind those of `d`.  The line of
a place is told by the line feeds that are still to come: `lines` is the number of lines. -/
def statements (lines : Nat) (d : Document) (s : List Char) : Except Failure Document :=
  let lineOf (rest : List Char) := lines - newlines rest
  match s with
  | [] => .ok d
  | c :: t =>
    match _h : outline.run (c :: t) with
    | none =>
      .error (.rejected (lineOf (c :: t)) (.unexpected (String.ofList (firstLine (c :: t)))))
    | some (found, rest) =>
      match found.resolve (lineOf (c :: t)) lineOf d with
      | .error e => .error e
      | .ok statement => statements lines (d.add statement) (trimLeft rest)
termination_by s.length
decreasing_by
  have := outline_advances _ _ _ _h
  have := (List.dropWhile_suffix (l := rest) isBlank).length_le
  simp only [trimLeft]
  omega

/-- The document that a text stands for. -/
def Document.read (text : List Char) : Except Failure Document :=
  let s := stripComments text
  statements (newlines s + 1) .empty (trimLeft s)

end Bindery.Idl
