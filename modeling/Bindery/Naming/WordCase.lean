/-
  WORD CASE: one name in the spellings of several languages.

  A declared name is in camel case.  Its snake case has an underscore at every word boundary, and
  the boundaries are found by two rules: before the last capital of a run that is followed by a
  small letter (`HTTPKey` is `http_key`), and between a small letter or digit and a capital
  (`authKey2Id` is `auth_key2_id`).  Only ASCII letters make boundaries; the case of every other
  letter is mapped all the same.
-/
import Bindery.Text.LetterCase

namespace Bindery.Naming

/-- Ends a run of capitals before its last one, where a small letter follows it. -/
def splitRuns : List Char → List Char
  | a :: b :: c :: s =>
    if a.isUpper && b.isUpper && c.isLower then a :: '_' :: splitRuns (b :: c :: s)
    else a :: splitRuns (b :: c :: s)
  | s => s

/-- Parts a capital from a small letter or digit in front of it. -/
def splitHumps : List Char → List Char
  | a :: b :: s =>
    if (a.isLower || a.isDigit) && b.isUpper then a :: '_' :: splitHumps (b :: s)
    else a :: splitHumps (b :: s)
  | s => s

/-- The words of a name, in small letters, with underscores between them. -/
def snakeCase (name : String) : String :=
  String.ofList (Text.lower (splitHumps (splitRuns name.toList)))

/-- A text in capitals. -/
def upper (s : String) : String := String.ofList (Text.upper s.toList)

/-- A text in small letters. -/
def lower (s : String) : String := String.ofList (Text.lower s.toList)

/-- The words of a name, in capitals, with underscores between them. -/
def constantCase (name : String) : String := upper (snakeCase name)

/-- A name with its first letter in capitals. -/
def capitalize (name : String) : String :=
  match name.toList with
  | [] => name
  | c :: s => String.ofList (Text.upperChar c ++ s)

/-- A name with its first letter small. -/
def uncapitalize (name : String) : String :=
  match name.toList with
  | [] => name
  | c :: s => String.ofList (Text.lowerChar c ++ s)

end Bindery.Naming
