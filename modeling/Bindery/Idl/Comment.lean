/-
  COMMENTS of the description language.

  Two passes take them out: first every `//` with the rest of its line, then every text between
  `/*` and the next `*/`.  Both leave each line feed in place, so a line has the same number
  before and after (`newlines_stripComments`).  A `/*` that nothing closes is no comment.
-/
import Bindery.Text.Lines

namespace Bindery.Idl

/-- Removes line comments; `inside` tells that one is open. -/
def dropLineComments (inside : Bool) : List Char → List Char
  | [] => []
  | '/' :: '/' :: s => if inside then dropLineComments true ('/' :: s) else dropLineComments true s
  | c :: s =>
    if c == '\n' then c :: dropLineComments false s
    else if inside then dropLineComments true s
    else c :: dropLineComments false s

/-- Whether the end of a block comment comes. -/
def closesComment : List Char → Bool
  | [] => false
  | '*' :: '/' :: _ => true
  | _ :: s => closesComment s

/-- Removes block comments but for their line feeds; `inside` tells that one is open. -/
def dropBlockComments : Bool → List Char → List Char
  | _, [] => []
  | true, '*' :: '/' :: s => dropBlockComments false s
  | true, c :: s => if c == '\n' then c :: dropBlockComments true s else dropBlockComments true s
  | false, '/' :: '*' :: s =>
    if closesComment s then dropBlockComments true s else '/' :: '*' :: s
  | false, c :: s => c :: dropBlockComments false s

/-- A text without its comments. -/
def stripComments (s : List Char) : List Char :=
  dropBlockComments false (dropLineComments false s)

/-! ## Lines keep their numbers -/

open Text in
theorem newlines_dropLineComments (inside : Bool) (s : List Char) :
    newlines (dropLineComments inside s) = newlines s := by
  fun_induction dropLineComments inside s <;> simp_all [newlines]

open Text in
theorem newlines_dropBlockComments (inside : Bool) (s : List Char) :
    newlines (dropBlockComments inside s) = newlines s := by
  fun_induction dropBlockComments inside s <;> simp_all [newlines, List.count_cons]

/-- Taking comments out removes no line feed. -/
theorem newlines_stripComments (s : List Char) :
    Text.newlines (stripComments s) = Text.newlines s := by
  rw [stripComments, newlines_dropBlockComments, newlines_dropLineComments]

end Bindery.Idl
