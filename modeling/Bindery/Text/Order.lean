/-
  ORDER: texts by their code points.
-/

namespace Bindery.Text

/-- Puts a text behind the last one that is not greater. -/
def insertName (s : String) : List String → List String
  | [] => [s]
  | t :: ts => if s < t then s :: t :: ts else t :: insertName s ts

/-- Texts in the order of their code points. -/
def sortNames (names : List String) : List String := names.foldr insertName []

/-- Texts in the order of their code points, each once. -/
def sortDistinct (names : List String) : List String := sortNames names.eraseDups

end Bindery.Text
