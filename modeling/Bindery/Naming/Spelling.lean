/-
  SPELLINGS: which texts can be names.

  Names are ASCII.  A type is in camel case with a capital in front, a module is one lower-case
  word, and functions, parameters and variants are in camel case; options hold identifiers,
  package names with dots and paths with double colons.
-/
import Bindery.Text.Blank

namespace Bindery.Naming

/-- A first character of one kind, and characters of another behind it. -/
def spelledChars (first rest : Char → Bool) : List Char → Bool
  | [] => false
  | c :: s => first c && s.all rest

/-- The same for a text. -/
def spelled (first rest : Char → Bool) (name : String) : Bool :=
  spelledChars first rest name.toList

/-! ## Declared names -/

/-- Whether a type may have the name: a capital, then letters and digits. -/
def isTypeName : String → Bool := spelled Char.isUpper Char.isAlphanum

/-- Whether a module may have the name: a small letter, then small letters and digits. -/
def isModuleName : String → Bool := spelled Char.isLower fun c => c.isLower || c.isDigit

/-- Whether a function or parameter may have the name: a small letter, then letters and digits. -/
def isMemberName : String → Bool := spelled Char.isLower Char.isAlphanum

/-- Whether a variant may have the name: a letter, then letters and digits. -/
def isVariantName : String → Bool := spelled Char.isAlpha Char.isAlphanum

/-! ## Names in options -/

/-- Letters, digits and the underscore. -/
def isIdentifierChar (c : Char) : Bool := c.isAlphanum || c == '_'

/-- A letter or the underscore. -/
def isIdentifierStart (c : Char) : Bool := c.isAlpha || c == '_'

/-- Whether a text is an identifier. -/
def isIdentifier : String → Bool := spelled isIdentifierStart isIdentifierChar

/-- The pieces of a text between double colons. -/
def pathSegments : List Char → List (List Char)
  | [] => [[]]
  | ':' :: ':' :: s => [] :: pathSegments s
  | c :: s =>
    match pathSegments s with
    | [] => [[c]]
    | w :: ws => (c :: w) :: ws

/-- Whether a text is a package name: words of small letters, digits and underscores, each with a
letter in front, between dots. -/
def isPackageName (s : String) : Bool :=
  (Text.splitOn '.' s.toList).all
    (spelledChars Char.isLower fun c => c.isLower || c.isDigit || c == '_')

/-- Whether a text is a path: identifiers between double colons. -/
def isPath (s : String) : Bool :=
  (pathSegments s.toList).all (spelledChars isIdentifierStart isIdentifierChar)

/-- The last segment of a path. -/
def lastSegment (s : String) : String :=
  String.ofList ((pathSegments s.toList).getLast?.getD [])

end Bindery.Naming
