/-
  TYPES of nodes: what the markup calls the meaning of a text or collection.

  A node has the type that its tag names.  One without a tag has the type of its form: a collection
  is a list or a map, a text in quotes a text, and a plain one nothing, a truth value, a number or a
  moment if it looks like one.  Whole numbers may be binary, octal (a leading zero), decimal,
  hexadecimal or in base sixty; floating-point numbers need a point.  Underscores between digits
  mean nothing.
-/
import Bindery.Markup.Numeral
import Bindery.Markup.Timestamp
import Bindery.Text.CodePoint

namespace Bindery.Markup

/-- The types of nodes. -/
inductive Tag where
  | null
  | bool
  | int
  | float
  | binary
  | moment
  | text
  /-- The mark of an entry whose value brings entries of its own. -/
  | merge
  /-- The mark of a default value. -/
  | default
  | sequence
  | mapping
  | set
  /-- Pairs in order, which ought to have different keys. -/
  | omap
  /-- Pairs in order. -/
  | pairs
  | unknown
  deriving DecidableEq, Repr

/-! ## Names -/

/-- Where the tags of the format are. -/
def standardTags : String := "tag:yaml.org,2002:"

/-- The types and their names. -/
def Tag.names : List (String × Tag) :=
  [("null", null), ("bool", bool), ("int", int), ("float", float), ("binary", binary),
    ("timestamp", moment), ("str", text), ("merge", merge), ("value", default),
    ("seq", sequence), ("map", mapping), ("set", set), ("omap", omap), ("pairs", pairs)]

/-- The type that a tag names. -/
def Tag.ofName (name : List Char) : Tag :=
  ((names.find? fun x => (standardTags ++ x.1).toList == name).map (·.2)).getD unknown

/-! ## Words -/

/-- The words for nothing. -/
def nullWords : List String := ["", "~", "null", "Null", "NULL"]

/-- The words for yes, in small letters. -/
def trueWords : List String := ["yes", "true", "on"]

/-- The words for no, in small letters. -/
def falseWords : List String := ["no", "false", "off"]

/-- A word in small letters, capitalised, and in capitals. -/
def wordForms (w : String) : List String :=
  match w.toList with
  | [] => []
  | c :: s =>
    let up := s.map Char.toUpper
    [w, String.ofList (c.toUpper :: s), String.ofList (c.toUpper :: up)]

/-- Whether a text looks like a truth value. -/
def isTruth (s : String) : Bool := ((trueWords ++ falseWords).flatMap wordForms).contains s

/-! ## Numbers -/

/-- A digit or an underscore. -/
def isDigitMark (c : Char) : Bool := c.isDigit || c == '_'

/-- A piece of a number in base sixty behind the first one. -/
def isSixtieth : List Char → Bool
  | [d] => d.isDigit
  | [c, d] => '0' ≤ c && c ≤ '5' && d.isDigit
  | _ => false

/-- Whether the pieces are a number in base sixty whose first one has the given form. -/
def isSexagesimal (first : List Char → Bool) : List (List Char) → Bool
  | p :: q :: ps => first p && isSixtieth q && ps.all isSixtieth
  | _ => false

/-- A first digit that is not zero, and digits behind it. -/
def isCounting : List Char → Bool
  | c :: s => '1' ≤ c && c ≤ '9' && s.all isDigitMark
  | [] => false

/-- Whether a text is a whole number, without its sign. -/
def isNatural : List Char → Bool
  | ['0'] => true
  | '0' :: 'b' :: s => !s.isEmpty && s.all fun c => c == '0' || c == '1' || c == '_'
  | '0' :: 'x' :: s =>
    !s.isEmpty && s.all fun c =>
      c.isDigit || ('a' ≤ c && c ≤ 'f') || ('A' ≤ c && c ≤ 'F') || c == '_'
  | '0' :: s => !s.isEmpty && s.all fun c => ('0' ≤ c && c ≤ '7') || c == '_'
  | s => isCounting s || isSexagesimal isCounting (Text.splitOn ':' s)

/-- Whether a text is an exponent, or nothing. -/
def isExponent : List Char → Bool
  | [] => true
  | e :: sign :: ds =>
    (e == 'e' || e == 'E') && (sign == '-' || sign == '+') && !ds.isEmpty && ds.all Char.isDigit
  | _ => false

/-- A digit, and digits behind it. -/
def isDigits : List Char → Bool
  | c :: s => c.isDigit && s.all isDigitMark
  | [] => false

/-- The text in front of the first point, and the text behind it. -/
def atPoint? (s : List Char) : Option (List Char × List Char) :=
  match s.dropWhile (· != '.') with
  | _ :: behind => some (s.takeWhile (· != '.'), behind)
  | [] => none

/-- The words for infinity behind the point. -/
def infinityWords : List String := ["inf", "Inf", "INF"]

/-- The words for what is not a number behind the point. -/
def nanWords : List String := ["nan", "NaN", "NAN"]

/-- Whether a text is a floating-point number. -/
def isFloat (s : List Char) : Bool :=
  let (_, magnitude) := Numeral.unsigned s
  let signed := magnitude.length != s.length
  match atPoint? magnitude with
  | none => false
  | some (whole, behind) =>
    let word := String.ofList behind
    let fraction := behind.takeWhile isDigitMark
    let exponent := behind.dropWhile isDigitMark
    if whole.isEmpty then
      infinityWords.contains word || (!signed && nanWords.contains word) ||
        (!signed && isDigits fraction && isExponent exponent)
    else
      (isDigits whole && isExponent exponent) ||
        (isSexagesimal isDigits (Text.splitOn ':' whole) && exponent.isEmpty)

/-! ## Forms -/

/-- The type that the form of a text gives it. -/
def Tag.ofChars (s : List Char) : Tag :=
  let line := Timestamp.withoutFeed s
  let word := String.ofList line
  if isTruth word then bool
  else if isFloat line then float
  else if isNatural (Numeral.unsigned line).2 then int
  else if line == ['<', '<'] then merge
  else if nullWords.contains word then null
  else if Timestamp.isPlain s then moment
  else if line == ['='] then default
  else text

/-- The type that the form of a text gives it, by its code points. -/
def Tag.ofForm (ps : List Nat) : Tag := ((Text.ofPoints? ps).map ofChars).getD text

end Bindery.Markup
