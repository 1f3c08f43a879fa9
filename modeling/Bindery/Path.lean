/-
  PATHS: names of files, in one normal form.

  A path is where it starts and the names it leads through.  Empty names and `.` are dropped, so
  `./a//b` and `a/b` are one path; `..` is kept, because what it leads to depends on the disk.
  Exactly two slashes at the front are a start of their own, any other number of them is one.
-/
import Bindery.Text.Blank

namespace Bindery

/-- Where a path starts. -/
inductive Anchor where
  /-- The working directory. -/
  | here
  /-- The root. -/
  | root
  /-- The root, written with two slashes. -/
  | doubleRoot
  deriving DecidableEq, Repr

/-- How a start is written. -/
def Anchor.toString : Anchor → String
  | here => ""
  | root => "/"
  | doubleRoot => "//"

/-- A path in normal form. -/
structure Path where
  anchor : Anchor
  names : List String
  deriving DecidableEq, Repr

namespace Path

/-! ## From and to text -/

/-- Whether a piece is a name: the empty piece and the single dot are none. -/
def isName (piece : List Char) : Bool := !(piece.isEmpty || piece == ['.'])

/-- The start of a path that is written so. -/
def anchorOf (s : List Char) : Anchor :=
  match (s.takeWhile (· == '/')).length with
  | 0 => .here
  | 2 => .doubleRoot
  | _ => .root

/-- The path that a text stands for. -/
def ofString (s : String) : Path where
  anchor := anchorOf s.toList
  names := ((Text.splitOn '/' s.toList).filter isName).map String.ofList

/-- The path as text; the working directory itself is a dot. -/
def toString (p : Path) : String :=
  if p.anchor = .here ∧ p.names = [] then "."
  else p.anchor.toString ++ "/".intercalate p.names

/-! ## Parts -/

/-- Whether a path starts at a root. -/
def isAbsolute (p : Path) : Bool := p.anchor ≠ .here

/-- Whether a disk can have the path: no name has a NUL in it. -/
def isUsable (p : Path) : Bool := p.names.all fun name => !name.toList.contains '\x00'

/-- The last name; empty where there is none. -/
def name (p : Path) : String := p.names.getLast?.getD ""

/-- The parts that paths are compared by: the start, where there is one, and the names. -/
def parts (p : Path) : List String :=
  if p.anchor = .here then p.names else p.anchor.toString :: p.names

/-- The text from the last dot on.  A dot at either end of the name starts no suffix. -/
def suffix (p : Path) : String :=
  let reversed := p.name.toList.reverse
  let tail := reversed.takeWhile (· != '.')
  let head := (reversed.dropWhile (· != '.')).drop 1
  if tail.isEmpty || head.isEmpty then "" else String.ofList ('.' :: tail.reverse)

/-- The path without its last name. -/
def parent (p : Path) : Path := ⟨p.anchor, p.names.dropLast⟩

/-- A path behind another; one with a start of its own stands alone. -/
def join (p q : Path) : Path :=
  if q.isAbsolute then q else ⟨p.anchor, p.names ++ q.names⟩

/-- A path with what a text adds to it. -/
def child (p : Path) (s : String) : Path := p.join (ofString s)

/-! ## Order -/

/-- Whether a path does not stand behind another: part by part, each by its code points. -/
def notAfter (p q : Path) : Bool := !(q.parts < p.parts)

/-- Puts a path before the first one that it does not stand behind. -/
def insert (p : Path) : List Path → List Path
  | [] => [p]
  | q :: qs => if p.notAfter q then p :: q :: qs else q :: insert p qs

/-- Paths in order. -/
def sort (ps : List Path) : List Path := ps.foldr insert []

end Path

end Bindery
