/-
  SOURCE LINES: generated text before it is a file.

  A line knows how deep it stands; a file is a list of lines under a banner.  `render` trims every
  line at its end and closes the text with exactly one line feed, whatever the lines are.
-/
import Bindery.Text.Blank

namespace Bindery.Source

/-- One line of a generated file. -/
structure Line where
  /-- How many blocks it stands in. -/
  depth : Nat
  text : String
  deriving DecidableEq, Repr

/-- A line that stands in no block. -/
def line (text : String) : Line := ⟨0, text⟩

/-- An empty line. -/
def gap : Line := ⟨0, ""⟩

/-- Lines that stand in no block. -/
def lines (texts : List String) : List Line := texts.map line

/-- The lines, one block deeper. -/
def indent (ls : List Line) : List Line := ls.map fun l => ⟨l.depth + 1, l.text⟩

/-- An opening brace. -/
def opening : String := "\x7b"

/-- A closing brace. -/
def closing : String := "\x7d"

/-- Lines in braces behind a head. -/
def block (head : String) (body : List Line) : List Line :=
  line (head ++ " " ++ opening) :: indent body ++ [line closing]

/-- A text in braces on one line. -/
def inBraces (text : String) : String := opening ++ " " ++ text ++ " " ++ closing

/-- A text in parentheses. -/
def inParens (text : String) : String := "(" ++ text ++ ")"

/-- A list of texts with commas. -/
def commas (texts : List String) : String := ", ".intercalate texts

/-- The line as text, four spaces a block. -/
def Line.toString (l : Line) : String :=
  String.ofList (List.replicate (4 * l.depth) ' ') ++ l.text

/-! ## Files -/

/-- A text without the blanks at its end. -/
def trimEnd (s : String) : String := String.ofList (Text.trimRight s.toList)

/-- The text of a file. -/
def render (texts : List String) : String :=
  "\n".intercalate (Text.dropTail (·.isEmpty) (texts.map trimEnd)) ++ "\n"

/-- What every file says about itself. -/
def marker : String := "AUTO-GENERATED - DO NOT EDIT"

/-- The top of a file: the header lines as comments, then the marker. -/
def banner (header : List String) (comment : String) : List String :=
  let head := header.map fun l => trimEnd (comment ++ " " ++ l)
  (if head.isEmpty then [] else head ++ [comment]) ++ [comment ++ " " ++ marker, ""]

/-- How a comment starts where nothing else is asked for. -/
def lineComment : String := "//"

/-- A file: its lines under the banner. -/
def renderFile (header : List String) (body : List Line) : String :=
  render (banner header lineComment ++ body.map Line.toString)

/-! ## File lists -/

/-- A generated file. -/
structure File where
  /-- The path below the output directory. -/
  path : String
  text : String
  /-- Whether the text can be encoded; one that was made from a text that no string can hold
  cannot. -/
  encodable : Bool
  deriving DecidableEq, Repr

/-- Adds a file at the end; one with the path of an earlier file takes its place. -/
def put (f : File) : List File → List File
  | [] => [f]
  | g :: gs => if g.path == f.path then f :: gs else g :: put f gs

/-- The files in the order in which their paths come first, each with its last text. -/
def collect (fs : List File) : List File := fs.foldl (fun gs f => put f gs) []

end Bindery.Source
