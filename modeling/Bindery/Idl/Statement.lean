/-
  STATEMENTS: the outer form of what a document declares.

  A statement is recognised by its keyword and its outer form alone.  What stands between the
  braces of an enumeration or a module is taken as it is, up to the first closing brace, and read
  by rules of its own, whose faults are reported as such.
-/
import Bindery.Idl.Document
import Bindery.Idl.Reader
import Bindery.Text.Digit
import Bindery.Text.Lines

namespace Bindery.Idl

/-- A statement whose inner text is not read yet. -/
inductive Outline where
  | option (name value : String)
  | buffer (name : String) (size : List Char) (placement : Option String)
  | scalar (name : String) (size : List Char)
  | enum (name : String) (placement : Option String) (body : List Char)
  /-- A module; `behind` is the text from the start of its body on. -/
  | module (name : String) (body behind : List Char)
  deriving DecidableEq, Repr

open Reader

/-! ## Text literals -/

/-- What a character behind a backslash stands for. -/
def unescape (c : Char) : Char := if c == 'n' then '\n' else if c == 't' then '\t' else c

/-- The characters up to the closing quote, and the text behind that quote.  A backslash takes the
next character with it, which may be anything but a line feed. -/
def literalBody : List Char → Option (List Char × List Char)
  | [] => none
  | '"' :: s => some ([], s)
  | '\\' :: c :: s =>
    if c == '\n' then none else (literalBody s).map fun x => (unescape c :: x.1, x.2)
  | c :: s => if c == '\\' then none else (literalBody s).map fun x => (c :: x.1, x.2)

theorem literalBody_suffix (s a r : List Char) (h : literalBody s = some (a, r)) : r <:+ s := by
  fun_induction literalBody s generalizing a r with
  | case1 => cases h
  | case2 s =>
    obtain ⟨_, rfl⟩ := Prod.mk.inj (Option.some.inj h)
    exact List.suffix_cons _ _
  | case3 => cases h
  | case4 c s _ ih =>
    obtain ⟨⟨b, t⟩, hb, he⟩ := Option.map_eq_some_iff.1 h
    obtain ⟨_, rfl⟩ := Prod.mk.inj he
    exact (ih b t hb).trans ((List.suffix_cons _ _).trans (List.suffix_cons _ _))
  | case5 => cases h
  | case6 c s _ _ _ ih =>
    obtain ⟨⟨b, t⟩, hb, he⟩ := Option.map_eq_some_iff.1 h
    obtain ⟨_, rfl⟩ := Prod.mk.inj he
    exact (ih b t hb).trans (List.suffix_cons _ _)

/-- The rest of a text literal behind its opening quote. -/
def literal : Reader String := String.ofList <$> (⟨literalBody, literalBody_suffix⟩ : Reader _)

/-! ## Pieces of statements -/

/-- An integer: digits of any script, perhaps behind a minus. -/
def integer : Reader (List Char) := do
  let sign ← opt (char '-')
  let digits ← run1 Text.isDigit
  pure (if sign.isSome then '-' :: digits else digits)

/-- A size in brackets. -/
def size : Reader (List Char) := do
  punctuation '['
  blanks
  let n ← integer
  punctuation ']'
  pure n

/-- The module in which a type is placed. -/
def placement : Reader String := do
  gap
  exactly ['i', 'n']
  gap
  word

/-- A text in braces, with a semicolon that may follow. -/
def braced : Reader (List Char × List Char) := do
  punctuation '\x7b'
  let behind ← remaining
  let body ← through '\x7d'
  let _ ← opt (punctuation ';')
  pure (body, behind)

/-- A keyword and the name behind it. -/
def headed (keyword : List Char) : Reader String := do
  exactly keyword
  gap
  word

/-! ## The five statements -/

/-- A value for an option. -/
def optionOutline : Reader Outline := do
  let name ← headed ['o', 'p', 't', 'i', 'o', 'n']
  punctuation '='
  punctuation '"'
  let value ← literal
  punctuation ';'
  pure (.option name value)

/-- A byte buffer. -/
def bufferOutline : Reader Outline := do
  let name ← headed ['b', 'u', 'f', 'f', 'e', 'r']
  let n ← size
  let home ← opt placement
  punctuation ';'
  pure (.buffer name n home)

/-- An unsigned number. -/
def scalarOutline : Reader Outline := do
  let name ← headed ['s', 'c', 'a', 'l', 'a', 'r']
  let n ← size
  punctuation ';'
  pure (.scalar name n)

/-- An enumeration. -/
def enumOutline : Reader Outline := do
  let name ← headed ['e', 'n', 'u', 'm']
  let home ← opt placement
  let (body, _) ← braced
  pure (.enum name home body)

/-- A module. -/
def moduleOutline : Reader Outline := do
  let name ← headed ['m', 'o', 'd', 'u', 'l', 'e']
  let (body, behind) ← braced
  pure (.module name body behind)

/-- Any statement. -/
def outline : Reader Outline :=
  optionOutline.orElse <| bufferOutline.orElse <| scalarOutline.orElse <|
    enumOutline.orElse moduleOutline

theorem headed_advances {keyword : List Char} (h : keyword ≠ []) : (headed keyword).Advances :=
  (exactly_advances h).bind _

/-- A statement takes text, so reading statement after statement ends. -/
theorem outline_advances : outline.Advances := by
  refine Advances.orElse ?_ (Advances.orElse ?_ (Advances.orElse ?_ (Advances.orElse ?_ ?_)))
  all_goals exact (headed_advances (by simp)).bind _

end Bindery.Idl
