/-
  THE TEXT OF A VALUE, as messages show it.

  A value has two texts: its literal, which tells a text from a number, and its plain text, in
  which a text stands for itself and a moment is easy to read.  They differ at the top only: what
  is inside a list or a map is always shown by its literal.  A value inside itself is shown by
  dots.  A whole number with too many digits has no text, and nothing that holds one has.
-/
import Bindery.Text.Quoted
import Bindery.Value.Basic

namespace Bindery.Value

/-- Floating-point numbers show the fewest digits that read back, without an exponent from
`0.0001` up to sixteen digits. -/
def spelling : Decimal.Spelling where
  positionalFrom := -4
  positionalTo := 16
  exponentDigits := 2
  wholeTail := ".0"
  nan := "nan"
  infinity := "inf"

/-! ## Bytes -/

/-- One byte inside the quotes `q`. -/
def escapeByte (q : Char) (b : UInt8) : List Char :=
  let c := Char.ofNat b.toNat
  if 0x20 ≤ b && b < 0x7F || c == '\n' || c == '\r' || c == '\t' then Text.escapeChar q c
  else '\\' :: 'x' :: Text.hexPadded 2 b.toNat

/-- The literal of bytes. -/
def bytesLiteral (bs : List UInt8) : String :=
  let q := Text.quoteFor (bs.map fun b => Char.ofNat b.toNat)
  String.ofList ('b' :: q :: bs.flatMap (escapeByte q) ++ [q])

/-! ## Literals -/

/-- A text in brackets, braces or parentheses. -/
def inBrackets (items : String) : String := "[" ++ items ++ "]"

@[inherit_doc inBrackets]
def inBraces (items : String) : String := "\x7b" ++ items ++ "\x7d"

@[inherit_doc inBrackets]
def inParentheses (items : String) : String := "(" ++ items ++ ")"

/-- What a set is called where its items are not shown. -/
def setName : String := "set"

/-- What stands for a value inside itself. -/
def dots : Value → String
  | map _ => inBraces "..."
  | pair _ _ => inParentheses "..."
  | set _ => setName ++ inParentheses "..."
  | _ => inBrackets "..."

/-- The values around, by their marks, with what stands for them. -/
abbrev Around := List (Nat × String)

mutual

/-- The literal of a value inside others. -/
def literalIn (around : Around) : Value → Option String
  | null => some "None"
  | bool b => some (if b then "True" else "False")
  | int n => Decimal.integer? n
  | float x => some (spelling.double (.ofFloat x))
  | str s => some (Text.quoted s)
  | codes ps => some (Text.quotedPoints ps)
  | bytes bs => some (bytesLiteral bs)
  | moment m => some m.literal
  | list items => do return inBrackets (", ".intercalate (← literalsIn around items))
  | pair a b => do
    let first ← literalIn around a
    return inParentheses (first ++ ", " ++ (← literalIn around b))
  | set items => do
    if items.isEmpty then return setName ++ inParentheses ""
    else return inBraces (", ".intercalate (← literalsIn around items))
  | map entries => do return inBraces (", ".intercalate (← entryLiteralsIn around entries))
  | marked mark v =>
    match around.lookup mark with
    | some text => some text
    | none => literalIn ((mark, dots v) :: around) v
  | again mark => around.lookup mark

/-- The literals of the items of a list. -/
def literalsIn (around : Around) : List Value → Option (List String)
  | [] => some []
  | v :: vs => do
    let text ← literalIn around v
    return text :: (← literalsIn around vs)

/-- The entries of a map, each as key and value. -/
def entryLiteralsIn (around : Around) : List (Value × Value) → Option (List String)
  | [] => some []
  | (k, v) :: es => do
    let key ← literalIn around k
    let value ← literalIn around v
    return (key ++ ": " ++ value) :: (← entryLiteralsIn around es)

end

/-- The literal of a value. -/
def literal (v : Value) : Option String := literalIn [] v

/-- The plain text of a value. -/
def plain : Value → Option String
  | str s => some s
  | codes ps => some (String.ofList (Text.joined ps))
  | moment m => some m.text
  | v => v.literal

/-- The plain text as a value: a text stays as it is. -/
def asText (v : Value) : Option Value := if v.isBroken then some v else v.plain.map str

end Bindery.Value
