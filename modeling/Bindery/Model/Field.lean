/-
  FIELDS: what the checks ask of a raw value.

  A place is how a message names the value at hand, `types[2]` or `auth.verify.params[0]`.
-/
import Bindery.Model.Fault

namespace Bindery

/-- A check's answer. -/
abbrev Checked (α : Type) := Except ModelFault α

/-- The answer for a malformed description. -/
def malformed {α : Type} (cause : Malformed) : Checked α := .error (.malformed cause)

/-- The answer for an invalid description. -/
def invalid {α : Type} (cause : Invalid) : Checked α := .error (.invalid cause)

/-- A text that a fault needs, if the value has it. -/
def written (text : Option String) : Checked String :=
  match text with
  | some s => .ok s
  | none => .error .unwritable

namespace Value

/-- The name of a place in a list. -/
def placeAt (list : String) (i : Nat) : String := list ++ "[" ++ Decimal.integer i ++ "]"

/-- The entries of a value that has to be a map. -/
def mapping (place : String) (v : Value) : Checked (List (Value × Value)) :=
  match v.entries? with
  | some es => .ok es
  | none => malformed (.notMapping place v.kindName)

/-- A field that has to be a text.  What no string can hold is no name either, so such a text is
passed on as it is shown. -/
def textField (place key : String) (es : List (Value × Value)) : Checked String :=
  match lookup? key es with
  | none => malformed (.missing place key)
  | some (str s) => .ok s
  | some (codes ps) => .ok (String.ofList (Text.joined ps))
  | some _ => malformed (.notText place key)

/-- The value of a field; one that is not there is nothing. -/
def fieldOf (key : String) (es : List (Value × Value)) : Value := (lookup? key es).getD .null

/-- A field that may be absent and else has to be a list. -/
def listField (place key : String) (es : List (Value × Value)) : Checked (List Value) :=
  match lookup? key es with
  | none => .ok []
  | some v =>
    match v.items? with
    | some items => .ok items
    | none => if v.isAbsent then .ok [] else malformed (.notList place key)

end Value

end Bindery
