/-
  RESULTS: what a wrapper gives back, and how long it is at the boundary.

  The wrappers of both target languages hand out the filled parameters in the order of their
  declaration and the result last.  A buffer's length is spelled by a constant of the layer at
  hand, every other length by a number.
-/
import Bindery.Boundary
import Bindery.Decimal.Notation

namespace Bindery

/-- One value that a call delivers. -/
structure Delivery where
  /-- The local that the call fills. -/
  slot : String
  /-- The field or label under which it is handed out. -/
  label : String
  type : TypeDef
  deriving DecidableEq, Repr

/-- The label of the result of a function. -/
def resultLabel : String := "result"

/-- The values that a call delivers, in order. -/
def Function.deliveries (f : Function) : List Delivery :=
  f.outputs.map (fun p => ⟨p.name, p.name, p.type⟩) ++
    (f.returns.map fun t => (⟨Naming.resultSlot, resultLabel, t⟩ : Delivery)).toList

/-- How a layer states a length. -/
inductive Size where
  /-- The length of a buffer type, by the constant that the layer has for it. -/
  | lengthOf (type : String)
  /-- A number of bytes. -/
  | bytes (n : Nat)
  deriving DecidableEq, Repr

/-- The length of the values of a type. -/
def TypeDef.size (t : TypeDef) : Size :=
  match t.shape with
  | .buffer _ => .lengthOf t.name
  | _ => .bytes t.byteSize

/-- A length, given the spelling of the constants. -/
def Size.spell (constant : String → String) : Size → String
  | lengthOf type => constant type
  | bytes n => Decimal.integer n

/-- The constant of a value class. -/
def classSize (type : String) : String := type ++ ".SIZE"

end Bindery
