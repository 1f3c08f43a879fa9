/-
  THE API MODEL: what the bindings are generated from.

  A model names types and groups functions into modules.  A type is a byte buffer of fixed size,
  an unsigned number of one of four widths, or an enumeration; a function takes inputs, fills
  outputs and may return one value.  Everything here is data: which models are well formed is
  said by the checks, and what their names look like in a target by the naming rules.
-/

namespace Bindery

/-- Which way a parameter carries its value. -/
inductive Direction where
  | input
  | output
  deriving DecidableEq, Repr

/-- The widths of unsigned numbers. -/
inductive Width where
  | one
  | two
  | four
  | eight
  deriving DecidableEq, Repr

namespace Width

/-- The number of bytes of a width. -/
def bytes : Width → Nat
  | one => 1
  | two => 2
  | four => 4
  | eight => 8

/-- The width with so many bytes. -/
def ofBytes? (n : Int) : Option Width :=
  if n = 1 then some one
  else if n = 2 then some two
  else if n = 4 then some four
  else if n = 8 then some eight
  else none

theorem ofBytes?_eq_some {n : Int} {w : Width} : ofBytes? n = some w ↔ n = w.bytes := by
  unfold ofBytes?
  cases w <;> simp only [bytes] <;> (repeat' split) <;> simp <;> omega

end Width

/-- The shape of the values of a type. -/
inductive Shape where
  /-- So many bytes. -/
  | buffer (size : Nat)
  /-- An unsigned number. -/
  | scalar (width : Width)
  /-- One of the variants, in the order of their numbers. -/
  | enum (variants : List String)
  deriving DecidableEq, Repr

/-- The kind of a shape. -/
inductive Kind where
  | buffer
  | scalar
  | enum
  deriving DecidableEq, Repr

namespace Kind

/-- The word for a kind in a description. -/
def name : Kind → String
  | buffer => "buffer"
  | scalar => "scalar"
  | enum => "enum"

/-- The kind that a word stands for. -/
def ofName? (s : String) : Option Kind :=
  if s = "buffer" then some buffer
  else if s = "scalar" then some scalar
  else if s = "enum" then some enum
  else none

theorem ofName?_name (k : Kind) : ofName? k.name = some k := by cases k <;> decide

end Kind

namespace Shape

/-- The kind of a shape. -/
def kind : Shape → Kind
  | buffer _ => .buffer
  | scalar _ => .scalar
  | enum _ => .enum

/-- The bytes that a value takes in a buffer; an enumeration travels as one byte. -/
def byteSize : Shape → Nat
  | buffer size => size
  | scalar width => width.bytes
  | enum _ => 1

/-- The variants of an enumeration. -/
def variants : Shape → List String
  | enum vs => vs
  | _ => []

end Shape

/-- A named type. -/
structure TypeDef where
  /-- The name, as declared. -/
  name : String
  /-- What its values are. -/
  shape : Shape
  /-- The module that hosts its value class, where the description says so. -/
  placement : Option String
  deriving DecidableEq, Repr

namespace TypeDef

/-- Whether the type is a byte buffer. -/
def isBuffer (t : TypeDef) : Bool := t.shape.kind == .buffer

/-- Whether the type is an unsigned number. -/
def isScalar (t : TypeDef) : Bool := t.shape.kind == .scalar

/-- Whether the type is an enumeration. -/
def isEnum (t : TypeDef) : Bool := t.shape.kind == .enum

/-- The bytes that a value takes in a buffer. -/
def byteSize (t : TypeDef) : Nat := t.shape.byteSize

end TypeDef

/-- A parameter of a function. -/
structure Parameter where
  name : String
  type : TypeDef
  direction : Direction
  deriving DecidableEq, Repr

namespace Parameter

/-- Whether the function fills the parameter. -/
def isOutput (p : Parameter) : Bool := p.direction == .output

end Parameter

/-- A function of the library. -/
structure Function where
  name : String
  /-- The module that declares it. -/
  module : String
  parameters : List Parameter
  /-- The type of its result, if it has one. -/
  returns : Option TypeDef
  /-- Whether the library reports failures of this function. -/
  fallible : Bool
  deriving DecidableEq, Repr

namespace Function

/-- The parameters that are read. -/
def inputs (f : Function) : List Parameter := f.parameters.filter (!·.isOutput)

/-- The parameters that are filled. -/
def outputs (f : Function) : List Parameter := f.parameters.filter (·.isOutput)

/-- How many values a call delivers. -/
def outputCount (f : Function) : Nat := f.outputs.length + if f.returns.isSome then 1 else 0

/-- Every type that the declaration mentions, the result last. -/
def usedTypes (f : Function) : List TypeDef := f.parameters.map (·.type) ++ f.returns.toList

/-- The name with its module. -/
def qualifiedName (f : Function) : String := f.module ++ "." ++ f.name

end Function

/-- A group of functions. -/
structure Module where
  name : String
  functions : List Function
  deriving DecidableEq, Repr

/-- A whole API: its types and modules, in the order of declaration. -/
structure Model where
  types : List TypeDef
  modules : List Module
  deriving DecidableEq, Repr

namespace Model

/-- All functions, module by module. -/
def functions (m : Model) : List Function := m.modules.flatMap (·.functions)

theorem mem_functions {m : Model} {f : Function} :
    f ∈ m.functions ↔ ∃ module ∈ m.modules, f ∈ module.functions := List.mem_flatMap

/-- The byte buffers. -/
def bufferTypes (m : Model) : List TypeDef := m.types.filter (·.isBuffer)

/-- The enumerations. -/
def enumTypes (m : Model) : List TypeDef := m.types.filter (·.isEnum)

/-- The module for types that no function uses and nobody placed. -/
def internalModule : String := "internal"

/-- The module that hosts the value class of a type: the one it is placed in, else the first
whose functions use it, else the internal one. -/
def homeModule (m : Model) (t : TypeDef) : String :=
  match t.placement with
  | some home => home
  | none =>
    match m.functions.find? fun f => f.usedTypes.any (·.name == t.name) with
    | some f => f.module
    | none => internalModule

/-- The types with a value class: all but the plain numbers. -/
def valueTypes (m : Model) : List TypeDef := m.types.filter (!·.isScalar)

/-- The types whose value class lives in the given module. -/
def typesOf (m : Model) (home : String) : List TypeDef :=
  m.valueTypes.filter (m.homeModule · == home)

/-- Adds a name at the end unless it is there. -/
def addName (names : List String) (name : String) : List String :=
  if names.contains name then names else names ++ [name]

/-- The modules that host value classes: the declared ones first, then other homes in the order
in which the types need them. -/
def valueModules (m : Model) : List String :=
  ((m.valueTypes.map m.homeModule).foldl addName (m.modules.map (·.name))).filter
    fun home => !(m.typesOf home).isEmpty

end Model

end Bindery
