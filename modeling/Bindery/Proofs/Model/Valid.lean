/-
  VALID DESCRIPTIONS, without an order of checking.

  Two things make a description valid, and they are kept apart:

  * what it SAYS — `Model.DescribedBy es m`: the raw entries `es` have the shape of a description,
    and `m` is what they declare, item by item and with the defaults for all that is left out;
  * whether that is an API — `Model.WellFormed m`: names are spelled right, free and different
    where they have to be, sizes and numbers of variants are in range, and whatever is used is
    declared.

  Both are relations on whole lists.  Neither knows a first item, a message or a place, and the
  second does not look at raw values at all.
-/
import Bindery.Model.Check
import Mathlib.Data.List.Forall2

namespace Bindery

open Naming

/-! ## Fields -/

namespace Value

/-- The text that a value is. -/
def text? : Value → Option String
  | str s => some s
  | codes ps => some (String.ofList (Text.joined ps))
  | _ => none

/-- The text of a field that has to be one. -/
def textOf? (key : String) (es : List (Value × Value)) : Option String :=
  (lookup? key es).bind text?

/-- The items of a field that may be absent and else has to be a list. -/
def listOf? (key : String) (es : List (Value × Value)) : Option (List Value) :=
  match lookup? key es with
  | none => some []
  | some v =>
    match v.items? with
    | some items => some items
    | none => if v.isAbsent then some [] else none

/-- A text that may be missing, as a value. -/
def ofText? : Option String → Value
  | some s => str s
  | none => null

end Value

/-! ## What a description declares -/

/-- `Shape.DescribedBy shape es` — the entries of a type declare values of this shape. -/
def Shape.DescribedBy (shape : Shape) (es : List (Value × Value)) : Prop :=
  match shape with
  | .buffer size => Value.fieldOf "size" es = .int size
  | .scalar width => Value.fieldOf "size" es = .int width.bytes
  | .enum variants => Value.listOf? "variants" es = some (variants.map .str)

/-- `TypeDef.DescribedBy t v` — the value declares this type. -/
def TypeDef.DescribedBy (t : TypeDef) (v : Value) : Prop :=
  ∃ es, v.entries? = some es ∧
    Value.textOf? "name" es = some t.name ∧
    Value.textOf? "kind" es = some t.shape.kind.name ∧
    Value.fieldOf "module" es = Value.ofText? t.placement ∧
    t.shape.DescribedBy es

/-- A direction as it is written; a parameter without one is an input. -/
def Direction.DescribedBy (d : Direction) (v : Option Value) : Prop :=
  match d with
  | .input => v = none ∨ v = some (.str "in")
  | .output => v = some (.str "out")

/-- `Parameter.DescribedBy p v` — the value declares this parameter. -/
def Parameter.DescribedBy (p : Parameter) (v : Value) : Prop :=
  ∃ es, v.entries? = some es ∧
    Value.textOf? "name" es = some p.name ∧
    p.direction.DescribedBy (Value.lookup? "direction" es) ∧
    Value.fieldOf "type" es = .str p.type.name

/-- The result of a function as it is written; nothing and the word `void` stand for no result. -/
def ReturnsDescribedBy (returns : Option TypeDef) (v : Value) : Prop :=
  match returns with
  | none => v = .null ∨ v = .str "void"
  | some t => v = .str t.name

/-- The mark for failures as it is written; without one a function has none. -/
def FallibleDescribedBy (fallible : Bool) (v : Option Value) : Prop :=
  v = some (.bool fallible) ∨ v = none ∧ fallible = false

/-- `Function.DescribedBy f v` — the value declares this function. -/
def Function.DescribedBy (f : Function) (v : Value) : Prop :=
  ∃ es vs, v.entries? = some es ∧
    Value.textOf? "name" es = some f.name ∧
    Value.listOf? "params" es = some vs ∧ List.Forall₂ Parameter.DescribedBy f.parameters vs ∧
    ReturnsDescribedBy f.returns (Value.fieldOf "returns" es) ∧
    FallibleDescribedBy f.fallible (Value.lookup? "fallible" es)

/-- `ModuleNamed name v` — the value declares a module of this name. -/
def ModuleNamed (name : String) (v : Value) : Prop :=
  ∃ es, v.entries? = some es ∧ Value.textOf? "name" es = some name

/-- `Module.DescribedBy m v` — the value declares this module. -/
def Module.DescribedBy (m : Module) (v : Value) : Prop :=
  ∃ es vs, v.entries? = some es ∧
    Value.textOf? "name" es = some m.name ∧
    Value.listOf? "functions" es = some vs ∧ List.Forall₂ Function.DescribedBy m.functions vs

/-- `Model.DescribedBy m es` — the entries at the top declare this model. -/
def Model.DescribedBy (m : Model) (es : List (Value × Value)) : Prop :=
  ∃ vs ws, Value.listOf? "types" es = some vs ∧ List.Forall₂ TypeDef.DescribedBy m.types vs ∧
    Value.listOf? "modules" es = some ws ∧ List.Forall₂ Module.DescribedBy m.modules ws

/-! ## Which models are an API -/

/-- A name that a variant may have. -/
def VariantNamed (v : String) : Prop :=
  isVariantName v = true ∧ isReserved (variantCase v) = false

/-- `VariantsApart v w` — no target has one name for both variants. -/
def VariantsApart (v w : String) : Prop := ∀ form ∈ variantForms w, form ∉ variantForms v

/-- Variants that every target can number and name. -/
structure VariantsWellFormed (variants : List String) : Prop where
  one_le : 1 ≤ variants.length
  le_max : variants.length ≤ maxVariants
  named : ∀ v ∈ variants, VariantNamed v
  apart : variants.Pairwise VariantsApart

/-- A shape whose numbers are in range; those of scalars always are. -/
def Shape.WellFormed : Shape → Prop
  | .buffer size => 0 < size
  | .scalar _ => True
  | .enum variants => VariantsWellFormed variants

/-- The names of files that are taken before any type is declared. -/
def takenNames (modules : List String) : List String :=
  reservedTypeNames ++ modules.map moduleClass

/-- A name that a type may have beside these modules. -/
def TypeNamed (modules : List String) (name : String) : Prop :=
  isTypeName name = true ∧ ∀ other ∈ takenNames modules, lower other ≠ lower name

/-- A placement that there is. -/
def Placed (modules : List String) (placement : Option String) : Prop :=
  ∀ home, placement = some home → home ∈ modules ∨ home = Model.internalModule

/-- A type that may stand beside these modules. -/
structure TypeDef.WellFormed (modules : List String) (t : TypeDef) : Prop where
  named : TypeNamed modules t.name
  placed : Placed modules t.placement
  unplaced : t.isScalar = true → t.placement = none
  shape : t.shape.WellFormed

/-- `TypesApart s t` — the names of the types differ in more than the case of letters. -/
def TypesApart (s t : TypeDef) : Prop := lower s.name ≠ lower t.name

/-- Types that may stand beside these modules and beside each other. -/
structure TypesWellFormed (modules : List String) (types : List TypeDef) : Prop where
  each : ∀ t ∈ types, t.WellFormed modules
  apart : types.Pairwise TypesApart

/-- The native arguments of a parameter: bytes come with their length. -/
def Parameter.nativeNames (p : Parameter) : List String :=
  if p.direction = .output ∨ p.type.isBuffer = true then [p.name, p.name ++ "Len"] else [p.name]

/-- The native arguments of a function; a result is one more output. -/
def Function.nativeNames (f : Function) : List String :=
  f.parameters.flatMap (·.nativeNames) ++ if f.returns.isSome then ["out", "outLen"] else []

/-- A name that functions and parameters may have. -/
def MemberNamed (name : String) : Prop := isMemberName name = true ∧ isReserved name = false

/-- A parameter over these types. -/
def Parameter.WellFormed (types : List TypeDef) (p : Parameter) : Prop :=
  MemberNamed p.name ∧ p.type ∈ types

/-- `ParametersApart p q` — the parameters differ in their names. -/
def ParametersApart (p q : Parameter) : Prop := p.name ≠ q.name

/-- A function over these types. -/
structure Function.WellFormed (types : List TypeDef) (f : Function) : Prop where
  named : MemberNamed f.name
  parameters : ∀ p ∈ f.parameters, p.WellFormed types
  distinct : f.parameters.Pairwise ParametersApart
  returns : ∀ t, f.returns = some t → t ∈ types
  native : f.nativeNames.Nodup

/-- `Function.FitsIn types module f` — a function over these types that knows its module. -/
def Function.FitsIn (types : List TypeDef) (module : String) (f : Function) : Prop :=
  f.WellFormed types ∧ f.module = module

/-- `FunctionsApart f g` — the functions differ in their names. -/
def FunctionsApart (f g : Function) : Prop := f.name ≠ g.name

/-- A module over these types. -/
structure Module.WellFormed (types : List TypeDef) (m : Module) : Prop where
  functions : ∀ f ∈ m.functions, f.FitsIn types m.name
  distinct : m.functions.Pairwise FunctionsApart

/-- A name that a module may have. -/
def ModuleSpelled (name : String) : Prop :=
  isModuleName name = true ∧ isReservedModule name = false

/-- The names of the modules. -/
def Model.moduleNames (m : Model) : List String := m.modules.map (·.name)

/-- A model that is an API. -/
structure Model.WellFormed (m : Model) : Prop where
  spelled : ∀ name ∈ m.moduleNames, ModuleSpelled name
  distinct : m.moduleNames.Nodup
  types : TypesWellFormed m.moduleNames m.types
  modules : ∀ module ∈ m.modules, module.WellFormed m.types

/-- **Valid descriptions**: those that say something, and what they say is an API. -/
def ValidDescription (es : List (Value × Value)) : Prop :=
  ∃ m : Model, m.DescribedBy es ∧ m.WellFormed

end Bindery
