/-
  DESCRIPTIONS THAT CANNOT BE TOLD ABOUT.

  A fault shows the value that is wrong.  A whole number with too many digits has no text
  (`Value.Textless`), so where a description holds one in the place of a text or of a size, the check
  that should name it has nothing to show.  `Unwritten es` says exactly when that is so:
  what stands before the value is accepted, and the value is of the wrong kind and has no text.
  There are five places for such a value: the placement of a type, its size, one of its variants,
  the type of a parameter and the type of a result.
-/
import Bindery.Proofs.Model.InTurn
import Bindery.Proofs.Model.Valid

namespace Bindery

open Naming Checked

/-! ## Values without a text -/

namespace Value

/-- `Textless v` — no message can show the value. -/
def Textless (v : Value) : Prop := v.literal = none

/-- Both texts of a value are missing together. -/
theorem plain_eq_none {v : Value} : v.plain = none ↔ v.Textless := by
  cases v with
  | str s => simp [plain, Textless, literal, literalIn]
  | codes ps => simp [plain, Textless, literal, literalIn]
  | moment m => simp [plain, Textless, literal, literalIn]
  | _ => rfl

end Value

/-! ## The places for such values -/

/-- Variants up to one without a text. -/
def VariantsUnwritten (vs : List Value) : Prop :=
  1 ≤ vs.length ∧ vs.length ≤ maxVariants ∧
    StopsAt (fun s v => v = .str s) VariantNamed VariantsApart (fun _ v => v.Textless) vs

/-- A size without a text that is not a size. -/
def SizeUnwritten (v : Value) : Prop := v.Textless ∧ ∀ n : Int, v = .int n → n ≤ 0

/-- What is wrong with a type of this kind behind its name and placement. -/
def Kind.Unwritten (kind : Kind) (es : List (Value × Value)) : Prop :=
  match kind with
  | .enum => ∃ vs, Value.listOf? "variants" es = some vs ∧ VariantsUnwritten vs
  | _ => SizeUnwritten (Value.fieldOf "size" es)

/-- A type behind others, with a placement, a size or a variant that has no text. -/
def TypeUnwritten (modules : List String) (before : List TypeDef) (v : Value) : Prop :=
  ∃ es name kind, v.entries? = some es ∧
    Value.textOf? "name" es = some name ∧
    Value.textOf? "kind" es = some (Kind.name kind) ∧
    TypeNamed modules name ∧ (∀ t ∈ before, lower t.name ≠ lower name) ∧
    ((Value.fieldOf "module" es).Textless ∨
      (∃ placement, Value.fieldOf "module" es = Value.ofText? placement ∧
        Placed modules placement) ∧ kind.Unwritten es)

/-- A parameter behind others, with a type that has no text. -/
def ParameterUnwritten (before : List Parameter) (v : Value) : Prop :=
  ∃ es name, v.entries? = some es ∧
    Value.textOf? "name" es = some name ∧
    MemberNamed name ∧ (∀ p ∈ before, p.name ≠ name) ∧
    (∃ d : Direction, d.DescribedBy (Value.lookup? "direction" es)) ∧
    (Value.fieldOf "type" es).Textless

/-- A function behind others, with such a parameter or a result that has no text. -/
def FunctionUnwritten (types : List TypeDef) (before : List Function) (v : Value) : Prop :=
  ∃ es name vs, v.entries? = some es ∧
    Value.textOf? "name" es = some name ∧
    MemberNamed name ∧ (∀ f ∈ before, f.name ≠ name) ∧
    Value.listOf? "params" es = some vs ∧
    (StopsAt Parameter.DescribedBy (Parameter.WellFormed types) ParametersApart
        ParameterUnwritten vs ∨
      (∃ ps, Accepted Parameter.DescribedBy (Parameter.WellFormed types) ParametersApart ps vs) ∧
        (Value.fieldOf "returns" es).Textless)

/-- A module with such a function. -/
def ModuleUnwritten (types : List TypeDef) (v : Value) : Prop :=
  ∃ es name vs, v.entries? = some es ∧
    Value.textOf? "name" es = some name ∧
    Value.listOf? "functions" es = some vs ∧
    StopsAt Function.DescribedBy (Function.FitsIn types name) FunctionsApart
      (FunctionUnwritten types) vs

/-- `Unwritten es` — the first problem of a description is a value without a text. -/
def Unwritten (es : List (Value × Value)) : Prop :=
  ∃ ws names vs, Value.listOf? "modules" es = some ws ∧
    Accepted (fun name v => ModuleNamed name v) ModuleSpelled (· ≠ ·) names ws ∧
    Value.listOf? "types" es = some vs ∧
    (StopsAt TypeDef.DescribedBy (TypeDef.WellFormed names) TypesApart (TypeUnwritten names) vs ∨
      ∃ types, Accepted TypeDef.DescribedBy (TypeDef.WellFormed names) TypesApart types vs ∧
        StopsAt Module.DescribedBy (Module.WellFormed types) (fun _ _ => True)
          (fun _ => ModuleUnwritten types) ws)

end Bindery
