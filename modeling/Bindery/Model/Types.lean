/-
  TYPES of a description, checked one after the other.

  Each type is checked against the modules and the types before it, so the first problem in the
  order of declaration is the one that is reported, whatever comes later.
-/
import Bindery.Model.Field
import Bindery.Naming.Reserved
import Bindery.Naming.Spelling

namespace Bindery

open Naming

/-! ## Variants -/

/-- What a variant is called in the targets. -/
def variantForms (v : String) : List String := [variantCase v, variantConstant v]

/-- Checks one variant against the names and the generated names before it. -/
def checkVariant (type : String) (seen taken : List String) (v : Value) : Checked String :=
  match v with
  | .str s =>
    if !isVariantName s then invalid (.variantName type s)
    else if isReserved (variantCase s) then invalid (.reservedVariant type s)
    else if seen.contains s then invalid (.repeatedVariant type s)
    else
      match (variantForms s).find? taken.contains with
      | some form => invalid (.sharedVariant type s form)
      | none => .ok s
  | _ => do invalid (.variantName type (← written v.plain))

/-- Checks variants behind those that are seen. -/
def checkVariantsAfter (type : String) (seen taken : List String) :
    List Value → Checked (List String)
  | [] => .ok []
  | v :: vs => do
    let s ← checkVariant type seen taken v
    return s :: (← checkVariantsAfter type (s :: seen) (variantForms s ++ taken) vs)

/-- Checks the variants of an enumeration. -/
def checkVariants (type : String) (vs : List Value) : Checked (List String) :=
  if vs.isEmpty || vs.length > maxVariants then invalid (.variantCount type)
  else checkVariantsAfter type [] [] vs

/-! ## Names -/

/-- The type before this one whose constants have the names of this one's. -/
def sharesStem? (types : List TypeDef) (name : String) : Option String :=
  (types.find? fun t => stem t.name == stem name).map (·.name)

/-- The class or type whose file has the name of this one's, but for the case. -/
def sharesFile? (modules : List String) (types : List TypeDef) (name : String) : Option String :=
  (reservedTypeNames ++ modules.map moduleClass ++ types.map (·.name)).find? fun other =>
    lower other == lower name

/-- Checks the name of a type against the modules and the types before it. -/
def checkTypeName (modules : List String) (types : List TypeDef) (name : String) : Checked Unit :=
  if !isTypeName name || reservedTypeNames.contains name then invalid (.typeName name)
  else if (modules.map moduleClass).contains name then invalid (.moduleClass name)
  else if types.any (·.name == name) then invalid (.repeatedType name)
  else
    match sharesStem? types name with
    | some other => invalid (.sharedStem name other)
    | none =>
      match sharesFile? modules types name with
      | some other => invalid (.sharedFile name other)
      | none => .ok ()

/-! ## Types -/

/-- Checks where a type is placed: nowhere, in a declared module or in the internal one. -/
def checkPlacement (modules : List String) (name : String) (v : Option Value) :
    Checked (Option String) :=
  match v with
  | none => .ok none
  | some .null => .ok none
  | some (.str home) =>
    if modules.contains home || home == Model.internalModule then .ok (some home)
    else invalid (.unknownModule name home)
  | some other => do invalid (.unknownModule name (← written other.plain))

/-- Checks a size: a positive number. -/
def checkSize (name : String) (v : Value) : Checked Nat := do
  match v with
  | .int n => if 0 < n then .ok n.toNat else invalid (.badSize name (← written v.literal))
  | _ => invalid (.badSize name (← written v.literal))

/-- Checks what makes a type of its kind one: variants, a size or a width. -/
def checkShape (place name : String) (kind : Kind) (placement : Option String)
    (es : List (Value × Value)) : Checked TypeDef :=
  match kind with
  | .enum => do
    let vs ← checkVariants name (← Value.listField place "variants" es)
    return ⟨name, .enum vs, placement⟩
  | .buffer => do
    let size ← checkSize name (Value.fieldOf "size" es)
    return ⟨name, .buffer size, placement⟩
  | .scalar => do
    let size ← checkSize name (Value.fieldOf "size" es)
    match Width.ofBytes? size with
    | none => invalid (.badWidth name)
    | some width =>
      if placement.isSome then malformed (.placedScalar place)
      else return ⟨name, .scalar width, none⟩

/-- Checks one type against the modules and the types before it. -/
def checkType (modules : List String) (types : List TypeDef) (place : String) (v : Value) :
    Checked TypeDef := do
  let es ← v.mapping place
  let name ← Value.textField place "name" es
  let word ← Value.textField place "kind" es
  match Kind.ofName? word with
  | none => do malformed (.unknownKind place (← written (Value.fieldOf "kind" es).literal))
  | some kind =>
    checkTypeName modules types name
    let placement ← checkPlacement modules name (Value.lookup? "module" es)
    checkShape place name kind placement es

/-- Checks types behind those that are there. -/
def checkTypesAfter (modules : List String) (types : List TypeDef) :
    List Value → Checked (List TypeDef)
  | [] => .ok types
  | v :: vs => do
    let t ← checkType modules types (Value.placeAt "types" types.length) v
    checkTypesAfter modules (types ++ [t]) vs

/-- Checks the types of a description. -/
def checkTypes (modules : List String) (vs : List Value) : Checked (List TypeDef) :=
  checkTypesAfter modules [] vs

end Bindery
