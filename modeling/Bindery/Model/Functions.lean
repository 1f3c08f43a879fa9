/-
  FUNCTIONS of a description, checked one after the other against the types.
-/
import Bindery.Model.Types

namespace Bindery

open Naming

/-- The type that a value names. -/
def resolveType (types : List TypeDef) (user : String) (v : Value) : Checked TypeDef :=
  match v with
  | .str name =>
    match types.find? (·.name == name) with
    | some t => .ok t
    | none => invalid (.unknownType user name)
  | _ => do invalid (.unknownType user (← written v.plain))

/-! ## Parameters -/

/-- Reads a direction; a parameter without one is an input. -/
def checkDirection (parameter : String) (v : Option Value) : Checked Direction :=
  match v with
  | none => .ok .input
  | some (.str word) =>
    if word == "in" then .ok .input
    else if word == "out" then .ok .output
    else malformed (.badDirection parameter)
  | some _ => malformed (.badDirection parameter)

/-- Checks one parameter against those before it. -/
def checkParameter (types : List TypeDef) (function : String) (before : List Parameter)
    (v : Value) : Checked Parameter := do
  let place := Value.placeAt (function ++ ".params") before.length
  let es ← v.mapping place
  let name ← Value.textField place "name" es
  let entity := function ++ "." ++ name
  if !isMemberName name || isReserved name then invalid (.parameterName entity)
  else if before.any (·.name == name) then invalid (.repeatedParameter entity)
  else
    let direction ← checkDirection entity (Value.lookup? "direction" es)
    let type ← resolveType types entity (Value.fieldOf "type" es)
    return ⟨name, type, direction⟩

/-- Checks parameters behind those that are there. -/
def checkParametersAfter (types : List TypeDef) (function : String) (before : List Parameter) :
    List Value → Checked (List Parameter)
  | [] => .ok before
  | v :: vs => do
    let p ← checkParameter types function before v
    checkParametersAfter types function (before ++ [p]) vs

/-! ## Functions -/

/-- Reads the type of a result; nothing and the word `void` stand for no result. -/
def checkReturns (types : List TypeDef) (function : String) (v : Option Value) :
    Checked (Option TypeDef) :=
  match v with
  | none => .ok none
  | some .null => .ok none
  | some v =>
    match v with
    | .str "void" => .ok none
    | _ => some <$> resolveType types (function ++ " -> return") v

/-- Reads the mark for failures; without one a function has none. -/
def checkFallible (function : String) (v : Option Value) : Checked Bool :=
  match v with
  | none => .ok false
  | some (.bool b) => .ok b
  | some _ => malformed (.badFallible function)

/-- The first name that is there a second time. -/
def firstRepeated? (seen : List String) : List String → Option String
  | [] => none
  | name :: names => if seen.contains name then some name else firstRepeated? (name :: seen) names

/-- Checks that the native arguments of a function have different names. -/
def checkSlots (f : Function) : Checked Unit :=
  match firstRepeated? [] (f.slots.map (·.name)) with
  | some name => invalid (.sharedArgument (f.qualifiedName ++ "." ++ name))
  | none => .ok ()

/-- Checks one function against those before it. -/
def checkFunction (types : List TypeDef) (module : String) (before : List Function) (v : Value) :
    Checked Function := do
  let place := Value.placeAt (module ++ ".functions") before.length
  let es ← v.mapping place
  let name ← Value.textField place "name" es
  let qualified := module ++ "." ++ name
  if !isMemberName name || isReserved name then invalid (.functionName qualified)
  else if before.any (·.name == name) then invalid (.repeatedFunction qualified)
  else
    let vs ← Value.listField qualified "params" es
    let parameters ← checkParametersAfter types qualified [] vs
    let returns ← checkReturns types qualified (Value.lookup? "returns" es)
    let fallible ← checkFallible qualified (Value.lookup? "fallible" es)
    let f : Function := { name, module, parameters, returns, fallible }
    checkSlots f
    return f

/-- Checks functions behind those that are there. -/
def checkFunctionsAfter (types : List TypeDef) (module : String) (before : List Function) :
    List Value → Checked (List Function)
  | [] => .ok before
  | v :: vs => do
    let f ← checkFunction types module before v
    checkFunctionsAfter types module (before ++ [f]) vs

end Bindery
