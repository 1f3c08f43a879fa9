/-
  CHECKING A DESCRIPTION: from a raw value to a model.

  The names of the modules come first, then the types, then the functions of module after module;
  the first problem in that order is the answer.
-/
import Bindery.Model.Functions

namespace Bindery

open Naming

/-- Checks the name of one module against those before it. -/
def checkModuleName (before : List String) (v : Value) : Checked String := do
  let place := Value.placeAt "modules" before.length
  let es ← v.mapping place
  let name ← Value.textField place "name" es
  if !isModuleName name || isReservedModule name then invalid (.moduleName name)
  else if before.contains name then invalid (.repeatedModule name)
  else return name

/-- Checks the names of modules behind those that are there. -/
def checkModuleNamesAfter (before : List String) : List Value → Checked (List String)
  | [] => .ok before
  | v :: vs => do
    let name ← checkModuleName before v
    checkModuleNamesAfter (before ++ [name]) vs

/-- Checks the functions of a module whose name is good. -/
def checkModule (types : List TypeDef) (v : Value) : Checked Module := do
  let es ← v.mapping "modules"
  let name ← Value.textField "modules" "name" es
  let vs ← Value.listField name "functions" es
  return ⟨name, ← checkFunctionsAfter types name [] vs⟩

/-- Checks module after module. -/
def checkModules (types : List TypeDef) : List Value → Checked (List Module)
  | [] => .ok []
  | v :: vs => do
    let m ← checkModule types v
    return m :: (← checkModules types vs)

/-- The place of what stands at the top of a description. -/
def topPlace : String := "description"

/-- The model that a description stands for. -/
def Model.ofDescription (es : List (Value × Value)) : Checked Model := do
  let moduleValues ← Value.listField topPlace "modules" es
  let names ← checkModuleNamesAfter [] moduleValues
  let types ← checkTypes names (← Value.listField topPlace "types" es)
  let modules ← checkModules types moduleValues
  return ⟨types, modules⟩

end Bindery
