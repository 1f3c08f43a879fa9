/-
  SWIFT WRAPPERS: one namespace a module, one function a function.

  A wrapper makes room for what is filled, calls the exported function once through the header,
  turns the number it returns into an error and decodes what was filled.
-/
import Bindery.Layer.SwiftSupport

namespace Bindery

open Source

/-! ## The body of a wrapper -/

/-- An argument of the exported function. -/
inductive SwiftArg where
  /-- The bytes of a value. -/
  | contents (parameter : String)
  /-- The number of those bytes. -/
  | count (parameter : String)
  /-- A local array that is filled. -/
  | filled (slot : String)
  /-- The length of an array that is filled. -/
  | length (size : Size)
  /-- The number of a variant. -/
  | rawValue (parameter : String)
  /-- A number. -/
  | plain (parameter : String)
  deriving DecidableEq, Repr

/-- How filled bytes become a value. -/
inductive SwiftDecode where
  | buffer (type slot : String)
  | enum (type slot : String)
  | number (width : Width) (slot : String)
  deriving DecidableEq, Repr

/-- A wrapper function. -/
structure SwiftFunction where
  name : String
  parameters : List (String × String)
  fallible : Bool
  /-- The labels and types of what it returns. -/
  returns : List (String × String)
  /-- The local arrays that the call fills. -/
  allocated : List (String × Size)
  /-- The exported function that is called. -/
  callee : String
  passed : List SwiftArg
  /-- What is returned, in the order of `returns`. -/
  decoded : List SwiftDecode
  deriving DecidableEq, Repr

/-- What is passed to the exported function for an argument. -/
def Argument.swiftArgs (a : Argument) : List SwiftArg :=
  match a.passing, a.type.shape with
  | .inBuffer, _ => [.contents a.name, .count a.name]
  | .outBuffer, _ => [.filled a.name, .length a.type.size]
  | .inValue _, .enum _ => [.rawValue a.name]
  | .inValue _, _ => [.plain a.name]

/-- How a delivered value is decoded. -/
def Delivery.swiftDecode (d : Delivery) : SwiftDecode :=
  match d.type.shape with
  | .buffer _ => .buffer d.type.name d.slot
  | .enum _ => .enum d.type.name d.slot
  | .scalar w => .number w d.slot

/-- The wrapper of a function. -/
def Function.swift (f : Function) : SwiftFunction where
  name := f.name
  parameters := f.inputs.map fun p => (p.name, p.type.swiftValue)
  fallible := f.fallible
  returns := f.deliveries.map fun d => (d.label, d.type.swiftValue)
  allocated := (f.arguments.filter (·.isFilled)).map fun a => (a.name, a.type.size)
  callee := f.coreSymbol
  passed := f.arguments.flatMap (·.swiftArgs)
  decoded := f.deliveries.map (·.swiftDecode)

/-! ## Its text -/

/-- An argument of the call as text. -/
def SwiftArg.expression : SwiftArg → String
  | contents parameter => parameter ++ ".contents"
  | count parameter => "UInt32" ++ inParens (parameter ++ ".contents.count")
  | filled slot => "&" ++ slot
  | length size => "UInt32" ++ inParens (size.spell classSize)
  | rawValue parameter => parameter ++ ".rawValue"
  | plain parameter => parameter

/-- A decoded value as text; `attempt` is how a failure is met. -/
def SwiftDecode.expression (attempt : String) : SwiftDecode → String
  | buffer type slot => attempt ++ " " ++ type ++ "(contents: " ++ slot ++ ")"
  | enum type slot => attempt ++ " decodeEnum" ++ inParens slot ++ " as " ++ type
  | number w slot => "decodeScalar" ++ inParens slot ++ " as " ++ w.swift

/-- What a wrapper is declared to return. -/
def SwiftFunction.returnClause (f : SwiftFunction) : String :=
  match f.returns with
  | [] => ""
  | [r] => " -> " ++ r.2
  | rs => " -> " ++ inParens (commas (rs.map fun r => r.1 ++ ": " ++ r.2))

/-- The statement that hands out the decoded values. -/
def SwiftFunction.returnStatement? (f : SwiftFunction) : Option String :=
  let attempt := if f.fallible then "try" else "try!"
  match f.decoded with
  | [] => none
  | [d] => some ("return " ++ d.expression attempt)
  | ds =>
    some ("return " ++ inParens (commas
      ((f.returns.zip ds).map fun x => x.1.1 ++ ": " ++ x.2.expression attempt)))

/-- What a wrapper does with the number that the call returns. -/
def SwiftFunction.outcome (s : Setting) (f : SwiftFunction) : String :=
  if f.fallible then "try " ++ swiftError ++ ".check(ffiResult)"
  else "precondition(ffiResult == " ++ s.ok ++ ", \"" ++ f.callee ++ " failed\")"

/-- A wrapper as text. -/
def SwiftFunction.lines (s : Setting) (f : SwiftFunction) : List Line :=
  block
    ("public static func " ++ f.name ++
      inParens (commas (f.parameters.map fun p => p.1 ++ ": " ++ p.2)) ++
      (if f.fallible then " throws" else "") ++ f.returnClause)
    (f.allocated.map (fun a => line ("var " ++ a.1 ++ " = [UInt8](repeating: 0, count: " ++
        a.2.spell classSize ++ ")")) ++
      Source.lines (["let ffiResult = " ++ f.callee ++
        inParens (commas (f.passed.map (·.expression))), f.outcome s] ++
        f.returnStatement?.toList)) ++ [gap]

/-- The namespace of a module. -/
def swiftModuleLines (s : Setting) (module : Module) : List Line :=
  block ("public enum " ++ Naming.moduleClass module.name)
    (gap :: module.functions.flatMap fun f => f.swift.lines s)

/-- The file of a module. -/
def swiftModuleFile (s : Setting) (module : Module) : Source.File :=
  swiftFile s (Naming.moduleClass module.name) (swiftModuleLines s module)

end Bindery
