/-
  FAULTS: why a description is not a model.

  There are two families.  A MALFORMED description does not have the shape that a description
  must have; an INVALID one has it, but what it declares is not an API.  Every cause is a
  constructor, and the wording of all of them is in this file.  A cause shows values by their
  texts; where a value has none, because it holds a number that is too long, the description is
  UNWRITABLE, and nothing is said about what else is wrong with it.
-/
import Bindery.Boundary
import Bindery.Value.Display

namespace Bindery

/-- A description that does not have the shape of one. -/
inductive Malformed where
  /-- Something else where a map with fields should be. -/
  | notMapping (place kind : String)
  /-- A field that has to be there. -/
  | missing (place key : String)
  /-- A field that has to be a text. -/
  | notText (place key : String)
  /-- A field that has to be a list. -/
  | notList (place key : String)
  /-- A kind of type that there is not, by its literal. -/
  | unknownKind (place literal : String)
  /-- A placement for a plain number. -/
  | placedScalar (place : String)
  /-- A direction that there is not. -/
  | badDirection (parameter : String)
  /-- A mark for failures that is not a truth value. -/
  | badFallible (function : String)
  deriving DecidableEq, Repr

/-- The message for a malformed description. -/
def Malformed.message : Malformed → String
  | notMapping place kind => place ++ ": expected a mapping, got " ++ kind
  | missing place key => place ++ ": missing '" ++ key ++ "'"
  | notText place key => place ++ ": '" ++ key ++ "' must be str"
  | notList place key => place ++ ": '" ++ key ++ "' must be a list"
  | unknownKind place literal => place ++ ": unknown kind " ++ literal
  | placedScalar place => place ++ ": scalar types have no module placement"
  | badDirection parameter => parameter ++ ": direction must be 'in' or 'out'"
  | badFallible function => function ++ ": 'fallible' must be true or false"

/-- The most variants of an enumeration: its number travels as one byte. -/
def maxVariants : Nat := 256

/-- A description of something that is not an API. -/
inductive Invalid where
  /-- A module with a name that no module may have. -/
  | moduleName (name : String)
  /-- A second module of one name. -/
  | repeatedModule (name : String)
  /-- A type with a name that no type may have. -/
  | typeName (name : String)
  /-- A type with the name of a module's class. -/
  | moduleClass (name : String)
  /-- A second type of one name. -/
  | repeatedType (name : String)
  /-- A type whose constants have the names of another's. -/
  | sharedStem (name other : String)
  /-- A type whose file has the name of another, but for the case. -/
  | sharedFile (name other : String)
  /-- A placement in a module that there is not. -/
  | unknownModule (name placement : String)
  /-- A size that is not a positive number, by its literal. -/
  | badSize (name literal : String)
  /-- A number of a width that there is not. -/
  | badWidth (name : String)
  /-- An enumeration with no variant or too many. -/
  | variantCount (name : String)
  /-- A variant with a name that no variant may have. -/
  | variantName (name variant : String)
  /-- A variant whose case is a reserved word. -/
  | reservedVariant (name variant : String)
  /-- A second variant of one name. -/
  | repeatedVariant (name variant : String)
  /-- A variant with the generated name of an earlier one. -/
  | sharedVariant (name variant generated : String)
  /-- A use of a type that there is not. -/
  | unknownType (user type : String)
  /-- A function with a name that no function may have. -/
  | functionName (function : String)
  /-- A second function of one name in a module. -/
  | repeatedFunction (function : String)
  /-- A parameter with a name that no parameter may have. -/
  | parameterName (parameter : String)
  /-- A second parameter of one name in a function. -/
  | repeatedParameter (parameter : String)
  /-- An argument with the name of an earlier one. -/
  | sharedArgument (argument : String)
  deriving DecidableEq, Repr

namespace Invalid

/-- The families of causes. -/
inductive Family where
  | undefinedType
  | duplicateName
  | invalidLength
  | invalidName
  | undefinedModule
  deriving DecidableEq, Repr

/-- The word for a family. -/
def Family.name : Family → String
  | undefinedType => "UndefinedType"
  | duplicateName => "DuplicateName"
  | invalidLength => "InvalidLength"
  | invalidName => "InvalidName"
  | undefinedModule => "UndefinedModule"

/-- The family of a cause. -/
def family : Invalid → Family
  | moduleName _ => .invalidName
  | repeatedModule _ => .duplicateName
  | typeName _ => .invalidName
  | moduleClass _ => .invalidName
  | repeatedType _ => .duplicateName
  | sharedStem _ _ => .duplicateName
  | sharedFile _ _ => .duplicateName
  | unknownModule _ _ => .undefinedModule
  | badSize _ _ => .invalidLength
  | badWidth _ => .invalidLength
  | variantCount _ => .invalidLength
  | variantName _ _ => .invalidName
  | reservedVariant _ _ => .invalidName
  | repeatedVariant _ _ => .duplicateName
  | sharedVariant _ _ _ => .duplicateName
  | unknownType _ _ => .undefinedType
  | functionName _ => .invalidName
  | repeatedFunction _ => .duplicateName
  | parameterName _ => .invalidName
  | repeatedParameter _ => .duplicateName
  | sharedArgument _ => .duplicateName

/-- What the cause is found at. -/
def entity : Invalid → String
  | moduleName name => name
  | repeatedModule name => name
  | typeName name => name
  | moduleClass name => name
  | repeatedType name => name
  | sharedStem name _ => name
  | sharedFile name _ => name
  | unknownModule name placement => name ++ ".module=" ++ placement
  | badSize name _ => name
  | badWidth name => name
  | variantCount name => name
  | variantName name v => name ++ "." ++ v
  | reservedVariant name v => name ++ "." ++ v
  | repeatedVariant name v => name ++ "." ++ v
  | sharedVariant name v _ => name ++ "." ++ v
  | unknownType user type => user ++ ": " ++ type
  | functionName function => function
  | repeatedFunction function => function
  | parameterName parameter => parameter
  | repeatedParameter parameter => parameter
  | sharedArgument argument => argument

/-- What more there is to say. -/
def detail : Invalid → Option String
  | moduleName _ => some "module names are lowercase letters and digits"
  | repeatedModule _ => some "module"
  | typeName _ => some "type names are UpperCamelCase"
  | moduleClass _ => some "clashes with a module class"
  | repeatedType _ => some "type"
  | sharedStem name other =>
    some ("constants clash with " ++ other ++ " (" ++ Naming.stem name ++ "_*)")
  | sharedFile _ other => some ("file name clashes with " ++ other)
  | unknownModule _ _ => none
  | badSize _ literal => some ("size=" ++ literal)
  | badWidth _ => some "scalar width must be one of (1, 2, 4, 8)"
  | variantCount _ => some ("enums need 1.." ++ Decimal.integer maxVariants ++ " variants")
  | variantName _ _ => none
  | reservedVariant _ v => some ("'" ++ Naming.variantCase v ++ "' is a reserved word")
  | repeatedVariant _ _ => some "enum variant"
  | sharedVariant _ _ generated => some ("generates " ++ generated ++ " twice")
  | unknownType _ _ => none
  | functionName _ => none
  | repeatedFunction _ => some "function"
  | parameterName _ => none
  | repeatedParameter _ => some "parameter"
  | sharedArgument _ => some "clashes with a generated argument"

/-- The message for an invalid description. -/
def message (e : Invalid) : String :=
  e.family.name ++ ": " ++ e.entity ++
    match e.detail with
    | some text => " (" ++ text ++ ")"
    | none => ""

end Invalid

/-- Why a description is not a model. -/
inductive ModelFault where
  | malformed (cause : Malformed)
  | invalid (cause : Invalid)
  /-- A fault that cannot be told, because a number in it is too long. -/
  | unwritable
  deriving DecidableEq, Repr

/-- The message for a fault. -/
def ModelFault.message : ModelFault → String
  | malformed cause => cause.message
  | invalid cause => cause.message
  | unwritable => "a number is too long to be written"

end Bindery
