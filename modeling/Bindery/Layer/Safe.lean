/-
  THE SAFE LAYER: slices in, slices out.

  A safe function checks the length of every slice, copies inputs into arrays of fixed length,
  calls the wrapped library once and only then fills the outputs.
-/
import Bindery.Layer.Export

namespace Bindery

open Source

/-! ## The body of a safe function -/

/-- The type of a parameter of the safe layer. -/
inductive SafeType where
  | slice
  | mutSlice
  | number (width : Width)
  deriving DecidableEq, Repr

/-- The type of what a safe function returns. -/
inductive SafeReturn where
  | unit
  /-- An array, by the constant of its length. -/
  | array (length : String)
  | number (width : Width)
  deriving DecidableEq, Repr

/-- A statement in front of the library call. -/
inductive Prepare where
  /-- Refuses an output of the wrong length. -/
  | checkOutput (parameter : String) (size : Size)
  /-- Makes an empty array for a buffer that is filled. -/
  | emptyArray (parameter type : String)
  /-- Makes a zero for a number that is filled. -/
  | zero (parameter : String) (width : Width)
  /-- Copies an input into an array of the length of its type. -/
  | copyInput (parameter type : String)
  deriving DecidableEq, Repr

/-- An argument of the library call. -/
inductive LibraryArg where
  | borrowed (parameter : String)
  | mutBorrowed (parameter : String)
  | plain (parameter : String)
  deriving DecidableEq, Repr

/-- A function of the safe layer. -/
structure SafeFunction where
  symbol : String
  parameters : List (String × SafeType)
  returns : SafeReturn
  prepared : List Prepare
  /-- The path of the library function. -/
  callee : String
  passed : List LibraryArg
  fallible : Bool
  /-- The outputs that are filled behind the call. -/
  filled : List (String × Store)
  deriving DecidableEq, Repr

/-- The type of a parameter in the safe layer. -/
def Parameter.safeType (p : Parameter) : SafeType :=
  match p.passing with
  | .inBuffer => .slice
  | .outBuffer => .mutSlice
  | .inValue w => .number w

/-- What a result type is in the safe layer; `length` is the constant for its length. -/
def TypeDef.safeReturn (t : TypeDef) (length : String) : SafeReturn :=
  match t.shape.valueWidth? with
  | none => .array length
  | some w => .number w

/-- What a parameter needs in front of the call. -/
def Parameter.prepare (p : Parameter) : List Prepare :=
  match p.passing, p.type.shape.valueWidth? with
  | .outBuffer, none => [.checkOutput p.name p.type.size, .emptyArray p.name p.type.name]
  | .outBuffer, some w => [.checkOutput p.name p.type.size, .zero p.name w]
  | .inBuffer, _ => [.copyInput p.name p.type.name]
  | .inValue _, _ => []

/-- How a parameter is passed to the library. -/
def Parameter.libraryArg (p : Parameter) : LibraryArg :=
  match p.passing with
  | .outBuffer => .mutBorrowed p.name
  | .inBuffer => .borrowed p.name
  | .inValue _ => .plain p.name

/-- The safe function of a function, for a library at the given path. -/
def Function.safe (f : Function) (api : String) : SafeFunction where
  symbol := f.safeSymbol
  parameters := f.parameters.map fun p => (p.name, p.safeType)
  returns := (f.returns.map fun t => t.safeReturn t.lengthConstant).getD .unit
  prepared := f.parameters.flatMap (·.prepare)
  callee := f.libraryPath api
  passed := f.parameters.map (·.libraryArg)
  fallible := f.fallible
  filled := f.outputs.map fun p => (p.name, p.type.store)

/-! ## Its text -/

/-- The local that holds the value of a parameter. -/
def valueLocal (parameter : String) : String := parameter ++ "_value"

/-- The Rust array of the length that a constant holds. -/
def arrayType (length : String) : String := "[u8; " ++ length ++ "]"

/-- The Rust type of a parameter. -/
def SafeType.rust : SafeType → String
  | slice => "&[u8]"
  | mutSlice => "&mut [u8]"
  | number w => w.rust

/-- The Rust type of what is returned. -/
def SafeReturn.rust : SafeReturn → String
  | unit => "()"
  | array length => arrayType length
  | number w => w.rust

/-- A statement in front of the call as text. -/
def Prepare.statement : Prepare → String
  | checkOutput parameter size =>
    "check_output" ++ inParens (commas [parameter, size.spell Naming.lengthConstant]) ++ "?;"
  | emptyArray parameter type =>
    "let mut " ++ valueLocal parameter ++ " = [0u8; " ++ Naming.lengthConstant type ++ "];"
  | zero parameter w => "let mut " ++ valueLocal parameter ++ " = 0" ++ w.rust ++ ";"
  | copyInput parameter type =>
    "let " ++ valueLocal parameter ++ ": " ++ arrayType (Naming.lengthConstant type) ++
      " = fixed" ++ inParens parameter ++ "?;"

/-- An argument of the library call as text. -/
def LibraryArg.expression : LibraryArg → String
  | borrowed parameter => "&" ++ valueLocal parameter
  | mutBorrowed parameter => "&mut " ++ valueLocal parameter
  | plain parameter => parameter

/-- The library call. -/
def SafeFunction.call (f : SafeFunction) : String :=
  f.callee ++ inParens (commas (f.passed.map (·.expression)))

/-- The statements behind the checks: the call, the filling of outputs, and the value. -/
def SafeFunction.conclusion (f : SafeFunction) : List String :=
  if f.filled.isEmpty then [if f.fallible then f.call else "Ok" ++ inParens f.call]
  else
    let binding := if f.returns = .unit then "" else "let " ++ resultLabel ++ " = "
    let unwrap := if f.fallible then "?" else ""
    (binding ++ f.call ++ unwrap ++ ";") ::
      f.filled.map (fun x => x.2.statement x.1 (valueLocal x.1)) ++
      [if f.returns = .unit then "Ok(())" else "Ok" ++ inParens resultLabel]

/-- A safe function as text, for an error type. -/
def SafeFunction.lines (f : SafeFunction) (errorType : String) : List Line :=
  block
    ("pub fn " ++ f.symbol ++
      inParens (commas (f.parameters.map fun p => p.1 ++ ": " ++ p.2.rust)) ++
      " -> Result<" ++ f.returns.rust ++ ", " ++ errorType ++ ">")
    (Source.lines (f.prepared.map (·.statement) ++ f.conclusion)) ++ [gap]

/-! ## Helpers of the layer -/

/-- The constants of the layer: the lengths of buffers, the sizes of enumerations. -/
def safeConstants (m : Model) : List (String × Nat) :=
  m.bufferTypes.map (fun t => (t.lengthConstant, t.byteSize)) ++
    m.enumTypes.map fun t => (t.countConstant, t.shape.variants.length)

/-- Copies a slice into an array of fixed length. -/
def fixedHelper (errorType refused : String) : List Line :=
  block ("fn fixed<const N: usize>(bytes: &[u8]) -> Result<[u8; N], " ++ errorType ++ ">")
    (Source.lines ["bytes.try_into().map_err(|_| " ++ errorType ++ "::" ++ refused ++ ")"])

/-- Refuses an output of the wrong length. -/
def checkOutputHelper (errorType refused : String) : List Line :=
  block ("fn check_output(bytes: &[u8], expected: usize) -> Result<(), " ++ errorType ++ ">")
    (line ("if bytes.len() == expected " ++ opening) :: indent (Source.lines ["Ok(())"]) ++
      line (closing ++ " else " ++ opening) ::
      indent (Source.lines ["Err(" ++ errorType ++ "::" ++ refused ++ ")"]) ++ [line closing])

/-- The directory of the safe layer. -/
def safeDir : String := "simpleapi"

/-- The safe layer; `refused` is the library variant for refused arguments. -/
def safeLayer (s : Setting) (m : Model) (refused : String) : Source.File :=
  let errorType := s.options.errorTypeName
  s.file (safeDir ++ "/simpleapi.rs") <|
    Source.lines ["#![allow(non_snake_case)]", "", "use std::convert::TryInto;", "",
      "use " ++ s.options.errorType ++ ";", ""] ++
    (safeConstants m).map (fun c =>
      line ("pub const " ++ c.1 ++ ": usize = " ++ Decimal.integer c.2 ++ ";")) ++
    gap :: fixedHelper errorType refused ++ gap :: checkOutputHelper errorType refused ++ gap ::
    m.functions.flatMap fun f => (f.safe s.options.apiPath).lines errorType

end Bindery
