/-
  DOCUMENTS of the description language, and what can be wrong with them.

  A document is what the text says, before anyone asks whether it makes sense: sizes may be
  negative, types may be missing, names may repeat.  `Document.toValue` gives it the shape that
  descriptions in other formats have, so all of them are checked alike.
-/
import Bindery.Model.Basic
import Bindery.Value.Display

namespace Bindery.Idl

/-! ## What a text says -/

/-- The word for a direction in a description. -/
def directionName : Direction → String
  | .input => "in"
  | .output => "out"

/-- A parameter as written. -/
structure ParameterDecl where
  name : String
  type : String
  direction : Direction
  deriving DecidableEq, Repr

/-- A function as written. -/
structure FunctionDecl where
  name : String
  parameters : List ParameterDecl
  returns : Option String
  fallible : Bool
  deriving DecidableEq, Repr

/-- What is said about the values of a type. -/
inductive TypeBody where
  | buffer (size : Int)
  | scalar (size : Int)
  | enum (variants : List String)
  deriving DecidableEq, Repr

/-- A type as written. -/
structure TypeDecl where
  name : String
  body : TypeBody
  placement : Option String
  deriving DecidableEq, Repr

/-- A module as written. -/
structure ModuleDecl where
  name : String
  functions : List FunctionDecl
  deriving DecidableEq, Repr

/-- One statement of a document. -/
inductive Statement where
  | option (name value : String)
  | type (decl : TypeDecl)
  | module (decl : ModuleDecl)
  deriving DecidableEq, Repr

/-- The statements of a text, sorted by what they declare. -/
structure Document where
  options : List (String × String)
  types : List TypeDecl
  modules : List ModuleDecl
  deriving DecidableEq, Repr

namespace Document

/-- Nothing declared. -/
def empty : Document := ⟨[], [], []⟩

/-- Adds a statement behind those that are there. -/
def add (d : Document) : Statement → Document
  | .option name value => { d with options := d.options ++ [(name, value)] }
  | .type t => { d with types := d.types ++ [t] }
  | .module m => { d with modules := d.modules ++ [m] }

/-- Whether an option has a value already. -/
def hasOption (d : Document) (name : String) : Bool := d.options.any (·.1 == name)

end Document

/-! ## What can be wrong -/

/-- A construct that does not belong to the language. -/
inductive Fault where
  /-- A second value for an option. -/
  | repeatedOption (name : String)
  /-- A text that starts no statement. -/
  | unexpected (line : String)
  /-- A variant that is not a word. -/
  | badVariant (text : String)
  /-- A piece of a module that is not a function declaration. -/
  | badFunction (text : String)
  /-- A piece of a parameter list that is not a parameter. -/
  | badParameter (text : String)
  deriving DecidableEq, Repr

/-- Why a text is not a document. -/
inductive Failure where
  /-- A fault in the construct that starts on the given line. -/
  | rejected (line : Nat) (fault : Fault)
  /-- A size with more digits than are read. -/
  | numeralTooLong
  deriving DecidableEq, Repr

/-- The message for a fault. -/
def Fault.message : Fault → String
  | repeatedOption name => "option " ++ name ++ " set twice"
  | unexpected line => "unexpected input: " ++ Text.quoted line
  | badVariant text => "bad enum variant: " ++ Text.quoted text
  | badFunction text => "bad function declaration: " ++ Text.quoted text
  | badParameter text => "bad parameter: " ++ Text.quoted text

/-- The message for a fault with its line. -/
def Fault.messageAt (line : Nat) (fault : Fault) : String :=
  "line " ++ Decimal.integer line ++ ": " ++ fault.message

/-! ## The shape shared with other formats -/

/-- A text key with its value. -/
def entry (key : String) (v : Value) : Value × Value := (.str key, v)

/-- A parameter as a value. -/
def ParameterDecl.toValue (p : ParameterDecl) : Value :=
  .map [entry "name" (.str p.name), entry "type" (.str p.type),
    entry "direction" (.str (directionName p.direction))]

/-- A function as a value. -/
def FunctionDecl.toValue (f : FunctionDecl) : Value :=
  .map [entry "name" (.str f.name), entry "params" (.list (f.parameters.map (·.toValue))),
    entry "returns" ((f.returns.map Value.str).getD .null), entry "fallible" (.bool f.fallible)]

/-- The entries that tell what a type is. -/
def TypeBody.entries : TypeBody → List (Value × Value)
  | buffer size => [entry "kind" (.str Kind.buffer.name), entry "size" (.int size)]
  | scalar size => [entry "kind" (.str Kind.scalar.name), entry "size" (.int size)]
  | enum vs => [entry "kind" (.str Kind.enum.name), entry "variants" (.list (vs.map Value.str))]

/-- A type as a value; the placement is there only where it is written. -/
def TypeDecl.toValue (t : TypeDecl) : Value :=
  .map (entry "name" (.str t.name) :: t.body.entries ++
    (t.placement.map fun m => entry "module" (.str m)).toList)

/-- A module as a value. -/
def ModuleDecl.toValue (m : ModuleDecl) : Value :=
  .map [entry "name" (.str m.name), entry "functions" (.list (m.functions.map (·.toValue)))]

/-- A document as a value. -/
def Document.toValue (d : Document) : Value :=
  .map [entry "options" (.map (d.options.map fun o => entry o.1 (.str o.2))),
    entry "types" (.list (d.types.map (·.toValue))),
    entry "modules" (.list (d.modules.map (·.toValue)))]

end Bindery.Idl
