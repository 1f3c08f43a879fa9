/-
  JAVA WRAPPERS: one class a module, one method a function.

  A method checks the range of narrow numbers, makes room for what is filled, calls the native
  method once, turns the number it returns into an exception and decodes what was filled.
-/
import Bindery.Layer.Glue
import Bindery.Layer.JavaValue
import Bindery.Text.Order

namespace Bindery

open Source

/-! ## The body of a method -/

/-- An argument of the native call. -/
inductive NativeArg where
  /-- The bytes of a value class. -/
  | contents (parameter : String)
  /-- The number of a variant. -/
  | ordinal (parameter : String)
  /-- A number, or a local array that is filled. -/
  | plain (name : String)
  deriving DecidableEq, Repr

/-- How filled bytes become a value. -/
inductive JavaDecode where
  | buffer (type slot : String)
  | enum (type slot : String)
  | int (slot : String)
  | long (slot : String)
  deriving DecidableEq, Repr

/-- A method of a wrapper class. -/
structure JavaMethod where
  name : String
  returns : String
  parameters : List (String × String)
  /-- The exception that the method declares. -/
  throws : Option String
  /-- The numbers whose range is checked. -/
  ranged : List (String × Width)
  /-- The local arrays that the call fills. -/
  allocated : List (String × Size)
  /-- The native method that is called. -/
  callee : String
  passed : List NativeArg
  fallible : Bool
  decoded : List JavaDecode
  /-- The class that holds several values. -/
  holder : String
  /-- Whether decoding is guarded, because it can throw what the method does not declare. -/
  guarded : Bool
  deriving DecidableEq, Repr

/-- The number of a narrow plain number that is read. -/
def Parameter.ranged? (p : Parameter) : Option (String × Width) :=
  match p.type.shape with
  | .scalar w => if w.isNarrow then some (p.name, w) else none
  | _ => none

namespace Function

/-- The inputs whose range is checked: plain numbers narrower than the type that carries them. -/
def ranged (f : Function) : List (String × Width) := f.inputs.filterMap (·.ranged?)

/-- Whether decoding what the call fills can throw. -/
def decodeThrows (f : Function) : Bool := f.deliveries.any fun d => !d.type.isScalar

/-- Whether a method has to guard its decoding. -/
def guarded (f : Function) : Bool := !f.fallible && f.decodeThrows

/-- What a method returns. -/
def javaReturns (f : Function) : String :=
  match f.deliveries with
  | [] => "void"
  | [d] => d.type.javaValue
  | _ => f.resultClass

end Function

/-- What is passed to the native method for an argument. -/
def Argument.nativeArg (a : Argument) : NativeArg :=
  match a.passing, a.type.shape with
  | .inBuffer, _ => .contents a.name
  | .inValue _, .enum _ => .ordinal a.name
  | _, _ => .plain a.name

/-- How a delivered value is decoded. -/
def Delivery.javaDecode (d : Delivery) : JavaDecode :=
  match d.type.shape with
  | .buffer _ => .buffer d.type.name d.slot
  | .enum _ => .enum d.type.name d.slot
  | .scalar .eight => .long d.slot
  | .scalar _ => .int d.slot

/-- The method of a function. -/
def Function.javaMethod (f : Function) (s : Setting) : JavaMethod where
  name := f.name
  returns := f.javaReturns
  parameters := f.inputs.map fun p => (p.type.javaValue, p.name)
  throws :=
    if f.fallible then some baseException
    else if f.ranged.isEmpty then none
    else some s.codes.invalidInput.exceptionName
  ranged := f.ranged
  allocated := (f.arguments.filter (·.isFilled)).map fun a => (a.name, a.type.size)
  callee := f.nativeMethod
  passed := f.arguments.map (·.nativeArg)
  fallible := f.fallible
  decoded := f.deliveries.map (·.javaDecode)
  holder := f.resultClass
  guarded := f.guarded

/-! ## Its text -/

/-- An argument of the native call as text. -/
def NativeArg.expression : NativeArg → String
  | contents parameter => parameter ++ ".getInternalContentsForJNI()"
  | ordinal parameter => parameter ++ ".getValue()"
  | plain name => name

/-- A decoded value as text. -/
def JavaDecode.expression : JavaDecode → String
  | buffer type slot => "new " ++ type ++ inParens slot
  | enum type slot => type ++ ".fromValue(" ++ slot ++ "[0] & 0xff)"
  | int slot => "ByteArray.decodeInt" ++ inParens slot
  | long slot => "ByteArray.decodeLong" ++ inParens slot

/-- The greatest number of a width. -/
def Width.greatest (w : Width) : Nat := Nat.pow 2 (8 * w.bytes) - 1

/-- The check that a number is in the range of its width. -/
def rangeCheck (s : Setting) (x : String × Width) : List Line :=
  let limit := "0x" ++ String.ofList (Nat.toDigits 16 x.2.greatest)
  block ("if (" ++ x.1 ++ " < 0 || " ++ x.1 ++ " > " ++ limit ++ ")")
    (line ("throw new " ++ s.codes.invalidInput.exceptionName ++ "(" ++
        codeConstant s.refused ++ ",") ::
      indent (Source.lines ["\"" ++ x.1 ++ " out of range: \" + " ++ x.1 ++ ");"]))

/-- What a method does with the number that the native method returns. -/
def JavaMethod.outcome (s : Setting) (m : JavaMethod) : List Line :=
  if m.fallible then [line (baseException ++ ".checkResult(ffiResult);")]
  else
    block ("if (ffiResult != " ++ codeConstant s.ok ++ ")")
      (Source.lines ["throw new AssertionError(\"" ++ m.callee ++
        " returned \" + ffiResult);"])

/-- The statement that hands out the decoded values. -/
def JavaMethod.returnStatement? (m : JavaMethod) : Option String :=
  match m.decoded with
  | [] => none
  | [d] => some ("return " ++ d.expression ++ ";")
  | ds => some ("return new " ++ m.holder ++ inParens (commas (ds.map (·.expression))) ++ ";")

/-- The end of a method. -/
def JavaMethod.conclusion (s : Setting) (m : JavaMethod) : List Line :=
  match m.returnStatement? with
  | none => []
  | some statement =>
    if m.guarded then
      line ("try " ++ opening) :: indent [line statement] ++
        line (closing ++ " catch (" ++ s.codes.invalidInput.exceptionName ++ " e) " ++ opening) ::
        indent [line "throw new AssertionError(e);"] ++ [line closing]
    else [line statement]

/-- A method as text. -/
def JavaMethod.lines (s : Setting) (m : JavaMethod) : List Line :=
  block
    ("public static " ++ m.returns ++ " " ++ m.name ++
      inParens (commas (m.parameters.map fun p => p.1 ++ " " ++ p.2)) ++
      match m.throws with
      | some exception => " throws " ++ exception
      | none => "")
    (m.ranged.flatMap (rangeCheck s) ++
      m.allocated.map (fun a =>
        line ("byte[] " ++ a.1 ++ " = new byte[" ++ a.2.spell classSize ++ "];")) ++
      line ("int ffiResult = Native." ++ m.callee ++
        inParens (commas (m.passed.map (·.expression))) ++ ";") ::
      m.outcome s ++ m.conclusion s) ++ [gap]

/-! ## Result classes -/

/-- The fields of the class that holds the values of a function. -/
def Function.resultFields (f : Function) : List (String × String) :=
  f.deliveries.map fun d => (d.type.javaValue, d.label)

/-- The class that holds the values of a function. -/
def resultClassLines (name : String) (fields : List (String × String)) : List Line :=
  block ("public static final class " ++ name)
    (fields.map (fun x => line ("public final " ++ x.1 ++ " " ++ x.2 ++ ";")) ++
      gap ::
      block (name ++ inParens (commas (fields.map fun x => x.1 ++ " " ++ x.2)))
        (fields.map fun x => line ("this." ++ x.2 ++ " = " ++ x.2 ++ ";"))) ++ [gap]

/-! ## The file of a module -/

/-- The classes that the methods of a function name. -/
def Function.javaImports (f : Function) (s : Setting) (m : Model) : List String :=
  (f.usedTypes.filter fun t => !t.isScalar && m.homeModule t != f.module).map
      (fun t => s.package (m.homeModule t) ++ "." ++ t.name) ++
    (if f.deliveries.any (·.type.isScalar) then [s.package Model.internalModule ++ ".ByteArray"]
      else []) ++
    if f.ranged.isEmpty && !f.guarded then [] else [s.baseClass s.codes.invalidInput.exceptionName]

/-- The classes that the class of a module imports. -/
def javaImports (s : Setting) (m : Model) (module : Module) : List String :=
  Text.sortDistinct <|
    (if module.functions.isEmpty then []
      else [s.baseClass baseException, s.package Model.internalModule ++ ".Native"]) ++
    module.functions.flatMap fun f => f.javaImports s m

/-- What a function adds to the class of its module. -/
def Function.javaMembers (f : Function) (s : Setting) : List Line :=
  (if f.outputCount > 1 then resultClassLines f.resultClass f.resultFields else []) ++
    (f.javaMethod s).lines s

/-- The class of a module. -/
def javaModuleFile (s : Setting) (m : Model) (module : Module) : Source.File :=
  let name := Naming.moduleClass module.name
  javaFile s (module.name ++ "/" ++ name) (s.package module.name) <|
    (javaImports s m module).map (fun i => line ("import " ++ i ++ ";")) ++
    gap ::
    block ("public final class " ++ name)
      (gap :: block ("private " ++ name ++ "()") [] ++
        gap :: module.functions.flatMap fun f => f.javaMembers s)

end Bindery
