/-
  SYMBOLS: what the declared things are called in each layer of the bindings.

  Every name is a function of declared names alone, so layers that are generated apart agree on
  their symbols without comparing them.
-/
import Bindery.Model.Basic
import Bindery.Naming.WordCase
import Bindery.Text.Blank

namespace Bindery

open Naming

/-! ## Functions -/

namespace Function

/-- The exported symbol of the native layer. -/
def coreSymbol (f : Function) : String := "ffi_" ++ f.module ++ "_" ++ f.name

/-- The function of the safe layer. -/
def safeSymbol (f : Function) : String := f.module ++ "_" ++ f.name

/-- The path of the wrapped library function below the given one. -/
def libraryPath (f : Function) (api : String) : String :=
  api ++ "::" ++ f.module ++ "::" ++ snakeCase f.name

/-- The native method of the Java side. -/
def nativeMethod (f : Function) : String := f.module ++ capitalize f.name ++ "JNI"

/-- The class that holds the results of a function with several of them. -/
def resultClass (f : Function) : String := capitalize f.name ++ "Result"

end Function

namespace Naming

/-- A Java identifier inside a native symbol: an underscore is written `_1`. -/
def mangle (identifier : List Char) : List Char :=
  identifier.flatMap fun c => if c == '_' then ['_', '1'] else [c]

/-- A dotted name inside a native symbol: an underscore stands for a dot. -/
def manglePath (path : List Char) : List Char :=
  ['_'].intercalate ((Text.splitOn '.' path).map mangle)

/-- A Java identifier inside a native symbol. -/
def mangled (identifier : String) : String := String.ofList (mangle identifier.toList)

/-- The class that declares the native methods, below the base package. -/
def nativeClass : String := "internal_Native"

end Naming

/-- The symbol under which the Java side looks for the native method. -/
def Function.nativeSymbol (f : Function) (package : String) : String :=
  "Java_" ++ String.ofList (manglePath package.toList) ++ "_" ++ nativeClass ++ "_" ++
    mangled f.nativeMethod

/-! ## Modules, types and variants -/

namespace Naming

/-- The wrapper class of a module. -/
def moduleClass (module : String) : String := capitalize module

/-- What the constants of a type start with. -/
def stem (type : String) : String := constantCase type

/-- The constant for the length of a type. -/
def lengthConstant (type : String) : String := stem type ++ "_LEN"

/-- The constant for the number of variants of a type. -/
def countConstant (type : String) : String := stem type ++ "_VARIANTS"

/-- The constant for a variant. -/
def variantConstant (variant : String) : String := constantCase variant

/-- The case for a variant. -/
def variantCase (variant : String) : String := uncapitalize variant

/-- The argument that carries the length of another one. -/
def lengthSlot (argument : String) : String := argument ++ "Len"

/-- The argument that receives the result. -/
def resultSlot : String := "out"

end Naming

namespace TypeDef

/-- The constant for the length of the type. -/
def lengthConstant (t : TypeDef) : String := Naming.lengthConstant t.name

/-- The constant for the number of variants of the type. -/
def countConstant (t : TypeDef) : String := Naming.countConstant t.name

end TypeDef

end Bindery
