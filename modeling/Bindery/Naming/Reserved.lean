/-
  RESERVED NAMES: what a description may not use.

  A declared name ends up as an identifier in Rust, Java, C and Swift at once, beside the names
  that the generated code brings along, so what any of them reserves is refused everywhere.
-/
import Bindery.Model.Basic

namespace Bindery.Naming

/-- Words that no parameter may have as its name. -/
def reservedWords : List String :=
  -- Rust
  ["as", "break", "const", "continue", "crate", "else", "enum", "extern", "false", "fn",
   "for", "if", "impl", "in", "let", "loop", "match", "mod", "move", "mut", "pub", "ref",
   "return", "self", "static", "struct", "super", "trait", "true", "type", "unsafe", "use",
   "where", "while", "async", "await", "dyn", "abstract", "box", "do", "final", "macro",
   "override", "priv", "typeof", "unsized", "virtual", "yield", "try",
  -- Java
   "assert", "boolean", "byte", "case", "catch", "char", "class", "default", "double",
   "extends", "finally", "float", "goto", "implements", "import", "instanceof", "int",
   "interface", "long", "native", "new", "null", "package", "private", "protected",
   "public", "short", "strictfp", "switch", "synchronized", "this", "throw", "throws",
   "transient", "void", "volatile",
  -- Swift and C
   "func", "guard", "init", "inout", "internal", "is", "nil", "operator", "protocol",
   "repeat", "rethrows", "subscript", "typealias", "var", "unsigned", "signed", "sizeof",
   "register", "auto", "union",
  -- locals of the generated bodies
   "env", "ffiResult", "result", "code", "e",
  -- helpers that the generated bodies call
   "fixed", "simpleapi", "decodeScalar", "decodeEnum", "precondition", "check"]

/-- Class names that the bindings bring along or rely on. -/
def reservedTypeNames : List String :=
  ["Native", "ByteArray", "ByteArrayValue", "ZkGroupError", "ZkGroupException",
   "InvalidInputException", "VerificationFailedException", "Self", "Type", "String", "Object",
   "Error"]

/-- Whether a member or a case may not have the name. -/
def isReserved (name : String) : Bool := reservedWords.contains name

/-- Whether a module may not have the name: the internal module is open to functions. -/
def isReservedModule (name : String) : Bool :=
  name != Model.internalModule && isReserved name

end Bindery.Naming
