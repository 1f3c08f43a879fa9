/-
  JAVA VALUES: a class for every buffer and enumeration.
-/
import Bindery.Layer.JavaSupport

namespace Bindery

open Source

/-- The file of a type below the Java directory. -/
def javaTypePath (home type : String) : String := home ++ "/" ++ type

/-- The value class of a buffer. -/
def bufferClass (s : Setting) (home name : String) (size : Nat) : Source.File :=
  let refused := s.codes.invalidInput.exceptionName
  javaFile s (javaTypePath home name) (s.package home) <|
    Source.lines ["import " ++ s.baseClass refused ++ ";",
      "import " ++ s.package Model.internalModule ++ ".ByteArray;", ""] ++
    block ("public final class " ++ name ++ " extends ByteArray")
      (Source.lines ["", "public static final int SIZE = " ++ Decimal.integer size ++ ";", ""] ++
        block ("public " ++ name ++ "(byte[] contents) throws " ++ refused)
          (Source.lines ["super(contents, SIZE);"]))

/-- The constants of an enumeration with their numbers. -/
def javaConstants (variants : List String) : List (String × Nat) :=
  (variants.map Naming.variantConstant).zipIdx

/-- The declarations of the constants; the last one ends the list. -/
def javaConstantLines : List (String × Nat) → List Line
  | [] => []
  | [c] => [line (c.1 ++ inParens (Decimal.integer c.2) ++ ";")]
  | c :: cs => line (c.1 ++ inParens (Decimal.integer c.2) ++ ",") :: javaConstantLines cs

/-- The value class of an enumeration. -/
def enumClass (s : Setting) (home name : String) (variants : List String) : Source.File :=
  let refused := s.codes.invalidInput.exceptionName
  javaFile s (javaTypePath home name) (s.package home) <|
    Source.lines ["import " ++ s.baseClass refused ++ ";",
      "import " ++ s.baseClass baseException ++ ";", ""] ++
    block ("public enum " ++ name)
      (javaConstantLines (javaConstants variants) ++
        Source.lines ["", "private final int value;", ""] ++
        block (name ++ "(int value)") (Source.lines ["this.value = value;"]) ++
        gap ::
        block "public int getValue()" (Source.lines ["return value;"]) ++
        gap ::
        block ("public static " ++ name ++ " fromValue(int value) throws " ++ refused)
          (block ("for (" ++ name ++ " e : values())")
              (Source.lines ["if (e.value == value) return e;"]) ++
            line ("throw new " ++ refused ++ "(" ++ codeConstant s.refused ++ ",") ::
            indent (Source.lines ["\"Unknown " ++ name ++ " value: \" + value);"])))

/-- The value class of a type; plain numbers have none. -/
def javaValueFile? (s : Setting) (home : String) (t : TypeDef) : Option Source.File :=
  match t.shape with
  | .buffer size => some (bufferClass s home t.name size)
  | .enum variants => some (enumClass s home t.name variants)
  | .scalar _ => none

end Bindery
