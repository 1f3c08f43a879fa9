/-
  JAVA SUPPORT: exceptions, native declarations and the base of value classes.
-/
import Bindery.Layer.Results
import Bindery.Layer.Setting

namespace Bindery

open Source

/-- The directory of the Java classes. -/
def javaDir : String := "java"

/-- The exception that all others extend. -/
def baseException : String := "ZkGroupException"

/-- A Java file: its package, and its lines. -/
def javaFile (s : Setting) (path package : String) (body : List Line) : Source.File :=
  s.file (javaDir ++ "/" ++ path ++ ".java")
    (line ("package " ++ package ++ ";") :: gap :: body)

/-- A class below the base package. -/
def Setting.baseClass (s : Setting) (name : String) : String :=
  s.options.javaPackage ++ "." ++ name

/-- The constant of an error code, outside the base exception. -/
def codeConstant (constant : String) : String := baseException ++ "." ++ constant

/-! ## Exceptions -/

/-- The exceptions with a class of their own. -/
def ErrorTable.derivedExceptions (t : ErrorTable) : List String :=
  t.javaExceptions.filter (· != baseException)

/-- The codes that are reported by an exception. -/
def ErrorTable.reportedBy (t : ErrorTable) (exception : String) : List ErrorCode :=
  t.failures.filter (·.javaException == some exception)

/-- How a number is turned into an exception: the numbers of each class, in order. -/
def ErrorTable.throwCases (t : ErrorTable) : List (String × List String) :=
  t.derivedExceptions.map fun e => (e, (t.reportedBy e).map (·.constant))

/-- The constants of the base exception. -/
def ErrorTable.javaConstants (t : ErrorTable) : List (String × Int) :=
  t.codes.map fun c => (c.constant, c.value)

/-- The method that turns a number into an exception. -/
def checkResultMethod (s : Setting) : List Line :=
  let case (constant : String) := line ("case " ++ constant ++ ":")
  block ("public static void checkResult(int code) throws " ++ baseException)
    (block "switch (code)"
      (case s.ok :: indent [line "return;"] ++
        s.codes.table.throwCases.flatMap (fun x =>
          x.2.map case ++ indent [line ("throw new " ++ x.1 ++ "(code);")]) ++
        line "default:" :: indent [line ("throw new " ++ baseException ++ "(code);")]))

/-- The base exception. -/
def baseExceptionFile (s : Setting) : Source.File :=
  javaFile s baseException s.options.javaPackage <|
    Source.lines ["/** Error reported by the native zkgroup library; " ++ opening ++
      "@link #getCode()" ++ closing ++ " is the numeric FFI code. */"] ++
    block ("public class " ++ baseException ++ " extends Exception")
      (gap ::
        s.codes.table.javaConstants.map (fun c => line ("public static final int " ++ c.1 ++
          " = " ++ Decimal.integer c.2 ++ ";")) ++
        Source.lines ["", "private final int code;", ""] ++
        block ("public " ++ baseException ++ "(int code)")
          (Source.lines ["this(code, \"zkgroup error \" + code);"]) ++
        gap ::
        block ("public " ++ baseException ++ "(int code, String message)")
          (Source.lines ["super(message);", "this.code = code;"]) ++
        gap ::
        block "public int getCode()" (Source.lines ["return code;"]) ++
        gap :: checkResultMethod s)

/-- An exception of its own class. -/
def exceptionFile (s : Setting) (name : String) : Source.File :=
  javaFile s name s.options.javaPackage <|
    Source.lines ["/** Raised for " ++
      commas ((s.codes.table.reportedBy name).map (·.constant)) ++ ". */"] ++
    block ("public class " ++ name ++ " extends " ++ baseException)
      (gap ::
        block ("public " ++ name ++ "(int code)") (Source.lines ["super(code);"]) ++
        gap ::
        block ("public " ++ name ++ "(int code, String message)")
          (Source.lines ["super(code, message);"]))

/-! ## Native methods -/

/-- A native method. -/
structure NativeMethod where
  name : String
  parameters : List (String × Passing)
  deriving DecidableEq, Repr

/-- The native method of a function. -/
def Function.native (f : Function) : NativeMethod where
  name := f.nativeMethod
  parameters := f.arguments.map fun a => (a.name, a.passing)

/-- A native method as text. -/
def NativeMethod.text (n : NativeMethod) : String :=
  "public static native int " ++ n.name ++
    inParens (commas (n.parameters.map fun p => p.2.java ++ " " ++ p.1)) ++ ";"

/-- The class that declares the native methods; it loads their library. -/
def nativeFile (s : Setting) (m : Model) (library : FileText) : Source.File :=
  let file := javaFile s "internal/Native" (s.package Model.internalModule) <|
    block "public final class Native"
      (gap ::
        block "static" (Source.lines ["System.loadLibrary(\"" ++ library.text ++ "\");"]) ++
        gap ::
        block "private Native()" [] ++
        gap ::
        m.functions.map fun f => line f.native.text)
  { file with encodable := file.encodable && library.encodable }

/-! ## The base of value classes -/

/-- A method that reads a number, the least significant byte first. -/
def decodeMethod (type name : String) : List Line :=
  block ("public static " ++ type ++ " " ++ name ++ "(byte[] bytes)")
    (line (type ++ " value = 0;") ::
      block "for (int i = bytes.length - 1; i >= 0; i--)"
        (Source.lines ["value = (value << 8) | (bytes[i] & 0xff);"]) ++
      [line "return value;"])

/-- The base of the value classes of buffers. -/
def byteArrayFile (s : Setting) : Source.File :=
  let refused := s.codes.invalidInput.exceptionName
  javaFile s "internal/ByteArray" (s.package Model.internalModule) <|
    Source.lines ["import java.util.Arrays;", "import " ++ s.baseClass refused ++ ";",
      "import " ++ s.baseClass baseException ++ ";", "",
      "/** Fixed-length byte contents shared by every serialized zkgroup value. */"] ++
    block "public abstract class ByteArray"
      (Source.lines ["", "protected final byte[] contents;", ""] ++
        block ("protected ByteArray(byte[] contents, int expectedLength) throws " ++ refused)
          (block "if (contents == null || contents.length != expectedLength)"
            (line ("throw new " ++ refused ++ "(" ++ codeConstant s.refused ++ ",") ::
              indent (Source.lines ["\"expected \" + expectedLength + \" bytes, got \"",
                "+ (contents == null ? \"null\" : Integer.toString(contents.length)));"])) ++
            Source.lines ["this.contents = contents.clone();"]) ++
        gap ::
        block "public byte[] getInternalContentsForJNI()" (Source.lines ["return contents;"]) ++
        gap ::
        block "public byte[] serialize()" (Source.lines ["return contents.clone();"]) ++
        Source.lines ["", "@Override"] ++
        block "public boolean equals(Object other)" (Source.lines
          ["if (this == other) return true;",
            "if (other == null || getClass() != other.getClass()) return false;",
            "return Arrays.equals(contents, ((ByteArray) other).contents);"]) ++
        Source.lines ["", "@Override"] ++
        block "public int hashCode()" (Source.lines ["return Arrays.hashCode(contents);"]) ++
        Source.lines ["", "/** Little-endian unsigned value of up to four bytes. */"] ++
        decodeMethod "int" "decodeInt" ++ gap :: decodeMethod "long" "decodeLong")

end Bindery
