/-
  SWIFT SUPPORT: the error type, and what all value types share.
-/
import Bindery.Layer.Header
import Bindery.Naming.Symbol

namespace Bindery

open Source

/-- The directory of the Swift files and the header. -/
def swiftDir : String := "swift"

/-- The error type of the Swift side. -/
def swiftError : String := "ZkGroupError"

/-- A Swift file. -/
def swiftFile (s : Setting) (name : String) (body : List Line) : Source.File :=
  s.file (swiftDir ++ "/" ++ name ++ ".swift") body

/-! ## The error type -/

/-- The cases of the error type with their numbers. -/
def ErrorTable.swiftCases (t : ErrorTable) : List (String × Int) :=
  t.failures.map fun c => (c.caseName, c.value)

/-- The error type. -/
def swiftErrorFile (s : Setting) : Source.File :=
  swiftFile s swiftError <|
    block ("public enum " ++ swiftError ++ ": Int32, Error")
      (s.codes.table.swiftCases.map (fun c =>
          line ("case " ++ c.1 ++ " = " ++ Decimal.integer c.2)) ++
        gap ::
        block "static func check(_ ffiResult: Int32) throws"
          (block ("if ffiResult == " ++ s.ok) (Source.lines ["return"]) ++
            Source.lines ["throw " ++ swiftError ++ "(rawValue: ffiResult) ?? ." ++
              s.codes.internalError.caseName]))

/-! ## What value types share -/

/-- The protocol of buffers, and the functions that decode what a call fills. -/
def swiftByteArrayFile (s : Setting) : Source.File :=
  swiftFile s "ByteArray" <|
    block "public protocol ByteArrayValue" (Source.lines
      ["static var SIZE: Int " ++ inBraces "get", "var contents: [UInt8] " ++ inBraces "get",
        "init(contents: [UInt8]) throws"]) ++
    gap ::
    block "extension ByteArrayValue"
      (block "static func checkLength(_ contents: [UInt8]) throws"
          (block "guard contents.count == SIZE else"
            (Source.lines ["throw " ++ swiftError ++ "." ++ s.codes.invalidInput.caseName])) ++
        gap ::
        block "public func serialize() -> [UInt8]" (Source.lines ["return contents"])) ++
    gap ::
    block "func decodeScalar<T: FixedWidthInteger>(_ bytes: [UInt8]) -> T"
      (line "var value: T = 0" ::
        block "for byte in bytes.reversed()" (Source.lines ["value = (value << 8) | T(byte)"]) ++
        [line "return value"]) ++
    gap ::
    block
      "func decodeEnum<T: RawRepresentable>(_ bytes: [UInt8]) throws -> T where T.RawValue == UInt8"
      (block "guard let value = T(rawValue: bytes[0]) else"
          (Source.lines ["throw " ++ swiftError ++ "." ++ s.codes.internalError.caseName]) ++
        [line "return value"])

/-! ## Value types -/

/-- The value type of a buffer. -/
def bufferStruct (s : Setting) (name : String) : Source.File :=
  swiftFile s name <|
    block ("public struct " ++ name ++ ": ByteArrayValue")
      (Source.lines ["public static let SIZE = Int" ++ inParens (Naming.lengthConstant name), "",
          "public let contents: [UInt8]", ""] ++
        block "public init(contents: [UInt8]) throws" (Source.lines
          ["try " ++ name ++ ".checkLength(contents)", "self.contents = contents"]))

/-- The cases of an enumeration with their numbers. -/
def swiftCases (variants : List String) : List (String × Nat) :=
  (variants.map Naming.variantCase).zipIdx

/-- The value type of an enumeration. -/
def swiftEnum (s : Setting) (name : String) (variants : List String) : Source.File :=
  swiftFile s name <|
    block ("public enum " ++ name ++ ": UInt8")
      ((swiftCases variants).map fun c => line ("case " ++ c.1 ++ " = " ++ Decimal.integer c.2))

/-- The value type of a type; plain numbers have none. -/
def swiftValueFile? (s : Setting) (t : TypeDef) : Option Source.File :=
  match t.shape with
  | .buffer _ => some (bufferStruct s t.name)
  | .enum variants => some (swiftEnum s t.name variants)
  | .scalar _ => none

end Bindery
