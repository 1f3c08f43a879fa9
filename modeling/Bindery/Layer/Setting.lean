/-
  THE SETTING of a layer: what all generated files depend on besides the API itself.

  Two entries of the error table stand behind checks that the bindings make on their own.  A table
  without them cannot serve; nor can a header without lines or a size that is too long to be
  written.  Each target has an order of its own in which it meets these obstacles.
-/
import Bindery.ErrorTable
import Bindery.Model.Basic
import Bindery.Options
import Bindery.Source.Line

namespace Bindery

/-- An error table with the entries that the bindings rely on. -/
structure Codes where
  table : ErrorTable
  /-- The entry for arguments that are refused. -/
  invalidInput : ErrorCode
  /-- The entry for failures inside the library. -/
  internalError : ErrorCode

/-- Why the files of a target cannot be generated. -/
inductive Obstacle where
  /-- The table has no entry with the given name. -/
  | entry (name : String)
  /-- There is no library variant for refused arguments. -/
  | variant
  /-- The header is of a kind that has no lines. -/
  | header (kind : String)
  /-- A number is too long to be written. -/
  | number
  deriving DecidableEq, Repr

/-- The text for an obstacle: an entry is shown by its name as a literal. -/
def Obstacle.message : Obstacle → String
  | entry name => Text.quoted name
  | variant => "tuple index out of range"
  | header kind => "'" ++ kind ++ "' object is not iterable"
  | number =>
    "Exceeds the limit (" ++ Decimal.integer Decimal.maxDigits ++ " digits) for integer string " ++
      "conversion; use sys.set_int_max_str_digits() to increase the limit"

/-- An entry that has to be there. -/
def ErrorTable.need (t : ErrorTable) (name : String) : Except Obstacle ErrorCode :=
  match t.find? name with
  | some c => .ok c
  | none => .error (.entry name)

/-- The entries that the bindings rely on; the internal error is looked for first. -/
def Codes.internalFirst (t : ErrorTable) : Except Obstacle Codes := do
  let internalError ← t.need ErrorTable.internalErrorName
  let invalidInput ← t.need ErrorTable.invalidInputName
  return { table := t, invalidInput, internalError }

/-- The entries that the bindings rely on; the refused argument is looked for first. -/
def Codes.invalidFirst (t : ErrorTable) : Except Obstacle Codes := do
  let invalidInput ← t.need ErrorTable.invalidInputName
  let internalError ← t.need ErrorTable.internalErrorName
  return { table := t, invalidInput, internalError }

/-- A text for a file. -/
structure FileText where
  text : String
  /-- Whether it can be encoded. -/
  encodable : Bool
  deriving DecidableEq, Repr

/-- The text for a value, its plain text. -/
def FileText.ofValue (v : Value) : Except Obstacle FileText :=
  match v.plain with
  | some text => .ok ⟨text, !v.isBroken⟩
  | none => .error .number

/-- The lines of a header. -/
def Header.texts : Header → Except Obstacle (List FileText)
  | lines items => items.mapM FileText.ofValue
  | notLines kind => .error (.header kind)

/-- Refuses an API with a size that is too long to be written. -/
def Model.checkSizes (m : Model) : Except Obstacle Unit :=
  if m.bufferTypes.all fun t => Decimal.isShort t.byteSize then .ok () else .error .number

/-- What all files of a target depend on. -/
structure Setting where
  options : Options
  header : List FileText
  codes : Codes

namespace Setting

/-- The constant for success. -/
def ok (s : Setting) : String := s.codes.table.ok.constant

/-- The constant for arguments that are refused. -/
def refused (s : Setting) : String := s.codes.invalidInput.constant

/-- The constant for failures inside the library. -/
def broken (s : Setting) : String := s.codes.internalError.constant

/-- A file with the lines under the banner. -/
def file (s : Setting) (path : String) (body : List Source.Line) : Source.File where
  path
  text := Source.renderFile (s.header.map (·.text)) body
  encodable := s.header.all (·.encodable)

/-- A Java package below the base package. -/
def package (s : Setting) (module : String) : String := s.options.javaPackage ++ "." ++ module

end Setting

end Bindery
