/-
  THE EXPORTED LAYER: the functions that other languages call.

  An exported function takes the native argument list, checks every slot that can be wrong, calls
  the safe layer once and stores the result.  Everything that is read is checked, and copied,
  before anything that is filled is touched, so buffers of a caller that overlap do no harm.
-/
import Bindery.Layer.Results
import Bindery.Layer.Setting

namespace Bindery

open Source

/-! ## The body of an export -/

/-- A check of one slot; it rebinds the slot to the checked value. -/
inductive SlotCheck where
  /-- Bytes that are read. -/
  | input (slot : String) (size : Size)
  /-- A number that has to be one of so many variants. -/
  | variant (slot type : String)
  /-- Bytes that are filled. -/
  | output (slot : String) (size : Size)
  deriving DecidableEq, Repr

/-- How a value is passed on to the safe layer. -/
inductive Pass where
  | borrowed (name : String)
  | plain (name : String)
  deriving DecidableEq, Repr

/-- How bytes are filled from a value. -/
inductive Store where
  /-- All bytes of a buffer. -/
  | bytes
  /-- The one byte of an enumeration. -/
  | byte
  /-- The bytes of a number, the least significant first. -/
  | littleEndian
  deriving DecidableEq, Repr

/-- How values of a type fill bytes. -/
def TypeDef.store (t : TypeDef) : Store :=
  match t.shape with
  | .buffer _ => .bytes
  | .enum _ => .byte
  | .scalar _ => .littleEndian

/-- The statement that fills `target` from `source`. -/
def Store.statement (target source : String) : Store → String
  | bytes => target ++ ".copy_from_slice(&" ++ source ++ ");"
  | byte => target ++ "[0] = " ++ source ++ ";"
  | littleEndian => target ++ ".copy_from_slice(&" ++ source ++ ".to_le_bytes());"

/-- An exported function. -/
structure Export where
  symbol : String
  slots : List (String × SlotKind)
  checks : List SlotCheck
  /-- The function of the safe layer that is called. -/
  callee : String
  passed : List Pass
  /-- How the result is stored, where there is one. -/
  stored : Option Store
  deriving DecidableEq, Repr

/-- The check that an argument needs; numbers that are read need none. -/
def Argument.check? (a : Argument) : Option SlotCheck :=
  match a.passing, a.type.shape with
  | .inBuffer, _ => some (.input a.name a.type.size)
  | .outBuffer, _ => some (.output a.name a.type.size)
  | .inValue _, .enum _ => some (.variant a.name a.type.name)
  | .inValue _, _ => none

/-- How an argument is passed on. -/
def Argument.pass (a : Argument) : Pass :=
  if a.passing == .inBuffer then .borrowed a.name else .plain a.name

/-- Arguments with the filled ones behind all others. -/
def readFirst (as : List Argument) : List Argument :=
  as.filter (!·.isFilled) ++ as.filter (·.isFilled)

/-- The export of a function. -/
def Function.exported (f : Function) : Export where
  symbol := f.coreSymbol
  slots := f.slots.map fun s => (s.name, s.kind)
  checks := (readFirst f.arguments).filterMap (·.check?)
  callee := f.safeSymbol
  passed := (f.arguments.filter (!·.isResult)).map (·.pass)
  stored := f.returns.map (·.store)

/-! ## Its text -/

/-- A name of the safe layer, as the exported layer writes it. -/
def fromSafeLayer (name : String) : String := "simpleapi::" ++ name

/-- The length of a type, as the exported layer writes it. -/
def exportedSize (size : Size) : String :=
  size.spell fun type => fromSafeLayer (Naming.lengthConstant type)

/-- A check as text. -/
def SlotCheck.statement : SlotCheck → String
  | input slot size =>
    "let " ++ slot ++ " = unsafe " ++ inBraces ("ffi_input" ++
      inParens (commas [slot, Naming.lengthSlot slot, exportedSize size]) ++ "?") ++ ";"
  | output slot size =>
    "let " ++ slot ++ " = unsafe " ++ inBraces ("ffi_output" ++
      inParens (commas [slot, Naming.lengthSlot slot, exportedSize size]) ++ "?") ++ ";"
  | variant slot type =>
    "let " ++ slot ++ " = ffi_enum" ++
      inParens (commas [slot, fromSafeLayer (Naming.countConstant type)]) ++ "?;"

/-- A passed value as text. -/
def Pass.expression : Pass → String
  | borrowed name => "&" ++ name
  | plain name => name

/-- The call of the safe layer. -/
def Export.call (e : Export) : String :=
  fromSafeLayer e.callee ++ inParens (commas (e.passed.map (·.expression))) ++
    ".map_err(ffi_return_code)?"

/-- The statements of an export. -/
def Export.statements (e : Export) : List String :=
  e.checks.map (·.statement) ++
    (match e.stored with
      | some store =>
        ["let " ++ resultLabel ++ " = " ++ e.call ++ ";",
          store.statement Naming.resultSlot resultLabel]
      | none => [e.call ++ ";"]) ++
    ["Ok(())"]

/-- An export as text. -/
def Export.lines (e : Export) : List Line :=
  line "#[no_mangle]" :: line ("pub extern \"C\" fn " ++ e.symbol ++ "(") ::
    indent (e.slots.map fun s => line (s.1 ++ ": " ++ s.2.rust ++ ",")) ++
    line (") -> i32 " ++ opening) ::
    indent (line ("ffi_guard(move || " ++ opening) :: indent (Source.lines e.statements) ++
      [line (closing ++ ")")]) ++
    [line closing, gap]

/-! ## Helpers of the layer -/

/-- The function that maps library errors to numbers. -/
def errorArms (s : Setting) : List (String × String) :=
  s.codes.table.failures.flatMap fun c =>
    c.libraryVariants.map fun v => (v, c.constant)

/-- Maps an error of the wrapped library to its number. -/
def returnCodeHelper (s : Setting) : List Line :=
  let type := s.options.errorTypeName
  block ("pub(crate) fn ffi_return_code(err: " ++ type ++ ") -> i32")
    (block "match err"
      ((errorArms s).map (fun arm => line (type ++ "::" ++ arm.1 ++ " => " ++ arm.2 ++ ",")) ++
        Source.lines ["#[allow(unreachable_patterns)]", "_ => " ++ s.broken ++ ","]))

/-- Turns the outcome of a body, even a crash, into a number. -/
def guardHelper (s : Setting) : List Line :=
  Source.lines ["pub(crate) fn ffi_guard<F>(f: F) -> i32", "where"] ++
    indent (Source.lines ["F: FnOnce() -> Result<(), i32> + std::panic::UnwindSafe,"]) ++
    line opening ::
    indent (block "match std::panic::catch_unwind(f)" (Source.lines
      ["Ok(Ok(())) => " ++ s.ok ++ ",", "Ok(Err(code)) => code,",
        "Err(_) => " ++ s.broken ++ ","])) ++
    [line closing]

/-- Refuses a null pointer and a wrong length. -/
def pointerCheck (s : Setting) : List Line :=
  block "if ptr.is_null() || len as usize != expected"
    (Source.lines ["return Err(" ++ s.refused ++ ");"])

/-- Copies bytes that are read. -/
def inputHelper (s : Setting) : List Line :=
  block ("pub(crate) unsafe fn ffi_input(ptr: *const u8, len: u32, expected: usize)" ++
      " -> Result<Vec<u8>, i32>")
    (pointerCheck s ++
      Source.lines ["Ok(std::slice::from_raw_parts(ptr, expected).to_vec())"])

/-- Borrows bytes that are filled. -/
def outputHelper (s : Setting) : List Line :=
  block ("pub(crate) unsafe fn ffi_output<'a>(ptr: *mut u8, len: u32, expected: usize)" ++
      " -> Result<&'a mut [u8], i32>")
    (pointerCheck s ++ Source.lines ["Ok(std::slice::from_raw_parts_mut(ptr, expected))"])

/-- Refuses a number that is no variant. -/
def enumHelper (s : Setting) : List Line :=
  block "pub(crate) fn ffi_enum(value: u8, variants: usize) -> Result<u8, i32>"
    (line ("if (value as usize) < variants " ++ opening) ::
      indent (Source.lines ["Ok(value)"]) ++
      line (closing ++ " else " ++ opening) ::
      indent (Source.lines ["Err(" ++ s.refused ++ ")"]) ++ [line closing])

/-- The constants of the layer. -/
def exportedCodes (s : Setting) : List Line :=
  s.codes.table.codes.map fun c =>
    line ("pub const " ++ c.constant ++ ": i32 = " ++ Decimal.integer c.value ++ "; // " ++
      c.description)

/-- The file of a module in the exported layer. -/
def exportFile (module : String) : String := "ffiapi_" ++ module ++ ".rs"

/-- The directory of the exported layer. -/
def exportDir : String := "ffiapi"

/-- The root of the exported layer. -/
def exportRoot (s : Setting) (m : Model) : Source.File :=
  s.file (exportDir ++ "/ffiapi.rs") <|
    Source.lines ["#![allow(non_snake_case)]", "#![allow(clippy::missing_safety_doc)]", "",
      "use " ++ s.options.errorType ++ ";", ""] ++
    exportedCodes s ++ gap ::
    m.modules.flatMap (fun module => Source.lines
      ["#[path = \"" ++ exportFile module.name ++ "\"]", "pub mod " ++ module.name ++ ";",
        "pub use self::" ++ module.name ++ "::*;"]) ++ gap ::
    returnCodeHelper s ++ gap :: guardHelper s ++ gap :: inputHelper s ++ gap ::
    outputHelper s ++ gap :: enumHelper s

/-- The exports of one module. -/
def exportLines (s : Setting) (module : Module) : List Line :=
  Source.lines ["use super::*;", "use " ++ s.options.ffiPath ++ "::simpleapi;", ""] ++
    module.functions.flatMap fun f => f.exported.lines

/-- The file of one module. -/
def exportModule (s : Setting) (module : Module) : Source.File :=
  s.file (exportDir ++ "/" ++ exportFile module.name) (exportLines s module)

end Bindery
