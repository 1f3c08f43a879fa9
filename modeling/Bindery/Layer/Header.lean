/-
  THE C HEADER: constants and prototypes of the exported layer.
-/
import Bindery.Layer.Results
import Bindery.Layer.Setting

namespace Bindery

open Source

/-- The declaration of an exported function. -/
structure Prototype where
  symbol : String
  slots : List (String × SlotKind)
  deriving DecidableEq, Repr

/-- The prototype of a function. -/
def Function.prototype (f : Function) : Prototype where
  symbol := f.coreSymbol
  slots := f.slots.map fun s => (s.name, s.kind)

/-- A prototype as text; no parameters are written `void`. -/
def Prototype.text (p : Prototype) : String :=
  let parameters :=
    if p.slots.isEmpty then "void" else commas (p.slots.map fun s => s.2.declareC s.1)
  "int32_t " ++ p.symbol ++ inParens parameters ++ ";"

/-- The numbers that the header names: the error codes, then the lengths of buffers. -/
def headerCodes (s : Setting) : List (String × Int) :=
  s.codes.table.codes.map fun c => (c.constant, c.value)

/-- The lengths of the buffers. -/
def headerLengths (m : Model) : List (String × Int) :=
  m.bufferTypes.map fun t => (t.lengthConstant, (t.byteSize : Int))

/-- The definition of a number. -/
def define (d : String × Int) : Line := line ("#define " ++ d.1 ++ " " ++ Decimal.integer d.2)

/-- The lines of the header of an API. -/
def headerLines (s : Setting) (m : Model) : List Line :=
  let guard := Naming.upper s.options.libraryName ++ "_H"
  let lengths := (headerLengths m).map define
  Source.lines ["#ifndef " ++ guard, "#define " ++ guard, "", "#include <stdint.h>", "",
      "#ifdef __cplusplus", "extern \"C\" " ++ opening, "#endif", ""] ++
    (headerCodes s).map define ++ gap ::
    lengths ++ (if lengths.isEmpty then [] else [gap]) ++
    m.modules.flatMap (fun module =>
      line ("/* " ++ module.name ++ " */") ::
        module.functions.map (fun f => line f.prototype.text) ++ [gap]) ++
    Source.lines ["#ifdef __cplusplus", closing, "#endif", "", "#endif // " ++ guard]

/-- The header of an API, in the given directory. -/
def headerFile (s : Setting) (m : Model) (dir : String) : Source.File :=
  s.file (dir ++ "/" ++ s.options.libraryName ++ ".h") (headerLines s m)

end Bindery
