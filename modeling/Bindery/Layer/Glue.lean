/-
  THE GLUE between the Java side and the exported layer.

  A glue function turns Java arrays into pointers and lengths, calls the exported function once,
  and writes the filled bytes back where the call succeeded.  A Java `int` that stands for a
  narrower number is checked and never cut off.
-/
import Bindery.Layer.Export

namespace Bindery

open Source

/-- Whether a width is narrower than the Java type that carries it. -/
def Width.isNarrow (w : Width) : Bool := w.bytes < 4

/-! ## The body of a glue function -/

/-- A statement in front of the call. -/
inductive GlueStep where
  /-- Copies an array that is read. -/
  | read (parameter : String)
  /-- Makes room for an array that is filled. -/
  | allocate (parameter : String)
  /-- Narrows a number, or refuses it. -/
  | narrow (parameter : String) (width : Width)
  deriving DecidableEq, Repr

/-- An argument of the exported function. -/
inductive GlueArg where
  | constPointer (parameter : String)
  | mutPointer (parameter : String)
  | length (parameter : String)
  /-- A number that has been narrowed. -/
  | narrowed (parameter : String) (width : Width)
  /-- A number as wide as the type that carries it. -/
  | cast (parameter : String) (width : Width)
  deriving DecidableEq, Repr

/-- A glue function. -/
structure Glue where
  symbol : String
  parameters : List (String × Passing)
  steps : List GlueStep
  /-- The exported function that is called. -/
  callee : String
  passed : List GlueArg
  /-- The parameters that are written back. -/
  written : List String
  deriving DecidableEq, Repr

/-- What an argument needs in front of the call. -/
def Argument.glueStep? (a : Argument) : Option GlueStep :=
  match a.passing with
  | .inBuffer => some (.read a.name)
  | .outBuffer => some (.allocate a.name)
  | .inValue w => if w.isNarrow then some (.narrow a.name w) else none

/-- What is passed for an argument. -/
def Argument.glueArgs (a : Argument) : List GlueArg :=
  match a.passing with
  | .inBuffer => [.constPointer a.name, .length a.name]
  | .outBuffer => [.mutPointer a.name, .length a.name]
  | .inValue w => if w.isNarrow then [.narrowed a.name w] else [.cast a.name w]

/-- The glue of a function, for a Java package. -/
def Function.glue (f : Function) (package : String) : Glue where
  symbol := f.nativeSymbol package
  parameters := f.arguments.map fun a => (a.name, a.passing)
  steps := f.arguments.filterMap (·.glueStep?)
  callee := f.coreSymbol
  passed := f.arguments.flatMap (·.glueArgs)
  written := (f.arguments.filter (·.isFilled)).map (·.name)

/-! ## Its text -/

/-- The local that holds the bytes of a parameter. -/
def bufferLocal (parameter : String) : String := parameter ++ "_buf"

/-- A statement in front of the call as text. -/
def GlueStep.statement (s : Setting) : GlueStep → String
  | read parameter =>
    "let " ++ bufferLocal parameter ++ " = jni_read(&env, " ++ parameter ++ ")?;"
  | allocate parameter =>
    "let mut " ++ bufferLocal parameter ++ " = jni_alloc(&env, " ++ parameter ++ ")?;"
  | narrow parameter w =>
    "let " ++ parameter ++ " = " ++ w.rust ++ "::try_from(" ++ parameter ++ ").map_err(|_| " ++
      s.refused ++ ")?;"

/-- An argument of the call as text. -/
def GlueArg.expression : GlueArg → String
  | constPointer parameter => bufferLocal parameter ++ ".as_ptr()"
  | mutPointer parameter => bufferLocal parameter ++ ".as_mut_ptr()"
  | length parameter => bufferLocal parameter ++ ".len() as u32"
  | narrowed parameter _ => parameter
  | cast parameter w => parameter ++ " as " ++ w.rust

/-- The statement that writes a parameter back. -/
def writeBack (parameter : String) : String :=
  "jni_write(&env, " ++ parameter ++ ", &" ++ bufferLocal parameter ++ ")?;"

/-- The statements of a glue function. -/
def Glue.body (s : Setting) (g : Glue) : List Line :=
  Source.lines (g.steps.map (GlueStep.statement s)) ++
    line ("let code = " ++ g.callee ++ "(") ::
    indent (g.passed.map fun a => line (a.expression ++ ",")) ++
    line ");" ::
    (if g.written.isEmpty then []
      else block ("if code == " ++ s.ok) (Source.lines (g.written.map writeBack))) ++
    [line "Ok(code)"]

/-- A glue function as text. -/
def Glue.lines (s : Setting) (g : Glue) : List Line :=
  line "#[no_mangle]" :: line ("pub extern \"system\" fn " ++ g.symbol ++ "(") ::
    indent (Source.lines ["env: JNIEnv,", "_class: JClass,"] ++
      g.parameters.map fun p => line (p.1 ++ ": " ++ p.2.jni ++ ",")) ++
    line (") -> jint " ++ opening) ::
    indent (line ("jni_call(|| " ++ opening) :: indent (g.body s) ++ [line (closing ++ ")")]) ++
    [line closing, gap]

/-! ## The file -/

/-- The widths of the numbers that cross by value. -/
def Model.valueWidths (m : Model) : List Width :=
  (m.functions.flatMap (·.arguments)).filterMap fun a =>
    match a.passing with
    | .inValue w => some w
    | _ => none

/-- The native types that the glue names; the long one only where something is so wide. -/
def glueTypes (m : Model) : List String :=
  ["jbyteArray", "jint"] ++ if m.valueWidths.contains .eight then [Width.eight.jni] else []

/-- The helpers that move bytes between both sides. -/
def glueHelpers (s : Setting) : List Line :=
  let nullCheck := block "if array.is_null()" (Source.lines ["return Err(" ++ s.refused ++ ");"])
  block "fn jni_read(env: &JNIEnv, array: jbyteArray) -> Result<Vec<u8>, jint>"
      (nullCheck ++
        Source.lines ["env.convert_byte_array(array).map_err(|_| " ++ s.refused ++ ")"]) ++
    gap ::
    block "fn jni_alloc(env: &JNIEnv, array: jbyteArray) -> Result<Vec<u8>, jint>"
      (nullCheck ++ line "let len = env" ::
        indent (Source.lines [".get_array_length(array)",
          ".map_err(|_| " ++ s.refused ++ ")?;"]) ++
        Source.lines ["Ok(vec![0u8; len as usize])"]) ++
    gap ::
    block "fn jni_write(env: &JNIEnv, array: jbyteArray, bytes: &[u8]) -> Result<(), jint>"
      (Source.lines ["let signed: Vec<i8> = bytes.iter().map(|b| *b as i8).collect();",
          "env.set_byte_array_region(array, 0, &signed)"] ++
        indent (Source.lines [".map_err(|_| " ++ s.broken ++ ")"])) ++
    gap ::
    block "fn jni_call<F: FnOnce() -> Result<jint, jint>>(f: F) -> jint"
      (block "match f()" (Source.lines ["Ok(code) | Err(code) => code,"])) ++
    [gap]

/-- The directory of the glue. -/
def glueDir : String := "ffiapijava"

/-- The glue of a whole API. -/
def glueLines (s : Setting) (m : Model) : List Line :=
  Source.lines ["#![allow(non_snake_case)]", ""] ++
    (if m.valueWidths.any (·.isNarrow) then Source.lines ["use std::convert::TryFrom;", ""]
      else []) ++
    Source.lines ["use jni::objects::JClass;",
      "use jni::sys::" ++ opening ++ commas (glueTypes m) ++ closing ++ ";",
      "use jni::JNIEnv;", "", "use " ++ s.options.ffiPath ++ "::ffiapi::*;", ""] ++
    glueHelpers s ++
    m.functions.flatMap fun f => (f.glue s.options.javaPackage).lines s

/-- The file of the glue. -/
def glueFile (s : Setting) (m : Model) : Source.File :=
  s.file (glueDir ++ "/ffiapijava.rs") (glueLines s m)

end Bindery
