/-
  TARGETS: which files are generated for whom.

  A target is a set of files below directories of its own.  There are three: the native layers,
  the Java side and the Swift side.  A file list is in the order of generation; should two files
  have one path, the later text stands at the place of the earlier one.
-/
import Bindery.Layer.JavaWrapper
import Bindery.Layer.Safe
import Bindery.Layer.SwiftWrapper

namespace Bindery

/-- A target of generation. -/
inductive Target where
  | core
  | jvm
  | swift
  deriving DecidableEq, Repr

namespace Target

/-- The name of a target. -/
def name : Target → String
  | core => "core"
  | jvm => "jvm"
  | swift => "swift"

/-- All targets, in the order of generation. -/
def all : List Target := [core, jvm, swift]

/-- The target with a name. -/
def ofName? (s : String) : Option Target := all.find? (·.name == s)

/-- The directories of a target. -/
def dirs : Target → List String
  | core => [exportDir, safeDir]
  | jvm => [glueDir, javaDir]
  | swift => [swiftDir]

/-! ## The files of each target -/

/-- The value files of an API, home by home. -/
def valueFiles (m : Model) (file : String → TypeDef → Option Source.File) : List Source.File :=
  m.valueModules.flatMap fun home => (m.typesOf home).filterMap (file home)

/-- The native layers: exports and safe functions. -/
def coreFiles (s : Setting) (m : Model) (refused : String) : List Source.File :=
  exportRoot s m :: m.modules.map (exportModule s) ++ [safeLayer s m refused]

/-- The Java side: glue, exceptions, support, values and wrappers. -/
def jvmFiles (s : Setting) (m : Model) (library : FileText) : List Source.File :=
  glueFile s m :: baseExceptionFile s ::
    s.codes.table.derivedExceptions.map (exceptionFile s) ++
    [nativeFile s m library, byteArrayFile s] ++
    valueFiles m (javaValueFile? s) ++
    m.modules.map (javaModuleFile s m)

/-- The Swift side: header, error type, support, values and wrappers. -/
def swiftFiles (s : Setting) (m : Model) : List Source.File :=
  [headerFile s m swiftDir, swiftErrorFile s, swiftByteArrayFile s] ++
    valueFiles m (fun _ => swiftValueFile? s) ++
    m.modules.map (swiftModuleFile s)

/-- Generates a target in memory. -/
def emit (t : Target) (m : Model) (options : Options) (table : ErrorTable) :
    Except Obstacle (List Source.File) := do
  let header ← options.header.texts
  match t with
  | core =>
    let codes ← Codes.internalFirst table
    match codes.invalidInput.libraryVariants with
    | refused :: _ =>
      m.checkSizes
      return Source.collect (coreFiles ⟨options, header, codes⟩ m refused)
    | [] => .error .variant
  | jvm =>
    let codes ← Codes.invalidFirst table
    let library ← FileText.ofValue options.jniLibraryName
    m.checkSizes
    return Source.collect (jvmFiles ⟨options, header, codes⟩ m library)
  | swift =>
    m.checkSizes
    let codes ← Codes.internalFirst table
    return Source.collect (swiftFiles ⟨options, header, codes⟩ m)

end Target

end Bindery
