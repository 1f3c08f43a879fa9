/-
  OPTIONS: settings of the bindings that are not part of the API.

  Options come from a description and may be overridden one by one.  Both ways end in the same
  checks, in the order of the fields; an override that is absent (empty, zero, false) is none.

  Most options are texts of a known form.  Two may be overridden by values of any kind: the
  library that the Java side loads, which is then shown by its plain text, and the header.
-/
import Bindery.Naming.Spelling
import Bindery.Text.Lines
import Bindery.Text.Order
import Bindery.Value.Display

namespace Bindery

/-- What every file says first. -/
inductive Header where
  /-- One line an item, shown by its plain text. -/
  | lines (items : List Value)
  /-- A value of a kind that has no lines. -/
  | notLines (kind : String)

/-- The settings. -/
structure Options where
  /-- The native library, and the name of its C header. -/
  libraryName : String
  /-- The base package of the Java side. -/
  javaPackage : String
  /-- The library that the Java side loads; the native library where this is absent. -/
  jniLibrary : Value
  /-- The path of the exported layer. -/
  ffiPath : String
  /-- The path of the wrapped library. -/
  apiPath : String
  /-- The path of the error type of the wrapped library. -/
  errorType : String
  header : Header

/-- Why settings cannot be used.  Texts of a wrong form are shown by their literals. -/
inductive ConfigFault where
  | unknown (names : List String)
  | badHeader
  | notText (option : String)
  | badLibrary (literal : String)
  | badPackage (literal : String)
  | badPath (option literal : String)
  deriving DecidableEq, Repr

/-- The message for a fault. -/
def ConfigFault.message : ConfigFault → String
  | unknown names => "unknown option(s): " ++ ", ".intercalate names
  | badHeader => "header_lines must be a string or a list of strings"
  | notText option => "option " ++ option ++ " must be a string"
  | badLibrary literal => "library_name is not an identifier: " ++ literal
  | badPackage literal => "java_package is not a package name: " ++ literal
  | badPath option literal => option ++ " is not a Rust path: " ++ literal

/-- Why options cannot be had. -/
inductive OptionFault where
  /-- Settings that cannot be used. -/
  | config (cause : ConfigFault)
  /-- A value of a kind that cannot hold settings. -/
  | unreadable
  /-- A list of settings with something that is not a pair in it. -/
  | unpaired
  /-- A line with a number that is too long to be written. -/
  | unwritable
  deriving DecidableEq, Repr

namespace Options

/-- The settings where nothing is said. -/
def standard : Options where
  libraryName := "zkgroup"
  javaPackage := "org.signal.zkgroup"
  jniLibrary := .str ""
  ffiPath := "crate::ffi"
  apiPath := "crate::api"
  errorType := "crate::common::errors::ZkGroupError"
  header := .lines []

/-- The library that the Java side loads. -/
def jniLibraryName (o : Options) : Value :=
  if o.jniLibrary.isAbsent then .str o.libraryName else o.jniLibrary

/-- The error type of the wrapped library, without its path. -/
def errorTypeName (o : Options) : String := Naming.lastSegment o.errorType

end Options

/-! ## Drafts -/

/-- Options before they are checked. -/
structure OptionDraft where
  libraryName : Value
  javaPackage : Value
  jniLibrary : Value
  ffiPath : Value
  apiPath : Value
  errorType : Value
  header : Header

/-- Options as they were before they were checked. -/
def Options.draft (o : Options) : OptionDraft where
  libraryName := .str o.libraryName
  javaPackage := .str o.javaPackage
  jniLibrary := o.jniLibrary
  ffiPath := .str o.ffiPath
  apiPath := .str o.apiPath
  errorType := .str o.errorType
  header := o.header

namespace OptionDraft

/-- A text of a given form. -/
def formed (form : String → Bool) (fault : String → ConfigFault) (v : Value) :
    Except OptionFault String :=
  match v with
  | .str s => if form s then .ok s else .error (.config (fault (Text.quoted s)))
  | .codes ps => .error (.config (fault (Text.quotedPoints ps)))
  | _ => .error .unreadable

/-- The key of the native library. -/
def libraryKey : String := "library_name"

/-- The key of the base package. -/
def packageKey : String := "java_package"

/-- The key of the library that the Java side loads. -/
def jniKey : String := "jni_library"

/-- The key of the exported layer. -/
def ffiKey : String := "rust_ffi_path"

/-- The key of the wrapped library. -/
def apiKey : String := "rust_api_path"

/-- The key of the error type. -/
def errorKey : String := "rust_error_type"

/-- The key of the one option that holds several lines. -/
def headerKey : String := "header_lines"

/-- The names of the options, in the order of the fields. -/
def keys : List String :=
  [libraryKey, packageKey, jniKey, ffiKey, apiKey, errorKey, headerKey]

/-- The options that a draft stands for; the first field that cannot be used is the answer. -/
def check (d : OptionDraft) : Except OptionFault Options := do
  let libraryName ← formed Naming.isIdentifier .badLibrary d.libraryName
  let javaPackage ← formed Naming.isPackageName .badPackage d.javaPackage
  let ffiPath ← formed Naming.isPath (.badPath ffiKey) d.ffiPath
  let apiPath ← formed Naming.isPath (.badPath apiKey) d.apiPath
  let errorType ← formed Naming.isPath (.badPath errorKey) d.errorType
  return {
    libraryName, javaPackage, jniLibrary := d.jniLibrary, ffiPath, apiPath, errorType,
    header := d.header }

/-- Sets an option other than the header. -/
def set (d : OptionDraft) (key : String) (v : Value) : OptionDraft :=
  if key = libraryKey then { d with libraryName := v }
  else if key = packageKey then { d with javaPackage := v }
  else if key = jniKey then { d with jniLibrary := v }
  else if key = ffiKey then { d with ffiPath := v }
  else if key = apiKey then { d with apiPath := v }
  else if key = errorKey then { d with errorType := v }
  else d

end OptionDraft

namespace Options

open OptionDraft

/-! ## Settings as pairs -/

/-- What a value holds, one after the other: the characters of a text, the items of a list, the
keys of a map. -/
def parts? (v : Value) : Option (List Value) :=
  match v.bare with
  | .list items | .set items => some items
  | .pair a b => some [a, b]
  | .map es => some (es.map (·.1))
  | .bytes octets => some (octets.map fun b => .int b.toNat)
  | v => v.points?.map fun ps => ps.map fun p => .ofPoints [p]

/-- The two parts of a pair. -/
def pairOf (v : Value) : Except OptionFault (Value × Value) :=
  match parts? v with
  | some [k, x] => if k.isKey then .ok (k, x) else .error .unreadable
  | some _ => .error .unpaired
  | none => .error .unreadable

/-- The settings that a value holds: those of a map, or pairs. -/
def entriesOf (v : Value) : Except OptionFault (List (Value × Value)) :=
  if v.isAbsent then .ok []
  else
    match v.entries?, parts? v with
    | some es, _ => .ok es
    | none, some items => do
      let pairs ← items.mapM pairOf
      .ok (pairs.foldl (fun es e => Value.setEntry e.1 e.2 es) [])
    | none, none => .error .unreadable

/-! ## From a description -/

/-- The text of a key. -/
def keyText? : Value → Option String
  | .str s => some s
  | .codes ps => some (String.ofList (Text.joined ps))
  | _ => none

/-- Refuses names of options that there are not. -/
def checkKeys (es : List (Value × Value)) : Except OptionFault Unit :=
  let unknown := (es.map (·.1)).filter fun k => !(keyText? k).any keys.contains
  if unknown.isEmpty then .ok ()
  else
    match unknown.mapM keyText? with
    | some names => .error (.config (.unknown (Text.sortNames names)))
    | none => .error .unreadable

/-- The lines that a value stands for: those of a text, or the items of a list or a pair. -/
def linesOf (v : Value) : Except OptionFault (List Value) :=
  match v.points?, v.bare with
  | some ps, _ => .ok ((Text.splitLines ps).map Value.ofPoints)
  | none, .list items => .ok items
  | none, .pair a b => .ok [a, b]
  | none, _ => .error (.config .badHeader)

/-- The header that a value stands for; each line is made a text. -/
def headerOf (v : Value) : Except OptionFault Header := do
  match (← linesOf v).mapM Value.asText with
  | some items => return .lines items
  | none => .error .unwritable

/-- Sets the options other than the header, in the order of the entries; each has to be a text. -/
def setTexts (d : OptionDraft) : List (Value × Value) → Except OptionFault OptionDraft
  | [] => .ok d
  | (k, v) :: es =>
    let key := (keyText? k).getD ""
    if key == headerKey then setTexts d es
    else if v.points?.isSome then setTexts (d.set key v) es
    else .error (.config (.notText key))

/-- The options of a description. -/
def ofValue (v : Value) : Except OptionFault Options := do
  let es ← entriesOf v
  checkKeys es
  let header ← match Value.lookup? headerKey es with
    | some lines => headerOf lines
    | none => .ok (.lines [])
  let d ← setTexts { standard.draft with header } es
  d.check

/-! ## Overrides -/

/-- The overrides that say something. -/
def present (overrides : List (String × Value)) : List (String × Value) :=
  overrides.filter (!·.2.isAbsent)

/-- The header that an override stands for. -/
def overridingHeader (v : Value) : Header :=
  match parts? v with
  | some items => .lines items
  | none => .notLines v.kindName

/-- Sets one option to a value of any kind. -/
def override (d : OptionDraft) (key : String) (v : Value) : OptionDraft :=
  if key == headerKey then { d with header := overridingHeader v } else d.set key v

/-- The name that stands for the options themselves.  It cannot be overridden, not even by an
absent value. -/
def ownName : String := "self"

/-- Options with overrides. -/
def merged (o : Options) (overrides : List (String × Value)) : Except OptionFault Options := do
  if overrides.any (·.1 == ownName) then .error .unreadable
  let said := present overrides
  if said.any fun e => !keys.contains e.1 then .error .unreadable
  (said.foldl (fun d e => override d e.1 e.2) o.draft).check

end Options

end Bindery
