/-
  DESCRIPTIONS: from a file to an API with its options.

  The suffix of the file tells its format, whatever its case.  Both formats end in one shape, a
  map of raw values, and the same checks follow: first the API, then the options of the
  description, then the overrides.  The first fault ends the loading.

  The description language is the program's own.  The markup is not: whoever loads brings a reader for
  it (`MarkupReader`).
-/
import Bindery.Disk.Basic
import Bindery.Event
import Bindery.Idl.Reading
import Bindery.Markup.Cursor
import Bindery.Model.Check
import Bindery.Options
import Bindery.Text.LetterCase

namespace Bindery

/-- Why a description cannot be loaded. -/
inductive LoadFault where
  /-- No file stands at the path. -/
  | notFound (path : Path)
  /-- A file of a format that is not known. -/
  | unsupported (path : Path)
  /-- A text that is not in the format of the file. -/
  | malformed (path : Path)
  /-- A text that says something else than a map. -/
  | notMapping (path : Path)
  /-- A text of the markup with a piece that cannot be given a value. -/
  | unread (cause : Markup.Fault)
  /-- A size with more digits than are read. -/
  | numeralTooLong
  /-- A text with a construct that the description language does not have. -/
  | rejected (line : Nat) (cause : Idl.Fault)
  /-- A description that is not an API. -/
  | model (cause : ModelFault)
  /-- Options that cannot be had. -/
  | options (cause : OptionFault)
  /-- A disk that refuses. -/
  | disk (cause : DiskFault)

/-- The message for a fault. -/
def LoadFault.message : LoadFault → String
  | notFound path => "description not found: " ++ path.toString
  | unsupported path =>
    "unsupported description format: " ++ (if path.suffix.isEmpty then path.name else path.suffix)
  | malformed path => path.toString ++ ": " ++ Markup.Fault.malformed.message
  | notMapping path => path.toString ++ ": top level must be a mapping"
  | unread cause => cause.message
  | numeralTooLong => "a number is too long to be read"
  | rejected line cause => cause.messageAt line
  | model cause => cause.message
  | options (.config cause) => cause.message
  | options .unreadable => "options of a kind that cannot hold settings"
  | options .unpaired => "options with something that is not a pair"
  | options .unwritable => "a number is too long to be written"
  | disk cause => cause.message

/-- Whether a fault is one of the description.  The others are not foreseen: they end a run
where it stands. -/
def LoadFault.isForeseen : LoadFault → Bool
  | unread _ | numeralTooLong | model .unwritable | disk _ => false
  | options (.config _) => true
  | options _ => false
  | _ => true

/-- A reader for the markup: it gives texts a value. -/
class MarkupReader where
  read : List Char → Except Markup.Fault Value

namespace Description

/-! ## Formats -/

/-- The formats of descriptions. -/
inductive Format where
  | language
  | markup
  deriving DecidableEq, Repr

/-- The format that a suffix stands for. -/
def Format.ofSuffix? (suffix : String) : Option Format :=
  let lower := Text.lower suffix.toList
  if lower = ".idl".toList then some .language
  else if lower ∈ [".yaml", ".yml", ".json"].map String.toList then some .markup
  else none

/-- The entries that a text says in the description language. -/
def ofLanguage (text : List Char) : Except LoadFault (List (Value × Value)) :=
  match Idl.Document.read text with
  | .ok d => .ok (d.toValue.entries?.getD [])
  | .error (.rejected line cause) => .error (.rejected line cause)
  | .error .numeralTooLong => .error .numeralTooLong

/-- The entries that a text says in the markup.  Nothing at all stands for no entries. -/
def ofMarkup [MarkupReader] (path : Path) (text : List Char) :
    Except LoadFault (List (Value × Value)) :=
  match MarkupReader.read text with
  | .ok v =>
    if v.isAbsent then .ok []
    else
      match v.entries? with
      | some es => .ok es
      | none => .error (.notMapping path)
  | .error .malformed => .error (.malformed path)
  | .error cause => .error (.unread cause)

/-- The entries of the description with a text.  Line ends are made one first. -/
def ofText [MarkupReader] (path : Path) (text : String) : Except LoadFault (List (Value × Value)) :=
  let s := Text.unifyNewlines text.toList
  match Format.ofSuffix? path.suffix with
  | some .language => ofLanguage s
  | some .markup => ofMarkup path s
  | none => .error (.unsupported path)

/-! ## Loading -/

variable [MarkupReader] {m : Type → Type} [Monad m] [Disk m] [Console m]

/-- Says that something happened. -/
def note (e : Event) : ExceptT LoadFault m Unit := ExceptT.lift (Console.note e)

/-- Takes a result, with its fault as one of loading. -/
def settle {ε α : Type} (fault : ε → LoadFault) (r : Except ε α) : ExceptT LoadFault m α :=
  ExceptT.mk (pure (r.mapError fault))

/-- Reads the entries of a description. -/
def read (path : Path) : ExceptT LoadFault m (List (Value × Value)) := do
  if !(← ExceptT.adapt .disk (Disk.isFile path)) then throw (.notFound path)
  let text ← ExceptT.adapt .disk (Disk.read path)
  let es ← settle id (ofText path text)
  note (.described path)
  return es

/-- The entry for options; one that is not there says nothing. -/
def optionSection (es : List (Value × Value)) : Value := Value.fieldOf "options" es

/-- The name that stands for the path of a description.  No override can have it. -/
def pathName : String := "path"

/-- Loads an API with its options. -/
def load (path : Path) (overrides : List (String × Value)) :
    ExceptT LoadFault m (Model × Options) := do
  if overrides.any (·.1 == pathName) then throw (.options .unreadable)
  let es ← read path
  let model ← settle .model (Model.ofDescription es)
  note (.checked model.types.length model.modules.length model.functions.length)
  let options ← settle .options (Options.ofValue (optionSection es))
  let present := Options.present overrides
  if !present.isEmpty then note (.overridden present)
  let options ← settle .options (options.merged overrides)
  return (model, options)

end Description

end Bindery
