/-
  JOBS: one description, one output directory, and who is to write files for it.

  An emitter turns an API into files below directories of its own.  The three targets are
  emitters, and a job may be given others.  A job itself never changes; how far it has come is
  its progress.
-/
import Bindery.Description
import Bindery.Target

namespace Bindery

/-! ## Emitters -/

/-- Why an emitter gives no files. -/
inductive EmitFault where
  /-- A fault that the emitter reports itself, for a target that it names. -/
  | reported (target message : String)
  /-- Anything else that stops it. -/
  | broken (text : String)
  deriving DecidableEq, Repr

/-- Something that turns an API into files. -/
structure Emitter where
  /-- The name that it is asked for by. -/
  target : String
  /-- The directories that its files are in. -/
  dirs : List String
  emit : Model → Options → ErrorTable → Except EmitFault (List Source.File)

/-- The emitter of a target. -/
def Target.emitter (t : Target) : Emitter where
  target := t.name
  dirs := t.dirs
  emit model options table := (t.emit model options table).mapError fun l => .broken l.message

/-- The emitters of all targets. -/
def Emitter.standard : List Emitter := Target.all.map Target.emitter

/-! ## Faults -/

/-- Why a job gives no files. -/
inductive GenerationFault where
  /-- Targets that no emitter has. -/
  | unknown (names : List String)
  /-- A fault that an emitter reports itself. -/
  | reported (target message : String)
  /-- An emitter that stopped. -/
  | broken (target text : String)
  /-- A path that cannot be one of an output file. -/
  | badPath (target path : String)
  /-- A path outside the directories of its emitter. -/
  | outside (target path : String) (dirs : List String)
  /-- A disk that refuses the files; no target is named while they are put in place. -/
  | unwritable (target : Option String) (cause : DiskFault)
  deriving DecidableEq, Repr

namespace GenerationFault

/-- The target that a fault is reported for. -/
def target : GenerationFault → String
  | unknown names => ",".intercalate names
  | reported target _ | broken target _ | badPath target _ | outside target _ _ => target
  | unwritable target _ =>
    let name := target.getD ""
    if name.isEmpty then "output" else name

/-- What is wrong. -/
def detail : GenerationFault → String
  | unknown _ => "unknown target"
  | reported _ message => message
  | broken _ text => "emitter failed: " ++ text
  | badPath _ path => "bad output path " ++ Text.quoted path
  | outside _ path dirs => Text.quoted path ++ " is outside " ++ ", ".intercalate dirs
  | unwritable _ _ => "could not write outputs"

/-- The message for a fault, without what the disk says. -/
def message (f : GenerationFault) : String := f.target ++ ": " ++ f.detail

/-- What the disk says. -/
def cause? : GenerationFault → Option DiskFault
  | unwritable _ cause => some cause
  | _ => none

end GenerationFault

/-- Why an operation on a job fails. -/
inductive JobFault where
  | load (cause : LoadFault)
  | generation (cause : GenerationFault)
  /-- An output directory that cannot be had. -/
  | disk (cause : DiskFault)

namespace JobFault

/-- The message for a fault. -/
def message : JobFault → String
  | load cause => cause.message
  | generation cause => cause.message
  | disk cause => cause.message

/-- What the disk says, behind the message. -/
def cause? : JobFault → Option DiskFault
  | generation cause => cause.cause?
  | _ => none

/-- Whether a fault is one that a job reports.  The others are not foreseen. -/
def isForeseen : JobFault → Bool
  | load cause => cause.isForeseen
  | generation _ => true
  | disk _ => false

end JobFault

/-! ## Jobs -/

/-- What is to be done. -/
structure Job where
  description : Path
  output : Path
  overrides : List (String × Value)
  /-- Those that write files, in their order. -/
  emitters : List Emitter
  table : ErrorTable

/-- A job for the targets that are asked for, or for all if none is.  The emitters keep their
order, however the targets are ordered or repeated. -/
def Job.ofTargets (description output : Path) (targets : List String)
    (overrides : List (String × Value)) (emitters : List Emitter) (table : ErrorTable) :
    Except GenerationFault Job :=
  let known := emitters.map (·.target)
  let wanted := if targets.isEmpty then known else targets
  let unknown := Text.sortDistinct (wanted.filter fun t => !known.contains t)
  if !unknown.isEmpty then .error (.unknown unknown)
  else
    .ok { description, output, overrides, table,
          emitters := emitters.filter fun e => wanted.contains e.target }

/-- How far a job has come. -/
inductive Phase where
  | idle
  /-- The description is loaded: this is what it says. -/
  | loaded (model : Model) (options : Options)
  | emitting
  | done
  | failed

/-- The name of a phase. -/
def Phase.name : Phase → String
  | idle => "idle"
  | loaded _ _ => "model_loaded"
  | emitting => "emitting"
  | done => "done"
  | failed => "failed"

/-- How far a job has come, and for whom it works. -/
structure Progress where
  phase : Phase
  /-- The target that files are generated or written for. -/
  current : Option String

/-- Nothing is done yet. -/
def Progress.start : Progress := ⟨.idle, none⟩

/-- An operation on a job: what it has come to is kept when it fails, too. -/
abbrev JobM (m : Type → Type) (α : Type) := ExceptT JobFault (StateT Progress m) α

end Bindery
