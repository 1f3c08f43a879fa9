/-
  THE PROGRAM: running a command.

  A command makes one job.  It either looks at the description only or does the whole run, and
  ends well or with a fault that it reports.  A fault that nothing foresees ends it, too; no
  event speaks of that one.
-/
import Bindery.CommandLine
import Bindery.Job.Run
import Bindery.Markup.Reading

namespace Bindery

/-- The program reads the markup itself. -/
instance : MarkupReader := ⟨Markup.read⟩

/-- How a command ends. -/
inductive Ending where
  | finished
  /-- With a fault that was reported. -/
  | refused
  /-- With a fault that was not foreseen. -/
  | broken (cause : JobFault)

/-- The status that a command leaves. -/
def Ending.status : Ending → Nat
  | finished => 0
  | refused | broken _ => 1

/-- The status that words leave that are no command. -/
def CommandFault.status : CommandFault → Nat
  | help => 0
  | usage => 2
  | lostValue => 1

namespace Command

/-- The options that a command overrides. -/
def overrides (c : Command) : List (String × Value) :=
  [("library_name", .str c.libraryName), ("java_package", .str c.javaPackage),
   ("jni_library", .str c.jniLibrary)]

/-- The job that a command makes. -/
def job (c : Command) : Except GenerationFault Job :=
  Job.ofTargets (.ofString c.description) (.ofString c.output) (c.targets.map Target.name)
    c.overrides Emitter.standard .standard

variable [MarkupReader] {m : Type → Type} [Monad m] [Disk m] [Console m]

/-- What a command does with its job. -/
def work (c : Command) (job : Job) : JobM m Unit := do
  if c.checkOnly then
    let (model, _) ← job.load
    Job.note (.valid c.description model.types.length model.modules.length)
  else
    let _ ← job.run

/-- Ends with a fault: one that is foreseen is said. -/
def endWith (e : JobFault) : m Ending := do
  if e.isForeseen then
    Console.note (.refused e.message e.cause?)
    return .refused
  else return .broken e

/-- Runs a command. -/
def run (c : Command) : m Ending := do
  match c.job with
  | .error e => endWith (.generation e)
  | .ok job =>
    match (← ((c.work job).run.run .start)).1 with
    | .ok () => return .finished
    | .error e => endWith e

end Command

end Bindery
