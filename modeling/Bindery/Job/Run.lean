/-
  RUNS: loading, generating and writing, and what a job has come to after each.

  Files are generated from what was loaded last and only once: whoever generates again loads
  again first.  A fault that a job reports leaves it failed; any other leaves it where it was.
-/
import Bindery.Job.Delivery

namespace Bindery

namespace Job

variable [MarkupReader] {m : Type → Type} [Monad m] [Disk m] [Console m]

/-- Says that something happened. -/
def note (e : Event) : JobM m Unit := ExceptT.lift (StateT.lift (Console.note e))

/-- Notes how far the job has come. -/
def become (phase : Phase) : JobM m Unit := modify fun p => { p with phase }

/-- Notes for whom the job works. -/
def workFor (target : Option String) : JobM m Unit := modify fun p => { p with current := target }

/-- An operation outside the job, with its outcome as an answer. -/
def outcome {ε α : Type} (x : ExceptT ε m α) : JobM m (Except ε α) :=
  ExceptT.lift (StateT.lift x.run)

/-! ## Loading -/

/-- Loads the description. -/
def load (job : Job) : JobM m (Model × Options) := do
  match ← outcome (Description.load job.description job.overrides) with
  | .ok (model, options) =>
    become (.loaded model options)
    note (.loaded job.description)
    return (model, options)
  | .error e =>
    if e.isForeseen then become .failed
    throw (.load e)

/-- What the description says: it is loaded unless that was the last thing done. -/
def source (job : Job) : JobM m (Model × Options) := do
  match (← get).phase with
  | .loaded model options => return (model, options)
  | _ => job.load

/-! ## Generating -/

/-- Generates files emitter by emitter; a fault comes with the target of its emitter. -/
def renderEach (model : Model) (options : Options) (table : ErrorTable) :
    List Emitter → List Rendered → ExceptT (String × GenerationFault) m (List Rendered)
  | [], done => return done
  | e :: es, done => do
    ExceptT.lift (Console.note (.emitting e.target))
    match e.render model options table with
    | .error fault => throw (e.target, fault)
    | .ok files =>
      ExceptT.lift (Console.note (.emitted e.target files.length))
      renderEach model options table es (Rendered.put ⟨e.target, files⟩ done)

/-- Generates the files of all emitters. -/
def emit (job : Job) : JobM m (List Rendered) := do
  let (model, options) ← job.source
  match ← outcome (renderEach model options job.table job.emitters []) with
  | .ok rendered =>
    if !job.emitters.isEmpty then become .emitting
    workFor none
    return rendered
  | .error (target, fault) =>
    become .failed
    workFor (some target)
    throw (.generation fault)

/-! ## Writing -/

/-- The directories of all emitters. -/
def dirs (job : Job) : List String := job.emitters.flatMap (·.dirs)

/-- Says of each file that it is in its place. -/
def noteEach : List Path → JobM m Unit
  | [] => return
  | p :: ps => do
    note (.generated p)
    noteEach ps

/-- Generates the files of all emitters and writes them; the answer is where they are. -/
def run (job : Job) : JobM m (List Path) := do
  let start ← ExceptT.lift (StateT.lift (Console.now (m := m)))
  let rendered ← job.emit
  match ← outcome (Delivery.deliver job.output job.dirs rendered) with
  | .ok written =>
    noteEach written
    become .done
    let stop ← ExceptT.lift (StateT.lift (Console.now (m := m)))
    note (.completed (stop - start))
    return written
  | .error (.unprepared cause) => throw (.disk cause)
  | .error (.unwritten target cause) =>
    workFor target
    if cause.isOfDisk then
      become .failed
      throw (.generation (.unwritable target cause))
    throw (.disk cause)

end Job

end Bindery
