/-
  DELIVERY: all files of a job come into place, or none.

  The files are first staged in a scratch directory beside the outputs.  Then directory after
  directory is swapped: what is there moves into the scratch directory, and what was staged moves
  to its place.  When the disk refuses a step of the swap, what was placed is removed and what
  was taken away is put back.  The scratch directory is removed in the end in any case.
-/
import Bindery.Job.Layout

namespace Bindery

/-- Why files are not delivered. -/
inductive DeliveryFault where
  /-- There is no place to put them. -/
  | unprepared (cause : DiskFault)
  /-- They could not be staged for a target, or, without one, not be put in place. -/
  | unwritten (target : Option String) (cause : DiskFault)
  deriving DecidableEq, Repr

namespace Delivery

variable {m : Type → Type} [Monad m] [Disk m]

/-! ## Staging -/

/-- Writes a file with the directories above it; of a text that cannot be encoded nothing is
written. -/
def stageFile (root : Path) (f : Source.File) : ExceptT DiskFault m Unit := do
  let path := root.child f.path
  Disk.ensureDirs path.parent
  if f.encodable then Disk.write path f.text
  else
    Disk.write path ""
    throw .unencodable

/-- Writes files one after the other. -/
def stageFiles (root : Path) : List Source.File → ExceptT DiskFault m Unit
  | [] => return
  | f :: fs => do
    stageFile root f
    stageFiles root fs

/-- Writes the files of all targets; a fault names the target. -/
def stage (root : Path) : List Rendered → ExceptT DeliveryFault m Unit
  | [] => return
  | r :: rs => do
    ExceptT.adapt (.unwritten (some r.target)) (stageFiles root r.files)
    stage root rs

/-! ## Swapping -/

/-- Where a swap takes from and puts to. -/
structure Places where
  /-- Where the outputs are. -/
  output : Path
  /-- Where what is replaced goes. -/
  old : Path
  /-- Where the staged files are. -/
  new : Path

/-- What a swap has done. -/
structure Swapped where
  /-- The directories that were taken away. -/
  taken : List String
  /-- The directories that were put in place. -/
  placed : List String

/-- A step of a swap: its fault comes with what was done before. -/
abbrev SwapM (m : Type → Type) (α : Type) := ExceptT (DiskFault × Swapped) m α

/-- Takes a directory away, if it is there. -/
def takeAway (places : Places) (name : String) (s : Swapped) : SwapM m Swapped :=
  ExceptT.adapt (·, s) do
    let output := places.output.child name
    if ← Disk.isThere output then
      Disk.move output (places.old.child name)
      return { s with taken := s.taken ++ [name] }
    else return s

/-- Puts a staged directory in place; one that was not staged is empty. -/
def putInPlace (places : Places) (name : String) (s : Swapped) : SwapM m Swapped :=
  ExceptT.adapt (·, s) do
    let staged := places.new.child name
    if !(← Disk.isThere staged) then Disk.makeDirs staged
    Disk.move staged (places.output.child name)
    return { s with placed := s.placed ++ [name] }

/-- Swaps directories one after the other. -/
def swapEach (places : Places) : List String → Swapped → SwapM m Swapped
  | [], s => return s
  | name :: names, s => do
    let s ← takeAway places name s
    let s ← putInPlace places name s
    swapEach places names s

/-- Removes what was put in place. -/
def discardEach (places : Places) : List String → m Unit
  | [] => return
  | name :: names => do
    Disk.discard (places.output.child name)
    discardEach places names

/-- Puts back what was taken away. -/
def restoreEach (places : Places) : List String → ExceptT DiskFault m Unit
  | [] => return
  | name :: names => do
    Disk.restore (places.old.child name) (places.output.child name)
    restoreEach places names

/-- Undoes a swap. -/
def undo (places : Places) (s : Swapped) : ExceptT DiskFault m Unit := do
  ExceptT.lift (discardEach places s.placed)
  restoreEach places s.taken

/-- Swaps directories, all or none: where the disk refuses, what was done is undone. -/
def swap (places : Places) (dirs : List String) : ExceptT DiskFault m Unit := do
  Disk.makeDir places.old
  match ← ExceptT.lift (swapEach (m := m) places dirs ⟨[], []⟩).run with
  | .ok _ => return
  | .error (e, s) => do
    if e.isOfDisk then undo places s
    throw e

/-! ## Both -/

/-- Stages files in a scratch directory and swaps them in. -/
def write (output scratch : Path) (dirs : List String) (rendered : List Rendered) :
    ExceptT DeliveryFault m Unit := do
  let new := scratch.child "new"
  stage new rendered
  ExceptT.adapt (.unwritten none) (swap ⟨output, scratch.child "old", new⟩ dirs)

/-- The paths of files below the output directory, in order. -/
def written (output : Path) (rendered : List Rendered) : List Path :=
  Path.sort (rendered.flatMap fun r => r.files.map fun (f : Source.File) => output.child f.path)

/-- Delivers files; the answer is where they are. -/
def deliver (output : Path) (dirs : List String) (rendered : List Rendered) :
    ExceptT DeliveryFault m (List Path) := do
  ExceptT.adapt .unprepared (Disk.ensureDirs output)
  let scratch ← ExceptT.adapt .unprepared (Disk.makeScratch output)
  let result ← ExceptT.lift (write (m := m) output scratch dirs rendered).run
  ExceptT.lift (Disk.discard scratch)
  match result with
  | .ok () => return written output rendered
  | .error e => throw e

end Delivery

end Bindery
