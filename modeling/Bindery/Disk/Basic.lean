/-
  DISKS: the operations on files that a run is made of.

  Whatever keeps files can be a disk: the class lists the operations, and all that is done with
  files is written against it alone.  Each operation either does all of its work or fails and
  does nothing; the one exception, `discard`, never fails and may leave what it cannot remove.
  Putting things back (`restore`) has the effect of `move`; it has a name of its own so that one
  can say which of the two may fail.
-/
import Bindery.Path

namespace Bindery

/-- What stands at a path. -/
inductive EntryKind where
  | file
  | directory
  deriving DecidableEq, Repr

/-- Why an operation on files fails. -/
inductive DiskFault where
  /-- Nothing stands there, or above it. -/
  | notFound
  /-- Something stands there already. -/
  | alreadyThere
  /-- A file stands where a directory should. -/
  | notDirectory
  /-- A directory stands where a file should. -/
  | isDirectory
  /-- A name or a path that is too long. -/
  | nameTooLong
  /-- Anything else that the disk refuses, in its own words. -/
  | refused (text : String)
  /-- A path that no disk can have. -/
  | unusable
  /-- A text that cannot be encoded. -/
  | unencodable
  deriving DecidableEq, Repr

/-- The message for a fault. -/
def DiskFault.message : DiskFault → String
  | notFound => "no such file or directory"
  | alreadyThere => "file exists"
  | notDirectory => "not a directory"
  | isDirectory => "is a directory"
  | nameTooLong => "file name too long"
  | refused text => text
  | unusable => "unusable path"
  | unencodable => "unencodable text"

/-- Whether a fault is one of the disk, and not of the path or the text as such. -/
def DiskFault.isOfDisk (f : DiskFault) : Bool := f ≠ .unusable && f ≠ .unencodable

/-- The operations on files. -/
class Disk (m : Type → Type) where
  /-- What stands at a path, if anything. -/
  look : Path → ExceptT DiskFault m (Option EntryKind)
  /-- The text of a file. -/
  read : Path → ExceptT DiskFault m String
  /-- Makes one directory. -/
  makeDir : Path → ExceptT DiskFault m Unit
  /-- Makes a directory with a name that nothing else has, below another. -/
  makeScratch : Path → ExceptT DiskFault m Path
  /-- Writes a file, or overwrites it. -/
  write : Path → String → ExceptT DiskFault m Unit
  /-- Moves a file or a directory; a file, or an empty directory, may be in its way. -/
  move : Path → Path → ExceptT DiskFault m Unit
  /-- Moves something back to where it was. -/
  restore : Path → Path → ExceptT DiskFault m Unit
  /-- Removes a directory and what is below it, as far as that can be done. -/
  discard : Path → m Unit

namespace Disk

variable {m : Type → Type} [Monad m] [Disk m]

/-- Whether a directory stands at a path. -/
def isDirectory (p : Path) : ExceptT DiskFault m Bool :=
  return (← look p) == some .directory

/-- Whether a file stands at a path. -/
def isFile (p : Path) : ExceptT DiskFault m Bool :=
  return (← look p) == some .file

/-- Whether anything stands at a path. -/
def isThere (p : Path) : ExceptT DiskFault m Bool :=
  return (← look p).isSome

/-- Makes one directory, unless it is there already. -/
def ensureDir (p : Path) : ExceptT DiskFault m Unit :=
  tryCatch (makeDir p) fun e => do
    if e != .unusable && e != .notFound && (← isDirectory p) then return
    throw e

/-- Makes the directory with the given names, last name first, and those above it, as far as
they are not there already. -/
def ensureDirsAt (anchor : Anchor) : List String → ExceptT DiskFault m Unit
  | [] => ensureDir ⟨anchor, []⟩
  | name :: above =>
    let p : Path := ⟨anchor, (name :: above).reverse⟩
    tryCatch (ensureDir p) fun e => do
      if e != .notFound then throw e
      ensureDirsAt anchor above
      ensureDir p

/-- Makes a directory and those above it, as far as they are not there already. -/
def ensureDirs (p : Path) : ExceptT DiskFault m Unit := ensureDirsAt p.anchor p.names.reverse

/-- Makes a directory that must not be there, and those above it. -/
def makeDirs (p : Path) : ExceptT DiskFault m Unit :=
  tryCatch (makeDir p) fun e => do
    if e != .notFound || p.names.isEmpty then throw e
    ensureDirs p.parent
    makeDir p

end Disk

end Bindery
