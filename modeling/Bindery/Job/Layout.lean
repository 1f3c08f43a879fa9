/-
  THE LAYOUT of output files: where an emitter may put them.

  Every path is relative, climbs nowhere, and leads through one of the emitter's directories to
  something below it.  What has passed this check can be put in place directory by directory.
-/
import Bindery.Job.Basic

namespace Bindery

/-- The files of one emitter. -/
structure Rendered where
  target : String
  files : List Source.File
  deriving DecidableEq, Repr

namespace Emitter

/-- Refuses a path that is not below one of the emitter's directories. -/
def checkPath (e : Emitter) (path : String) : Except GenerationFault Unit :=
  let p := Path.ofString path
  match p.names with
  | top :: _ :: _ =>
    if p.isAbsolute || p.names.contains ".." then .error (.badPath e.target path)
    else if e.dirs.contains top then .ok ()
    else .error (.outside e.target path e.dirs)
  | _ => .error (.badPath e.target path)

/-- Refuses files where one of the paths is refused. -/
def checkPaths (e : Emitter) : List Source.File → Except GenerationFault Unit
  | [] => .ok ()
  | f :: fs => do
    e.checkPath f.path
    e.checkPaths fs

/-- The fault of a job that a fault of the emitter is. -/
def faultOf (e : Emitter) : EmitFault → GenerationFault
  | .reported target message => .reported target message
  | .broken text => .broken e.target text

/-- The files that the emitter gives, all of them where they may be. -/
def render (e : Emitter) (model : Model) (options : Options) (table : ErrorTable) :
    Except GenerationFault (List Source.File) := do
  let files ← (e.emit model options table).mapError e.faultOf
  e.checkPaths files
  return files

end Emitter

/-- Adds the files of a target; should the target be there already, they take the place of
those that it has. -/
def Rendered.put (r : Rendered) : List Rendered → List Rendered
  | [] => [r]
  | s :: rs => if s.target == r.target then r :: rs else s :: put r rs

end Bindery
