/-
  THE OUTER LAYER: the program on a real disk and a real console.

  Nothing is decided here.  Each operation of `Disk` is one call of the system, and the faults of
  the system become faults of the disk.  Events go to the error stream, as far as the command
  wants to hear them.
-/
import Bindery.Program

namespace Bindery

namespace Shell

/-- Effects on the system, under a command that says how much is to be said. -/
abbrev ShellM := ReaderT Verbosity IO

/-- The fault of the disk that a fault of the system is. -/
def faultOf (e : IO.Error) : DiskFault :=
  match e with
  | .noFileOrDirectory .. => .notFound
  | .alreadyExists .. => .alreadyThere
  | .inappropriateType .. => .notDirectory
  | e => .refused e.toString

/-- A call of the system on paths; one that no disk can have is not tried. -/
def call {α : Type} (ps : List Path) (x : IO α) : ExceptT DiskFault ShellM α :=
  ExceptT.mk do
    if !ps.all (·.isUsable) then return .error .unusable
    match ← x.toBaseIO with
    | .ok a => return .ok a
    | .error e => return .error (faultOf e)

/-- What stands at a path.  Only a directory has a place `.` below it. -/
def look (p : Path) : IO (Option EntryKind) := do
  match ← (IO.FS.realPath (p.toString ++ "/.")).toBaseIO with
  | .ok _ => return some .directory
  | .error _ =>
    match ← (IO.FS.realPath p.toString).toBaseIO with
    | .ok _ => return some .file
    | .error _ => return none

/-- Makes a directory with a fresh name: the time, and a number for the case that it is taken. -/
def makeScratch (p : Path) : Nat → IO Path
  | 0 => throw (IO.userError "no free name for a scratch directory")
  | k + 1 => do
    let fresh := p.child (".bindery-" ++ toString (← IO.monoNanosNow) ++ "-" ++ toString k)
    match ← (IO.FS.createDir fresh.toString).toBaseIO with
    | .ok () => return fresh
    | .error (.alreadyExists ..) => makeScratch p k
    | .error e => throw e

instance : Disk ShellM where
  look p := if p.isUsable then call [p] (look p) else return none
  read p := call [p] (IO.FS.readFile p.toString)
  makeDir p := call [p] (IO.FS.createDir p.toString)
  makeScratch p := call [p] (makeScratch p 100)
  write p text := call [p] (IO.FS.writeFile p.toString text)
  move p q := call [p, q] (IO.FS.rename p.toString q.toString)
  restore p q := call [p, q] (IO.FS.rename p.toString q.toString)
  discard p := do
    let _ ← (IO.FS.removeDirAll p.toString).toBaseIO

instance : Console ShellM where
  note e := do
    if (← read).admits e.level then IO.eprintln e.text
  now := IO.monoNanosNow

/-- How the program is called. -/
def usage : List String :=
  ["usage: bindery [-h] [--output-dir DIR] [--target TARGET] [--library-name NAME]",
   "               [--java-package PACKAGE] [--jni-library NAME] [--check]",
   "               [--verbose | --quiet] description",
   "",
   "Generate Rust FFI, JNI/Java and C/Swift bindings from an API description",
   "",
   "  description            path of the description (.idl, .yaml, .yml or .json)",
   "  -h, --help             show this text and exit",
   "  -o, --output-dir DIR   output directory (default: generated)",
   "  -t, --target TARGET    core, jvm or swift; repeatable (default: all)",
   "  --library-name NAME    native library (C header, JNI library)",
   "  --java-package NAME    base package of the Java side",
   "  --jni-library NAME     library that the Java side loads",
   "  --check                look at the description and write nothing",
   "  -v, --verbose          say more",
   "  -q, --quiet            say only what is wrong"]

end Shell

end Bindery

open Bindery in
/-- Runs the command that the arguments ask for. -/
def main (arguments : List String) : IO UInt32 := do
  match CommandLine.parse arguments with
  | .error e =>
    let lines := "\n".intercalate Shell.usage
    if e = .help then IO.println lines else IO.eprintln lines
    return e.status.toUInt32
  | .ok c =>
    let ending ← (c.run : Shell.ShellM Ending).run c.verbosity
    match ending with
    | .broken cause => IO.eprintln cause.message
    | _ => pure ()
    return ending.status.toUInt32
