/-
  FILE TREES: files and directories as plain data.

  A tree is a list of places and what stands there.  The root is a directory and is not listed.
  `find?` is the view that everything else is said through: what an operation does is what it
  does to `find?` at every place.
-/
import Bindery.Disk.Basic

namespace Bindery

/-- A place: the names that lead there from the root. -/
abbrev Place := List String

/-- What stands at a place. -/
inductive Entry where
  | file (text : String)
  | directory
  deriving DecidableEq, Repr

/-- A file or a directory, without its text. -/
def Entry.kind : Entry → EntryKind
  | file _ => .file
  | directory => .directory

/-- Files and directories. -/
structure Tree where
  entries : List (Place × Entry)
  deriving Repr

namespace Tree

/-! ## The view -/

/-- What stands at a place. -/
def find? (t : Tree) (p : Place) : Option Entry :=
  match p with
  | [] => some .directory
  | p => t.entries.lookup p

/-- Whether a place is strictly below another. -/
def isBelow (p q : Place) : Bool := p.isPrefixOf q && p != q

/-- Whether anything stands below a place. -/
def isBusy (t : Tree) (p : Place) : Bool := t.entries.any fun e => isBelow p e.1

/-! ## Operations -/

/-- Sets what stands at a place. -/
def put (t : Tree) (p : Place) (e : Entry) : Tree :=
  ⟨t.entries.filter (·.1 != p) ++ [(p, e)]⟩

/-- Removes a place and all below it. -/
def remove (t : Tree) (p : Place) : Tree := ⟨t.entries.filter fun e => !p.isPrefixOf e.1⟩

/-- The place that a place below `source` becomes when `source` becomes `target`. -/
def moved (source target : Place) (p : Place) : Place :=
  if source.isPrefixOf p then target ++ p.drop source.length else p

/-- Moves a place and all below it, in the place of what is there. -/
def move (t : Tree) (source target : Place) : Tree :=
  ⟨(t.remove target).entries.map fun e => (moved source target e.1, e.2)⟩

/-! ## Finding a place -/

/-- The longest name, in bytes. -/
def maxNameBytes : Nat := 255

/-- The longest path, in bytes. -/
def maxPathBytes : Nat := 4095

/-- The name of the place above. -/
def upName : String := ".."

/-- One name further. -/
def step (here : Place) (name : String) : Except DiskFault Place :=
  if name = upName then .ok here.dropLast
  else if maxNameBytes < name.utf8ByteSize then .error .nameTooLong
  else .ok (here ++ [name])

/-- The place that names lead to.  All but the last must lead to directories that are there. -/
def descend (t : Tree) (here : Place) : List String → Except DiskFault Place
  | [] => .ok here
  | name :: names =>
    match t.find? here with
    | some .directory => do descend t (← step here name) names
    | some (.file _) => .error .notDirectory
    | none => .error .notFound

/-- The place that a path leads to, from a working directory. -/
def locate (t : Tree) (home : Place) (p : Path) : Except DiskFault Place :=
  if !p.isUsable then .error .unusable
  else if maxPathBytes < p.toString.utf8ByteSize then .error .nameTooLong
  else t.descend (if p.isAbsolute then [] else home) p.names

/-- Whether the last name of a path is the name of what stands there. -/
def isNamed (p : Path) : Bool := p.names.getLast?.any (· != upName)

/-! ## Operations that may fail -/

/-- What stands at a path; a path that leads nowhere leads to nothing. -/
def look (t : Tree) (home : Place) (p : Path) : Except DiskFault (Option EntryKind) :=
  match t.locate home p with
  | .ok place => .ok ((t.find? place).map Entry.kind)
  | .error .nameTooLong => .error .nameTooLong
  | .error _ => .ok none

/-- The text of the file at a path. -/
def read (t : Tree) (home : Place) (p : Path) : Except DiskFault String := do
  let place ← t.locate home p
  match t.find? place with
  | some (.file text) => .ok text
  | some .directory => .error .isDirectory
  | none => .error .notFound

/-- Makes a directory where nothing stands. -/
def makeDir (t : Tree) (home : Place) (p : Path) : Except DiskFault Tree := do
  let place ← t.locate home p
  match t.find? place with
  | some _ => .error .alreadyThere
  | none => .ok (t.put place .directory)

/-- Writes a file. -/
def write (t : Tree) (home : Place) (p : Path) (text : String) : Except DiskFault Tree := do
  let place ← t.locate home p
  match t.find? place with
  | some .directory => .error .isDirectory
  | _ => .ok (t.put place (.file text))

/-- Whether `moving` may take the place of what stands at `target`. -/
def checkWay (t : Tree) (moving : Entry) (target : Place) : Except DiskFault Unit :=
  match moving, t.find? target with
  | .directory, some (.file _) => .error .notDirectory
  | .directory, some .directory =>
    if t.isBusy target then .error (.refused "directory not empty") else .ok ()
  | .file _, some .directory => .error .isDirectory
  | _, _ => .ok ()

/-- Renames what stands at one path to another. -/
def rename (t : Tree) (home : Place) (p q : Path) : Except DiskFault Tree := do
  let source ← t.locate home p
  let target ← t.locate home q
  if !(isNamed p && isNamed q) then .error (.refused "device or resource busy")
  else
    match t.find? source with
    | none => .error .notFound
    | some moving =>
      if source = target then .ok t
      else if isBelow source target then .error (.refused "invalid argument")
      else do
        checkWay t moving target
        .ok (t.move source target)

/-- Removes the directory at a path with all below it.  What is no directory stays. -/
def discard (t : Tree) (home : Place) (p : Path) : Tree :=
  match t.locate home p with
  | .ok place => if isNamed p && t.find? place = some .directory then t.remove place else t
  | .error _ => t

/-! ## Fresh names -/

/-- The first number in the names of scratch directories. -/
def firstScratch : Nat := 1000000

/-- The name of a scratch directory.  Up to the nine-millionth, all are equally long. -/
def scratchName (k : Nat) : String := ".bindery-" ++ Nat.repr (firstScratch + k)

/-- The first scratch name below a place that nothing has.  One of the first `n + 1` is free
where `n` entries stand in the tree. -/
def freshName? (t : Tree) (place : Place) : Option String :=
  ((List.range (t.entries.length + 1)).map scratchName).find? fun name =>
    (t.find? (place ++ [name])).isNone

/-- Makes a scratch directory below the directory at a path; the answer is its path. -/
def makeScratch (t : Tree) (home : Place) (p : Path) : Except DiskFault (Path × Tree) := do
  let place ← t.locate home p
  match t.find? place with
  | none => .error .notFound
  | some (.file _) => .error .notDirectory
  | some .directory =>
    match t.freshName? place with
    | some name =>
      let scratch : Path := ⟨p.anchor, p.names ++ [name]⟩
      return (scratch, ← t.makeDir home scratch)
    | none => .error .alreadyThere

/-! ## Listing -/

/-- How an entry below `root` is listed: a file with its size in bytes, an empty directory with
a slash behind its name, any other directory not at all. -/
def listed (t : Tree) (root : Place) (p : Place) (e : Entry) : Option (String × Option Nat) :=
  let name := "/".intercalate (p.drop root.length)
  match e with
  | .file text => some (name, some text.utf8ByteSize)
  | .directory => if t.isBusy p then none else some (name ++ "/", none)

/-- The files and the empty directories below a place, in the order of their names. -/
def listing (t : Tree) (root : Place) : List (String × Option Nat) :=
  ((t.entries.filter fun e => isBelow root e.1).filterMap fun e => t.listed root e.1 e.2).mergeSort
    fun a b => a.1 ≤ b.1

end Tree

end Bindery
