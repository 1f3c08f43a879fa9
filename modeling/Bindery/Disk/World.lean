/-
  A WORLD to run in: a tree of files, a working directory, and operations that may fail.

  The world is a value, so a run in it is a function.  Which operations fail is said beforehand:
  each operation has a number, and for each way of using the disk - going forward, putting
  things back, removing scratch - the failures give a fault to the numbers that fail.
-/
import Bindery.Disk.Tree
import Bindery.Event

namespace Bindery

/-- Which operations fail, and with what. -/
structure Failures where
  /-- Making, writing and moving. -/
  forward : Nat → Option DiskFault
  /-- Putting back what was moved. -/
  restore : Nat → Option DiskFault
  /-- Removing directories; what fails here stays. -/
  discard : Nat → Bool

/-- No operation fails but for the state of the tree. -/
def Failures.none : Failures := ⟨fun _ => .none, fun _ => .none, fun _ => false⟩

/-- Files, and what has been done with them. -/
structure World where
  tree : Tree
  /-- The working directory. -/
  home : Place
  /-- How many operations there have been. -/
  operations : Nat
  failures : Failures
  /-- What has been said. -/
  events : List Event

namespace World

/-- A world with a tree and a working directory. -/
def ofTree (tree : Tree) (home : Place) : World := ⟨tree, home, 0, .none, []⟩

/-- An operation on the tree that fails where it is its turn to fail. -/
def act {α : Type} (fails : Failures → Nat → Option DiskFault)
    (operation : Tree → Place → Except DiskFault (α × Tree)) :
    ExceptT DiskFault (StateM World) α := fun w =>
  let next := { w with operations := w.operations + 1 }
  match fails w.failures w.operations with
  | some e => (.error e, next)
  | none =>
    match operation w.tree w.home with
    | .error e => (.error e, next)
    | .ok (a, t) => (.ok a, { next with tree := t })

/-- An operation that only looks. -/
def ask {α : Type} (question : Tree → Place → Except DiskFault α) :
    ExceptT DiskFault (StateM World) α := fun w => (question w.tree w.home, w)

instance : Disk (StateM World) where
  look p := ask fun t home => t.look home p
  read p := ask fun t home => t.read home p
  makeDir p := act Failures.forward fun t home => do return ((), ← t.makeDir home p)
  makeScratch p := act Failures.forward fun t home => t.makeScratch home p
  write p text := act Failures.forward fun t home => do return ((), ← t.write home p text)
  move p q := act Failures.forward fun t home => do return ((), ← t.rename home p q)
  restore p q := act Failures.restore fun t home => do return ((), ← t.rename home p q)
  discard p := fun w =>
    let next := { w with operations := w.operations + 1 }
    if w.failures.discard w.operations then ((), next)
    else ((), { next with tree := w.tree.discard w.home p })

instance : Console (StateM World) where
  note e := modify fun w => { w with events := w.events ++ [e] }
  now := return 0

end World

end Bindery
