/-
  MERGING: mappings that take entries from others.

  An entry whose key is the mark of merging brings the entries of its value, a mapping or a
  sequence of mappings, which in turn may merge others.  They stand in front of the mapping's own
  entries, so these win, and of several mappings the first wins.  A mapping may merge itself: what
  it brings then is what is left when its marks are taken out, and as every step takes one out,
  the merging ends.
-/
import Bindery.Markup.Node

namespace Bindery.Markup.Graph

/-! ## Marks -/

/-- Whether the key of an entry is the mark of merging. -/
def isMerge (g : Graph) (entry : Nat × Nat) : Bool := g.tagOf entry.1 == .merge

/-- The first mark of a mapping taken out, with what it merges. -/
def takeMerge? (g : Graph) (id : Nat) : Option (Nat × Graph) :=
  let entries := g.entriesOf id
  (entries.find? g.isMerge).map fun e =>
    (e.2, g.setContent id (.mapping (entries.eraseP g.isMerge)))

/-- The nodes that a node merges: itself, or its items. -/
def merged (g : Graph) (id : Nat) : Reading (List Nat) :=
  match g.contentOf id with
  | .mapping _ => .ok [id]
  | .sequence items => .ok items
  | .scalar _ => refuse

/-- The keys that are the mark of a default value become texts. -/
def settleKeys (g : Graph) (id : Nat) : Graph :=
  (g.entriesOf id).foldl
    (fun g e => if g.tagOf e.1 == .default then g.setTag e.1 .text else g) g

/-! ## Steps -/

/-- A mapping with the entries of all that it merges. -/
def flatten : Nat → Nat → Graph → Reading Graph
  | 0, _, _ => .error .tooDeep
  | fuel + 1, id, g =>
    match g.takeMerge? id with
    | none => .ok (g.settleKeys id)
    | some (value, g) => do
      let (lists, g) ← (← g.merged value).foldlM
        (fun (lists, g) part => do
          require (g.isMapping part)
          let g ← flatten fuel part g
          return (g.entriesOf part :: lists, g))
        ([], g)
      let g ← flatten fuel id g
      return g.setContent id (.mapping (lists.flatten ++ g.entriesOf id))

/-- A bound for the steps of merging: how many entries there are.  Entries that are merged bring no
marks, so it holds however much was merged before. -/
def mergeBound (g : Graph) : Nat :=
  (List.range g.size).foldl (fun n id => n + (g.entriesOf id).length) 1

/-- A mapping with the entries of all that it merges, in at most `bound` steps; other nodes
stay. -/
def mergeInto (bound : Nat) (g : Graph) (id : Nat) : Reading Graph :=
  if g.isMapping id then flatten bound id g else .ok g

end Bindery.Markup.Graph
