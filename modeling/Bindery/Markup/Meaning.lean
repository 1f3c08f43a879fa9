/-
  MEANING: what the nodes of a text stand for.

  A scalar stands for a value at once.  A collection is there before its parts: they get their
  meaning when it is filled, and collections are filled in the order in which they are met, the
  outer ones first.  So a collection may hold itself, and of two faults the one that is less deep
  is found first.
-/
import Bindery.Markup.Binary
import Bindery.Markup.Merging
import Bindery.Value.Basic

namespace Bindery.Markup

/-! ## Scalars -/

/-- The truth value that a text is asked to be. -/
def truth? (s : List Char) : Option Bool :=
  let word := String.ofList (Text.lower s)
  if trueWords.contains word then some true
  else if falseWords.contains word then some false
  else none

/-- The bytes that a text is asked to be. -/
def binary (s : List Char) : Reading Value :=
  if s.all (·.toNat < 0x80) then
    match Binary.decode s with
    | some octets => .ok (.bytes octets)
    | none => refuse
  else refuse

/-- The moment that a text is asked to be. -/
def moment (s : List Char) : Reading Value :=
  match Timestamp.ofText? s with
  | none => .error .notMoment
  | some t =>
    match t.moment? with
    | some m => .ok (.moment m)
    | none => .error .badNumber

/-- The value of a text of a type; a code point without a character fits no type but text. -/
def Tag.value (t : Tag) (ps : List Nat) : Reading Value :=
  let s := ps.map Text.pointChar
  match t with
  | null => .ok .null
  | bool =>
    match truth? s with
    | some b => .ok (.bool b)
    | none => .error .notTruth
  | int => (Numeral.integer s).map .int
  | float => (Numeral.floating s).map .float
  | text => .ok (.ofPoints ps)
  | binary => Markup.binary s
  | moment => Markup.moment s
  | _ => refuse

/-- Whether the values of a type are no collections. -/
def Tag.isScalar (t : Tag) : Bool :=
  [null, bool, int, float, binary, moment, text].contains t

namespace Graph

/-- The text of a node: that of a mapping is the text of its default value. -/
def textWithin (g : Graph) : Nat → Nat → Reading (List Nat)
  | 0, _ => .error .tooDeep
  | fuel + 1, id =>
    match g.contentOf id with
    | .scalar text => .ok text
    | .mapping entries =>
      match entries.find? fun e => g.tagOf e.1 == .default with
      | some e => textWithin g fuel e.2
      | none => refuse
    | .sequence _ => refuse

@[inherit_doc textWithin]
def textOf (g : Graph) (id : Nat) : Reading (List Nat) := g.textWithin (g.size + 1) id

/-- The value of a node whose type is not that of a collection. -/
def valueOf (g : Graph) (id : Nat) : Reading Value := do
  let t := g.tagOf id
  require t.isScalar
  let text ← g.textOf id
  if t == .moment && g.isMapping id then .error .mappedMoment
  t.value text

/-- Whether a node is the word for what is not a number. -/
def isNan (g : Graph) (id : Nat) : Bool :=
  g.tagOf id == .float &&
    match g.textOf id with
    | .ok text => Numeral.isNanMark (text.map Text.pointChar)
    | .error _ => false

end Graph

/-! ## Collections -/

/-- What a node means; other data are told by their numbers. -/
inductive Datum where
  | scalar (v : Value)
  | list (items : List Nat)
  | pair (first second : Nat)
  | set (items : List Nat)
  | map (entries : List (Nat × Nat))
  deriving Inhabited

/-- What the nodes of a text mean, by their numbers; pairs, which are no nodes, stand behind. -/
abbrev Data := Array (Option Datum)

/-- The nodes of a text while they get their meaning. -/
structure Builder where
  graph : Graph
  /-- The meanings so far. -/
  data : Data
  /-- The collections that are not filled yet, the last one first. -/
  waiting : List Nat
  /-- A bound for the steps of merging. -/
  mergeBound : Nat

namespace Builder

/-- Nodes without a meaning. -/
def start (g : Graph) : Builder := ⟨g, Array.replicate g.size none, [], g.mergeBound⟩

/-- The meaning of a node. -/
def datum? (b : Builder) (id : Nat) : Option Datum := b.data[id]?.join

/-- Sets the meaning of a node. -/
def setDatum (b : Builder) (id : Nat) (d : Datum) : Builder :=
  { b with data := b.data.setIfInBounds id (some d) }

/-- A collection that will be filled. -/
def wait (b : Builder) (id : Nat) (d : Datum) : Builder :=
  { b.setDatum id d with waiting := id :: b.waiting }

/-- Gives a node its meaning, unless it has it. -/
def give (b : Builder) (id : Nat) : Reading Builder :=
  if (b.datum? id).isSome then .ok b
  else
    match b.graph.tagOf id with
    | .sequence | .omap | .pairs => .ok (b.wait id (.list []))
    | .mapping => .ok (b.wait id (.map []))
    | .set => .ok (b.wait id (.set []))
    | _ => (b.graph.valueOf id).map fun v => b.setDatum id (.scalar v)

/-! ## Keys -/

/-- Whether a node can be a key: what holds others cannot. -/
def isKey (b : Builder) (id : Nat) : Bool :=
  match b.datum? id with
  | some (.scalar _) => true
  | _ => false

/-- Whether two nodes are the same key.  What is not a number is the same as itself only, but all
words for it stand for one. -/
def sameKey (b : Builder) (k l : Nat) : Bool :=
  k == l || (b.graph.isNan k && b.graph.isNan l) ||
    match b.datum? k, b.datum? l with
    | some (.scalar v), some (.scalar w) => v.sameKey w
    | _, _ => false

/-- Sets an entry: a key that is there already keeps its place and its first spelling. -/
def setEntry (b : Builder) (entries : List (Nat × Nat)) (e : Nat × Nat) : List (Nat × Nat) :=
  if entries.any fun x => b.sameKey x.1 e.1 then
    entries.map fun x => if b.sameKey x.1 e.1 then (x.1, e.2) else x
  else entries ++ [e]

/-! ## Filling -/

/-- The items of a sequence. -/
def items (b : Builder) (id : Nat) : Reading (List Nat × Builder) :=
  match b.graph.contentOf id with
  | .sequence items => do return (items, ← items.foldlM give b)
  | _ => refuse

/-- The entries of a mapping, with those that it merges. -/
def entries (b : Builder) (id : Nat) : Reading (List (Nat × Nat) × Builder) := do
  let b := { b with graph := ← b.graph.mergeInto b.mergeBound id }
  require (b.graph.isMapping id)
  let entries := b.graph.entriesOf id
  let b ← entries.foldlM (fun b e => do
    let b ← b.give e.1
    require (b.isKey e.1)
    b.give e.2) b
  return (entries.foldl b.setEntry [], b)

/-- The pair that a mapping of one entry stands for. -/
def pairOf (b : Builder) (id : Nat) : Reading (Nat × Builder) :=
  match b.graph.contentOf id with
  | .mapping [(k, v)] => do
    let b ← (← b.give k).give v
    return (b.data.size, { b with data := b.data.push (some (.pair k v)) })
  | _ => refuse

/-- The pairs of a sequence. -/
def pairs (b : Builder) (id : Nat) : Reading (List Nat × Builder) :=
  match b.graph.contentOf id with
  | .sequence items =>
    items.foldlM (fun (ids, b) part => do
      let (id, b) ← b.pairOf part
      return (ids ++ [id], b)) ([], b)
  | _ => refuse

/-- Fills a collection. -/
def fill (b : Builder) (id : Nat) : Reading Builder :=
  match b.graph.tagOf id with
  | .sequence => do
    let (items, b) ← b.items id
    return b.setDatum id (.list items)
  | .omap | .pairs => do
    let (items, b) ← b.pairs id
    return b.setDatum id (.list items)
  | .set => do
    let (entries, b) ← b.entries id
    return b.setDatum id (.set (entries.map (·.1)))
  | .mapping => do
    let (entries, b) ← b.entries id
    return b.setDatum id (.map entries)
  | _ => .ok b

/-- Fills what is not filled yet, in rounds; every round fills collections that were met in the
one before, and each is met once. -/
def fillAll : Nat → Builder → Reading Builder
  | 0, _ => .error .tooDeep
  | fuel + 1, b =>
    if b.waiting.isEmpty then .ok b
    else do
      fillAll fuel (← b.waiting.reverse.foldlM fill { b with waiting := [] })

end Builder

/-- What a node and all that it holds mean. -/
def Graph.meaning (g : Graph) (id : Nat) : Reading Data := do
  let b ← (Builder.start g).give id
  return (← b.fillAll (g.size + 1)).data

end Bindery.Markup
