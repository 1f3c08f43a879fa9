/-
  NODES: what the tokens of a text describe.

  A text holds at most one document, and a document one node, which may hold others.  Nodes have
  numbers, and a collection names its parts by their numbers: an alias is nothing but the number of
  the node that its anchor names, and as a collection has its number before its parts are read, it
  may be a part of itself.  Every node has a type; nothing is said yet about what its text means.
-/
import Bindery.Markup.Schema
import Bindery.Markup.Token

namespace Bindery.Markup

/-! ## Graphs -/

/-- What a node is made of; other nodes are told by their numbers. -/
inductive Content where
  /-- A text, by its code points. -/
  | scalar (text : List Nat)
  | sequence (items : List Nat)
  | mapping (entries : List (Nat × Nat))
  deriving DecidableEq, Repr

/-- A node. -/
structure Node where
  tag : Tag
  content : Content
  deriving DecidableEq, Repr

/-- Nodes, by their numbers. -/
abbrev Graph := Array Node

namespace Graph

/-- The type of a node. -/
def tagOf (g : Graph) (id : Nat) : Tag := ((g[id]?).map (·.tag)).getD .unknown

/-- What a node is made of. -/
def contentOf (g : Graph) (id : Nat) : Content :=
  ((g[id]?).map (·.content)).getD (.scalar [])

/-- The entries of a mapping; other nodes have none. -/
def entriesOf (g : Graph) (id : Nat) : List (Nat × Nat) :=
  match g.contentOf id with
  | .mapping entries => entries
  | _ => []

/-- Whether a node is a mapping. -/
def isMapping (g : Graph) (id : Nat) : Bool :=
  match g.contentOf id with
  | .mapping _ => true
  | _ => false

/-- Gives a node its content. -/
def setContent (g : Graph) (id : Nat) (c : Content) : Graph :=
  g.modify id fun n => { n with content := c }

/-- Gives a node its type. -/
def setTag (g : Graph) (id : Nat) (t : Tag) : Graph := g.modify id fun n => { n with tag := t }

end Graph

/-! ## Properties -/

/-- What stands for the handles of tags. -/
abbrev Handles := List (List Char × List Char)

/-- The handles that need no directive. -/
def standardHandles : Handles := [(['!'], ['!']), (['!', '!'], standardTags.toList)]

/-- What is left to read, and what was read. -/
structure Stream where
  tokens : List Token
  nodes : Graph
  /-- The anchors so far, and the nodes they name. -/
  anchors : List (List Char × Nat)
  /-- How many collections are open. -/
  depth : Nat

/-- What stands in front of a node. -/
structure Properties where
  anchor : Option (List Char)
  /-- The tag in full. -/
  tag : Option (List Char)

/-- A tag in full; a handle that nothing stands for is a fault. -/
def fullTag (handles : Handles) (handle : Option (List Char)) (suffix : List Char) :
    Reading (List Char) :=
  match handle with
  | none => .ok suffix
  | some h =>
    match handles.lookup h with
    | some target => .ok (target ++ suffix)
    | none => refuse

namespace Properties

/-- The tag that asks for the meaning that a node has without one. -/
def neutral : List Char := ['!']

/-- Whether there is anything. -/
def isPresent (p : Properties) : Bool := p.anchor.isSome || p.tag.isSome

/-- The type of a collection that has one of its own. -/
def collection (p : Properties) (own : Tag) : Tag :=
  match p.tag with
  | none => own
  | some name => if name == neutral then own else .ofName name

/-- The type of a scalar; that of a plain one without a tag shows in its form. -/
def scalar (p : Properties) (text : List Nat) (plain : Bool) : Tag :=
  match p.tag with
  | none => if plain then .ofForm text else .text
  | some name => if name == neutral then .ofForm text else .ofName name

end Properties

namespace Stream

/-- Whether the next token is one of the given ones. -/
def isAt (s : Stream) (ts : List Token) : Bool := s.tokens.head?.any ts.contains

/-- Behind the next token. -/
def behind (s : Stream) : Stream := { s with tokens := s.tokens.tail }

/-- The answer where the next token does not fit: it may be a fault itself. -/
def stop {α : Type} (s : Stream) : Reading α :=
  match s.tokens with
  | .fault e :: _ => .error e
  | _ => refuse

/-- The properties in front of a node, in either order. -/
def properties (handles : Handles) (s : Stream) : Reading (Properties × Stream) :=
  match s.tokens with
  | .anchor a :: .tag h t :: ts | .tag h t :: .anchor a :: ts => do
    return (⟨some a, some (← fullTag handles h t)⟩, { s with tokens := ts })
  | .anchor _ :: .fault e :: _ | .tag _ _ :: .fault e :: _ => .error e
  | .anchor a :: ts => .ok (⟨some a, none⟩, { s with tokens := ts })
  | .tag h t :: ts => do return (⟨none, some (← fullTag handles h t)⟩, { s with tokens := ts })
  | _ => .ok (⟨none, none⟩, s)

/-- Adds a node, with its anchor; two anchors of one name are a fault. -/
def add (s : Stream) (p : Properties) (n : Node) : Reading (Nat × Stream) :=
  let id := s.nodes.size
  let nodes := s.nodes.push n
  match p.anchor with
  | none => .ok (id, { s with nodes })
  | some a =>
    if (s.anchors.lookup a).isSome then refuse
    else .ok (id, { s with nodes, anchors := (a, id) :: s.anchors })

/-- Adds a scalar. -/
def addScalar (s : Stream) (p : Properties) (text : List Nat) (plain : Bool) :
    Reading (Nat × Stream) :=
  s.add p ⟨p.scalar text plain, .scalar text⟩

/-- Adds a node that is not written. -/
def addEmpty (s : Stream) : Reading (Nat × Stream) := s.addScalar ⟨none, none⟩ [] true

/-- Gives a node its content. -/
def complete (s : Stream) (id : Nat) (c : Content) : Stream :=
  { s with nodes := s.nodes.setContent id c }

/-- The node of an alias. -/
def aliased (s : Stream) (a : List Char) : Reading Nat :=
  match s.anchors.lookup a with
  | some id => .ok id
  | none => refuse

/-! ## Nodes -/

/-- How deep collections may be inside one another. -/
def maxDepth : Nat := 480

/-- A collection whose parts `read` gives; it has its number before. -/
def collection {α : Type} (p : Properties) (own : Tag) (content : List α → Content)
    (read : Stream → Reading (List α × Stream)) (s : Stream) : Reading (Nat × Stream) := do
  let depth := s.depth
  let (id, s) ← s.add p ⟨p.collection own, content []⟩
  if maxDepth ≤ depth then .error .tooDeep
  let (parts, s) ← read { s with depth := depth + 1 }
  return (id, { s.complete id (content parts) with depth })

mutual

/-- A node; `block` tells that block collections may stand here, `indentless` that a sequence may
stand without indentation. -/
def node (handles : Handles) (block indentless : Bool) : Nat → Stream → Reading (Nat × Stream)
  | 0, _ => refuse
  | fuel + 1, s =>
    match s.tokens with
    | .alias a :: _ => do return (← s.aliased a, s.behind)
    | _ => do
      let (props, s) ← s.properties handles
      match s.tokens with
      | .scalar text plain :: _ => s.behind.addScalar props text plain
      | .fault e :: _ => .error e
      | t :: _ =>
        if t = .flowSequenceStart then
          collection props .sequence .sequence (flowItems handles true fuel) s.behind
        else if t = .flowMappingStart then
          collection props .mapping .mapping (flowEntries handles true fuel) s.behind
        else if t = .blockEntry && indentless then
          collection props .sequence .sequence (plainItems handles fuel) s
        else if t = .sequenceStart && block then
          collection props .sequence .sequence (blockItems handles fuel) s.behind
        else if t = .mappingStart && block then
          collection props .mapping .mapping (blockEntries handles fuel) s.behind
        else if props.isPresent then s.addScalar props [] true
        else refuse
      | [] => refuse

/-- A node, unless one of the given tokens comes, in front of which nothing is written. -/
def nodeUnless (handles : Handles) (block indentless : Bool) (ends : List Token) :
    Nat → Stream → Reading (Nat × Stream)
  | 0, _ => refuse
  | fuel + 1, s =>
    if s.isAt ends then s.addEmpty else node handles block indentless fuel s

/-- The value behind a key; without its mark there is none written. -/
def valueUnless (handles : Handles) (block : Bool) (ends : List Token) :
    Nat → Stream → Reading (Nat × Stream)
  | 0, _ => refuse
  | fuel + 1, s =>
    if s.isAt [.value] then nodeUnless handles block block ends fuel s.behind
    else s.addEmpty

/-- The items of a block sequence, and its end. -/
def blockItems (handles : Handles) : Nat → Stream → Reading (List Nat × Stream)
  | 0, _ => refuse
  | fuel + 1, s =>
    if s.isAt [.blockEntry] then do
      let (n, s) ← nodeUnless handles true false [.blockEntry, .blockEnd] fuel s.behind
      let (ns, s) ← blockItems handles fuel s
      return (n :: ns, s)
    else if s.isAt [.blockEnd] then .ok ([], s.behind)
    else s.stop

/-- The items of a sequence without indentation. -/
def plainItems (handles : Handles) : Nat → Stream → Reading (List Nat × Stream)
  | 0, _ => refuse
  | fuel + 1, s =>
    if s.isAt [.blockEntry] then do
      let (n, s) ← nodeUnless handles true false [.blockEntry, .key, .value, .blockEnd] fuel
        s.behind
      let (ns, s) ← plainItems handles fuel s
      return (n :: ns, s)
    else .ok ([], s)

/-- The entries of a block mapping, and its end. -/
def blockEntries (handles : Handles) : Nat → Stream → Reading (List (Nat × Nat) × Stream)
  | 0, _ => refuse
  | fuel + 1, s =>
    if s.isAt [.key] then do
      let (k, s) ← nodeUnless handles true true [.key, .value, .blockEnd] fuel s.behind
      let (v, s) ← valueUnless handles true [.key, .value, .blockEnd] fuel s
      let (es, s) ← blockEntries handles fuel s
      return ((k, v) :: es, s)
    else if s.isAt [.blockEnd] then .ok ([], s.behind)
    else s.stop

/-- The items of a flow sequence, and its end; an item may be a mapping of one entry. -/
def flowItems (handles : Handles) (first : Bool) : Nat → Stream → Reading (List Nat × Stream)
  | 0, _ => refuse
  | fuel + 1, s =>
    if s.isAt [.flowSequenceEnd] then .ok ([], s.behind)
    else if !first && !s.isAt [.flowEntry] then s.stop
    else
      let s := if first then s else s.behind
      if s.isAt [.key] then do
        let (n, s) ← collection ⟨none, none⟩ .mapping .mapping (onlyEntry handles fuel) s.behind
        let (ns, s) ← flowItems handles false fuel s
        return (n :: ns, s)
      else if s.isAt [.flowSequenceEnd] then .ok ([], s.behind)
      else do
        let (n, s) ← node handles false false fuel s
        let (ns, s) ← flowItems handles false fuel s
        return (n :: ns, s)

/-- The entry of a mapping that stands as an item, behind the mark of its key. -/
def onlyEntry (handles : Handles) : Nat → Stream → Reading (List (Nat × Nat) × Stream)
  | 0, _ => refuse
  | fuel + 1, s => do
    let (k, s) ← nodeUnless handles false false [.value, .flowEntry, .flowSequenceEnd] fuel s
    let (v, s) ← valueUnless handles false [.flowEntry, .flowSequenceEnd] fuel s
    return ([(k, v)], s)

/-- The entries of a flow mapping, and its end. -/
def flowEntries (handles : Handles) (first : Bool) :
    Nat → Stream → Reading (List (Nat × Nat) × Stream)
  | 0, _ => refuse
  | fuel + 1, s =>
    if s.isAt [.flowMappingEnd] then .ok ([], s.behind)
    else if !first && !s.isAt [.flowEntry] then s.stop
    else
      let s := if first then s else s.behind
      if s.isAt [.key] then do
        let (k, s) ← nodeUnless handles false false [.value, .flowEntry, .flowMappingEnd] fuel
          s.behind
        let (v, s) ← valueUnless handles false [.flowEntry, .flowMappingEnd] fuel s
        let (es, s) ← flowEntries handles false fuel s
        return ((k, v) :: es, s)
      else if s.isAt [.flowMappingEnd] then .ok ([], s.behind)
      else do
        let (k, s) ← node handles false false fuel s
        let (v, s) ← s.addEmpty
        let (es, s) ← flowEntries handles false fuel s
        return ((k, v) :: es, s)

end

end Stream

/-! ## Documents -/

/-- The directives in front of a document: at most one version, which is 1, and one target for a
handle. -/
def directives (version : Bool) (handles : Handles) : List Token → Reading (Handles × List Token)
  | .version major :: ts => do
    require (!version && major == 1)
    directives true handles ts
  | .handle name target :: ts => do
    require (handles.lookup name).isNone
    directives version ((name, target) :: handles) ts
  | .otherDirective :: ts => directives version handles ts
  | .fault e :: _ => .error e
  | ts => .ok (handles, ts)

/-- Behind a document there is nothing but marks of its end. -/
def closes : List Token → Reading Unit
  | .documentEnd :: ts => closes ts
  | [.streamEnd] => .ok ()
  | ts => do
    let _ ← directives false [] ts
    refuse

/-- Whether a token ends a document. -/
def Token.endsDocument : Token → Bool
  | documentStart => true
  | documentEnd => true
  | streamEnd => true
  | version _ => true
  | handle _ _ => true
  | otherDirective => true
  | _ => false

/-- A bound for the steps of reading so many tokens. -/
def bound (ts : List Token) : Nat := 4 * ts.length + 4

/-- The node of a document, up to the end of the text. -/
def document (handles : Handles) (ts : List Token) : Reading (Graph × Nat) := do
  let s : Stream := ⟨ts, #[], [], 0⟩
  let (id, s) ←
    if ts.head?.any (·.endsDocument) then s.addEmpty
    else s.node (handles ++ standardHandles) true false (bound ts)
  closes s.tokens
  return (s.nodes, id)

/-- The node of a text, among all its nodes; a text without a document has none. -/
def nodeOf? (ts : List Token) : Reading (Option (Graph × Nat)) := do
  if ts == [.streamEnd] then return none
  let (handles, rest) ← directives false [] ts
  match rest with
  | .documentStart :: body => return some (← document handles body)
  | _ =>
    require !(ts.head?.any (·.endsDocument))
    return some (← document [] ts)

end Bindery.Markup
