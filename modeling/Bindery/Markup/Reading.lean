/-
  READING a text of the markup as a value.

  JSON is read by the same rules.  What the nodes of the text mean is put together to one value.
  A collection that is a part of itself stands behind a mark, its number; where it comes up inside
  itself there is the mark alone.  Values that are put together once are used again wherever an
  alias stands for them, unless they depend on a mark of a collection around.
-/
import Bindery.Markup.Meaning

namespace Bindery.Markup

/-! ## Parts -/

/-- The numbers of what a datum holds. -/
def Datum.parts : Datum → List Nat
  | scalar _ => []
  | list items => items
  | pair k l => [k, l]
  | set items => items
  | map entries => entries.flatMap fun e => [e.1, e.2]

namespace Data

/-- The numbers of what a datum holds. -/
def partsOf (data : Data) (id : Nat) : List Nat := ((data[id]?.join).map (·.parts)).getD []

/-- Marks data, and all that they hold, as seen. -/
def visit (data : Data) : Nat → List Nat → Array Bool → Array Bool
  | 0, _, seen => seen
  | _, [], seen => seen
  | fuel + 1, id :: ids, seen =>
    if seen[id]?.getD true then visit data fuel ids seen
    else visit data fuel (data.partsOf id ++ ids) (seen.setIfInBounds id true)

/-- A bound for the steps of a visit: every datum and its parts once. -/
def visitBound (data : Data) : Nat :=
  (List.range data.size).foldl (fun n id => n + (data.partsOf id).length) (data.size + 1)

/-- Whether a datum is a part of itself, seen in at most `bound` steps behind its parts. -/
def isCyclic (data : Data) (bound id : Nat) : Bool :=
  let parts := data.partsOf id
  !parts.isEmpty &&
    let none := Array.replicate data.size false
    (data.visit (bound + parts.length) parts none)[id]?.getD false

/-- The data that are parts of themselves. -/
def cycles (data : Data) : Array Bool :=
  let bound := data.visitBound
  (Array.range data.size).map (data.isCyclic bound)

end Data

/-! ## Putting together -/

/-- The values that are put together so far, but for those that depend on one around. -/
abbrev Known := Array (Option Value)

/-- A value, and the marks of those around that it uses. -/
abbrev Part := Value × List Nat

/-- A collection made of its parts, known from now on if it uses no mark of those around. -/
def Known.close (known : Known) (id : Nat) (v : Value) (used : List Nat) : Part × Known :=
  let outer := (used.filter (· != id)).eraseDups
  ((v, outer), if outer.isEmpty then known.setIfInBounds id (some v) else known)

/-- The values of data, each of which `value` gives. -/
def collect (value : Nat → Known → Part × Known) :
    List Nat → Known → List Value × List Nat × Known
  | [], known => ([], [], known)
  | id :: ids, known =>
    let ((v, used), known) := value id known
    let (vs, more, known) := collect value ids known
    (v :: vs, used ++ more, known)

/-- The value of a datum inside the collections `around`; `cyclic` tells which data are parts of
themselves. -/
def assemble (data : Data) (cyclic : Array Bool) : Nat → List Nat → Nat → Known → Part × Known
  | 0, _, _, known => ((.null, []), known)
  | fuel + 1, around, id, known =>
    let inside := collect (assemble data cyclic fuel (id :: around))
    let mark (v : Value) : Value := if cyclic[id]?.getD false then .marked id v else v
    match known[id]?.join with
    | some v => ((v, []), known)
    | none =>
      if around.contains id then ((.again id, [id]), known)
      else
        match data[id]?.join with
        | none => ((.null, []), known)
        | some (.scalar v) => ((v, []), known)
        | some (.list items) =>
          let (vs, used, known) := inside items known
          known.close id (mark (.list vs)) used
        | some (.pair k l) =>
          let ((v, used), known) := assemble data cyclic fuel (id :: around) k known
          let ((w, more), known) := assemble data cyclic fuel (id :: around) l known
          known.close id (mark (.pair v w)) (used ++ more)
        | some (.set items) =>
          let (vs, used, known) := inside items known
          known.close id (mark (.set vs)) used
        | some (.map entries) =>
          let (ks, used, known) := inside (entries.map (·.1)) known
          let (vs, more, known) := inside (entries.map (·.2)) known
          known.close id (mark (.map (ks.zip vs))) (used ++ more)

/-- The value of a datum in full. -/
def Data.value (data : Data) (id : Nat) : Value :=
  (assemble data data.cycles (data.size + 1) [] id (Array.replicate data.size none)).1.1

/-- The value of a text; a text without a document is nothing. -/
def read (s : List Char) : Reading Value := do
  match ← nodeOf? (Token.scan s) with
  | some (g, id) => return Data.value (← g.meaning id) id
  | none => return .null

end Bindery.Markup
