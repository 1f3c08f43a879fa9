/-
  VALUES: what a description holds before anything about it is checked.

  A value is what a document format can say: nothing, a truth value, a number, a text, bytes, a
  moment, a list, a pair, a set or a map.  A map keeps its entries in the order of first mention;
  its keys are values themselves, because a document may use numbers or nothing as keys.

  A document may say of a value that it holds itself.  Such a value stands behind a mark of its
  own, and inside it the mark stands for the whole: `bare` takes the mark away by putting the
  whole where the mark is used.  Whoever asks for the items or entries of a value sees it so, and
  never meets a mark that stands for something outside.
-/
import Bindery.Moment
import Bindery.Text.CodePoint

namespace Bindery

/-- A raw, unchecked value. -/
inductive Value where
  | null
  | bool (b : Bool)
  | int (n : Int)
  | float (x : Float)
  | str (s : String)
  /-- A text that no string can hold, by its code points. -/
  | codes (points : List Nat)
  | bytes (octets : List UInt8)
  | moment (m : Moment)
  | list (items : List Value)
  | pair (first second : Value)
  | set (items : List Value)
  | map (entries : List (Value × Value))
  /-- A list, pair or map that holds itself. -/
  | marked (mark : Nat) (v : Value)
  /-- The value behind the mark, inside itself. -/
  | again (mark : Nat)
  deriving Inhabited

namespace Value

/-- The text of code points. -/
def ofPoints (ps : List Nat) : Value :=
  match Text.ofPoints? ps with
  | some s => str (String.ofList s)
  | none => codes ps

/-- The code points of a text. -/
def points? : Value → Option (List Nat)
  | str s => some (Text.pointsOf s.toList)
  | codes ps => some ps
  | _ => none

/-- Whether a value is a text that no string can hold. -/
def isBroken : Value → Bool
  | codes _ => true
  | _ => false

/-- The kind of a value, as messages name it. -/
def kindName : Value → String
  | null => "NoneType"
  | bool _ => "bool"
  | int _ => "int"
  | float _ => "float"
  | str _ => "str"
  | codes _ => "str"
  | bytes _ => "bytes"
  | moment (.day _) => "date"
  | moment (.time _ _ _) => "datetime"
  | list _ => "list"
  | pair _ _ => "tuple"
  | set _ => "set"
  | map _ => "dict"
  | marked _ v => kindName v
  | again _ => "list"

/-- Whether a value counts as absent: nothing, `false`, zero, or empty. -/
def isAbsent : Value → Bool
  | null => true
  | bool b => !b
  | int n => n == 0
  | float x => x == 0.0
  | str s => s.isEmpty
  | codes ps => ps.isEmpty
  | bytes octets => octets.isEmpty
  | list xs => xs.isEmpty
  | set xs => xs.isEmpty
  | map es => es.isEmpty
  | moment _ | pair _ _ | marked _ _ | again _ => false

/-! ## Values that hold themselves -/

mutual

/-- Puts a value where a mark is used. -/
def fill (mark : Nat) (whole : Value) : Value → Value
  | list items => list (fillAll mark whole items)
  | pair a b => pair (fill mark whole a) (fill mark whole b)
  | set items => set (fillAll mark whole items)
  | map entries => map (fillEntries mark whole entries)
  | marked k v => if k = mark then marked k v else marked k (fill mark whole v)
  | again k => if k = mark then whole else again k
  | v => v

/-- Puts a value where a mark is used in the items of a list. -/
def fillAll (mark : Nat) (whole : Value) : List Value → List Value
  | [] => []
  | v :: vs => fill mark whole v :: fillAll mark whole vs

/-- Puts a value where a mark is used in the entries of a map. -/
def fillEntries (mark : Nat) (whole : Value) : List (Value × Value) → List (Value × Value)
  | [] => []
  | (k, v) :: es => (fill mark whole k, fill mark whole v) :: fillEntries mark whole es

end

/-- A value without the mark in front of it. -/
def bare : Value → Value
  | marked k v => fill k (marked k v) v
  | v => v

/-- The items of a list. -/
def items? (v : Value) : Option (List Value) :=
  match v.bare with
  | list items => some items
  | _ => none

/-- The entries of a map. -/
def entries? (v : Value) : Option (List (Value × Value)) :=
  match v.bare with
  | map es => some es
  | _ => none

/-! ## Keys -/

/-- The number that a truth value or a number stands for, as a key. -/
def keyNumber? : Value → Option Int
  | bool b => some (if b then 1 else 0)
  | int n => some n
  | float x => (Decimal.Double.ofFloat x).toInt?
  | _ => none

/-- Whether two values are the same key: numbers and truth values are compared as numbers, so
`1`, `1.0` and `true` are one key. -/
def sameKey (a b : Value) : Bool :=
  match a, b with
  | null, null => true
  | str s, str t => s == t
  | codes s, codes t => s == t
  | bytes s, bytes t => s == t
  | moment m, moment n => m.same n
  | float x, float y => x == y
  | pair a b, pair c d => sameKey a c && sameKey b d
  | a, b =>
    match a.keyNumber?, b.keyNumber? with
    | some m, some n => m == n
    | _, _ => false

/-- Whether a value can be a key: what holds other values cannot, but for a pair of keys. -/
def isKey : Value → Bool
  | list _ | set _ | map _ | marked _ _ | again _ => false
  | pair a b => isKey a && isKey b
  | _ => true

/-- Sets an entry: a key that is there already keeps its place and its first spelling. -/
def setEntry (k v : Value) : List (Value × Value) → List (Value × Value)
  | [] => [(k, v)]
  | e :: es => if e.1.sameKey k then (e.1, v) :: es else e :: setEntry k v es

/-- A map with the entries set one after the other. -/
def mapOf (entries : List (Value × Value)) : Value :=
  map (entries.foldl (fun es e => setEntry e.1 e.2 es) [])

/-- The value of a text key among the entries of a map. -/
def lookup? (key : String) : List (Value × Value) → Option Value
  | [] => none
  | (str k, v) :: es => if k == key then some v else lookup? key es
  | _ :: es => lookup? key es

end Value
end Bindery
