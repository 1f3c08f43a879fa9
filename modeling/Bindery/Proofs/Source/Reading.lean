/-
  DEFINITIONS AT ONE DEPTH, read off the lines of a body.

  What stands in no block of a file, and what stands one block deep in a class, are definitions of two
  kinds, though their lines may start alike.  `Reader.readAt` reads the lines of one depth, each by
  itself; a block has at one depth what its body has one block above (`readAt_block`).  A reader finds
  nothing in a line that starts otherwise than its head.
-/
import Bindery.Proofs.Source.Binding

namespace Bindery.Source

open Naming

@[simp] theorem textsAt_block (depth : Nat) (head : String) (body : List Line) :
    textsAt (depth + 1) (block head body) = textsAt depth body := by
  simp [block]

@[simp] theorem textsAt_block_zero (head : String) (body : List Line) :
    textsAt 0 (block head body) = [head ++ " " ++ opening, closing] := by
  simp [block]

namespace Reader

variable {β : Type} {r : Reader β} {depth : Nat} {ls : List Line}

instance [DecidableEq β] (text : String) : Decidable (r.Ignores text) :=
  inferInstanceAs (Decidable (_ = none))

/-! ## Texts one after another -/

/-- What the texts hold, each by itself. -/
def readAll (r : Reader β) (texts : List String) : List β :=
  texts.filterMap fun text => r.read? text.toList

section

variable {texts more : List String} {text start rest : String}

theorem readAll_append : r.readAll (texts ++ more) = r.readAll texts ++ r.readAll more :=
  List.filterMap_append

theorem readAll_singleton : r.readAll [text] = (r.read? text.toList).toList := by
  unfold readAll
  rw [List.filterMap_cons]
  cases r.read? text.toList <;> rfl

theorem readAll_cons : r.readAll (text :: texts) = (r.read? text.toList).toList ++ r.readAll texts := by
  rw [← List.singleton_append, readAll_append, readAll_singleton]

/-- Texts that hold nothing. -/
theorem readAll_eq_nil (h : ∀ text ∈ texts, r.Ignores text) : r.readAll texts = [] :=
  List.filterMap_eq_nil_iff.2 h

/-- Texts that hold one thing each. -/
theorem readAll_map {α : Type} {xs : List α} {text : α → String} {g : α → β}
    (h : ∀ x ∈ xs, r.read? (text x).toList = some (g x)) : r.readAll (xs.map text) = xs.map g := by
  unfold readAll
  rw [List.filterMap_map, ← List.filterMap_eq_map]
  exact List.filterMap_congr h

/-- A text that starts otherwise holds nothing. -/
theorem Ignores.of_start {starts : List String} (hstarts : ∀ start ∈ starts, Apart r.head start)
    (htext : text = start ++ rest) (h : start ∈ starts) : r.Ignores text := by
  rw [htext]
  exact .of_apart ((hstarts start h).append rest)

end

/-! ## Lines of one depth -/

/-- What the lines that stand in so many blocks hold. -/
def readAt (r : Reader β) (depth : Nat) (ls : List Line) : List β := r.readAll (textsAt depth ls)

theorem readAt_append (ls ms : List Line) :
    r.readAt depth (ls ++ ms) = r.readAt depth ls ++ r.readAt depth ms := by
  unfold readAt
  rw [textsAt_append, readAll_append]

theorem readAt_line (text : String) (ls : List Line) :
    r.readAt 0 (line text :: ls) = (r.read? text.toList).toList ++ r.readAt 0 ls := by
  unfold readAt
  rw [textsAt_line_zero, readAll_cons]

/-- What stands in a block is read one block deeper. -/
theorem readAt_block (head : String) (body : List Line) :
    r.readAt (depth + 1) (block head body) = r.readAt depth body := by
  unfold readAt
  rw [textsAt_block]

theorem readAt_flatMap {α : Type} (xs : List α) (f : α → List Line) :
    r.readAt depth (xs.flatMap f) = xs.flatMap fun x => r.readAt depth (f x) := by
  induction xs with
  | nil => rfl
  | cons x xs ih => rw [List.flatMap_cons, List.flatMap_cons, readAt_append, ih]

/-- Lines that hold one thing each. -/
theorem readAt_map_line {α : Type} {xs : List α} {text : α → String} {g : α → β}
    (h : ∀ x ∈ xs, r.read? (text x).toList = some (g x)) :
    r.readAt 0 (xs.map fun x => line (text x)) = xs.map g := by
  unfold readAt
  rw [textsAt_map_line, readAll_map h]

/-- Lines that hold nothing. -/
theorem readAt_eq_nil (h : ∀ text ∈ textsAt depth ls, r.Ignores text) : r.readAt depth ls = [] :=
  readAll_eq_nil h

/-! ## Bodies -/

/-- What the lines that stand in blocks hold, however deep. -/
def readWithin (r : Reader β) (ls : List Line) : List β := r.readAll (textsWithin ls)

/-- A text with the head is read behind it. -/
theorem read?_behind {r : Reader β} {rest text : String} (htext : text = r.head ++ rest) :
    r.read? text.toList = r.behind rest.toList := by
  rw [htext, String.toList_append, read?_append]

/-! ## Statements -/

/-- What a statement with such a head has up to the semicolon at its end. -/
def statement (head : String) : Reader String := ⟨head, fun s => some (String.ofList s.dropLast)⟩

theorem read?_statement {head rest text : String} (htext : text = head ++ (rest ++ ";")) :
    (statement head).read? text.toList = some rest := by
  have hlast : (rest ++ ";").toList = rest.toList ++ [';'] := String.toList_append
  rw [read?_behind (r := statement head) htext, hlast]
  show some (String.ofList (rest.toList ++ [';']).dropLast) = _
  rw [List.dropLast_concat, String.ofList_toList]

/-! ## Names with a number -/

variable {head mid name rest text : String}

/-- What is read behind a name is the number in front of the rest, if there is one. -/
theorem read?_numbered_append (htext : text = head ++ (name ++ (mid ++ rest)))
    (hname : Wordy name.toList) (hmid : Text.Stops isIdentifierChar mid.toList) (hne : mid.toList ≠ []) :
    (numbered head mid).read? text.toList = (integerAt? rest.toList).map fun n => (name, n) := by
  have hbehind : Text.Stops isIdentifierChar (mid.toList ++ rest.toList) := by
    intro c hc
    rw [List.head?_append_of_ne_nil _ hne] at hc
    exact hmid c hc
  have hlist : text.toList = (numbered head mid).head.toList ++ (name.toList ++
      (mid.toList ++ rest.toList)) := by
    rw [htext]
    simp only [String.toList_append]
    rfl
  rw [hlist, read?_append]
  unfold numbered
  dsimp only
  rw [Text.dropWhile_append_stops hname hbehind, if_pos (List.prefix_append _ _), List.drop_left,
    Text.takeWhile_append_stops hname hbehind, String.ofList_toList]

theorem read?_numbered {n : Int} (rest : String)
    (htext : text = head ++ (name ++ (mid ++ (Decimal.integer n ++ rest)))) (hname : Wordy name.toList)
    (hmid : Text.Stops isIdentifierChar mid.toList) (hne : mid.toList ≠ [])
    (hrest : Text.Stops Char.isDigit rest.toList) :
    (numbered head mid).read? text.toList = some (name, n) := by
  rw [read?_numbered_append htext hname hmid hne, String.toList_append, integerAt?_append n hrest]
  rfl

end Reader

end Bindery.Source
