/-
  LENGTHS THAT ARE STATED, read off the lines that state them.

  A statement that is about a length names a slot and says how long it is, with something between the
  two and a bracket behind: `Reader.bounded` reads the name and the text of the length.  What the text
  comes to is a matter of the constants in scope (`lengthIn`), so a list of statements measures a list
  of slots (`measured`).
-/
import Bindery.Proofs.Source.Defined

namespace Bindery.Source

open Naming

/-! ## Lengths -/

/-- What a length comes to: a number is what its digits say, a constant what it is in scope. -/
def lengthIn (scope : List (String × Int)) (text : String) : Option Int :=
  if text.toList.all Char.isDigit then integerAt? text.toList else scope.lookup text

/-- A number without a sign is made of digits. -/
theorem isDigit_of_mem_natural {n : Nat} {c : Char} (hc : c ∈ (Decimal.integer n).toList) :
    c.isDigit = true := by
  rw [show Decimal.integer (n : Int) = String.ofList (Decimal.digitsOf n) from rfl,
    String.toList_ofList] at hc
  exact Nat.isDigit_of_mem_toDigits (by decide) (by decide) hc

theorem wordy_natural (n : Nat) : Wordy (Decimal.integer n).toList := by
  intro c hc
  rw [isIdentifierChar, Char.isAlphanum, isDigit_of_mem_natural hc, Bool.or_true, Bool.true_or]

theorem lengthIn_natural (scope : List (String × Int)) (n : Nat) :
    lengthIn scope (Decimal.integer n) = some (n : Int) := by
  have hdigits : (Decimal.integer (n : Int)).toList.all Char.isDigit = true :=
    List.all_eq_true.2 fun _ hc => isDigit_of_mem_natural hc
  unfold lengthIn
  rw [if_pos hdigits, ← List.append_nil (Decimal.integer (n : Int)).toList]
  exact integerAt?_append n Text.stops_nil

theorem lengthIn_constant (scope : List (String × Int)) {text : String} {c : Char}
    (hc : c ∈ text.toList) (h : c.isDigit = false) : lengthIn scope text = scope.lookup text := by
  have hall : ¬ text.toList.all Char.isDigit = true := by
    intro hall
    rw [List.all_eq_true.1 hall c hc] at h
    nomatch h
  exact if_neg hall

/-- Slots with what their lengths come to. -/
def resolved (scope : List (String × Int)) (xs : List (String × String)) :
    List (String × Option Int) := xs.map fun x => (x.1, lengthIn scope x.2)

theorem resolved_map {α : Type} {scope : List (String × Int)} {as : List α} {name text : α → String}
    {n : α → Int} (h : ∀ a ∈ as, lengthIn scope (text a) = some (n a)) :
    resolved scope (as.map fun a => (name a, text a)) = as.map fun a => (name a, some (n a)) := by
  unfold resolved
  rw [List.map_map]
  exact List.map_congr_left fun a ha => congrArg (Prod.mk _) (h a ha)

/-! ## Readers of stated lengths -/

/-- What stands behind the last blank. -/
def lastWord (s : List Char) : List Char := (s.reverse.takeWhile (· != ' ')).reverse

theorem lastWord_append {a b : List Char} (ha : ∀ c ∈ a.getLast?, c = ' ') (hb : ' ' ∉ b) :
    lastWord (a ++ b) = b := by
  have hsolid : ∀ c ∈ b.reverse, (c != ' ') = true := fun c hc =>
    bne_iff_ne.2 fun heq => hb (heq ▸ List.mem_reverse.1 hc)
  have hstops : Text.Stops (· != ' ') a.reverse := by
    intro c hc
    rw [List.head?_reverse] at hc
    rw [ha c hc]
    rfl
  unfold lastWord
  rw [List.reverse_append, Text.takeWhile_append_stops hsolid hstops, List.reverse_reverse]

namespace Reader

/-- The reader of statements with a name, `mid` behind it, and a length as the last word before
`stop`. -/
def bounded (head mid : String) (stop : Char) : Reader (String × String) :=
  ⟨head, fun s =>
    let rest := s.dropWhile isIdentifierChar
    if mid.toList <+: rest then
      some (String.ofList (s.takeWhile isIdentifierChar),
        String.ofList (lastWord ((rest.drop mid.toList.length).takeWhile (· != stop))))
    else none⟩

variable {head mid name text : String} {stop : Char}

theorem read?_bounded (before length rest : String)
    (htext : text = head ++ (name ++ (mid ++ (before ++ (length ++ rest)))))
    (hname : Wordy name.toList) (hmid : Text.Stops isIdentifierChar mid.toList)
    (hne : mid.toList ≠ []) (hbefore : ∀ c ∈ before.toList.getLast?, c = ' ')
    (hfree : stop ∉ before.toList ∧ stop ∉ length.toList) (hsolid : ' ' ∉ length.toList)
    (hrest : rest.toList.head? = some stop) :
    (bounded head mid stop).read? text.toList = some (name, length) := by
  have hbehind : Text.Stops isIdentifierChar
      (mid.toList ++ (before.toList ++ length.toList ++ rest.toList)) := by
    intro c hc
    rw [List.head?_append_of_ne_nil _ hne] at hc
    exact hmid c hc
  -- The last word is looked for in all that comes before the stop.
  have hall : ∀ c ∈ before.toList ++ length.toList, (c != stop) = true :=
    List.forall_mem_append.2 ⟨fun c hc => bne_iff_ne.2 fun heq => hfree.1 (heq ▸ hc),
      fun c hc => bne_iff_ne.2 fun heq => hfree.2 (heq ▸ hc)⟩
  have hstops : Text.Stops (· != stop) rest.toList := by
    intro c hc
    rw [hrest] at hc
    cases hc
    exact bne_self_eq_false stop
  have hlist : text.toList = (bounded head mid stop).head.toList ++ (name.toList ++
      (mid.toList ++ (before.toList ++ length.toList ++ rest.toList))) := by
    rw [htext]
    simp only [String.toList_append, List.append_assoc]
    rfl
  rw [hlist, read?_append]
  unfold bounded
  dsimp only
  rw [Text.dropWhile_append_stops hname hbehind, if_pos (List.prefix_append _ _), List.drop_left,
    Text.takeWhile_append_stops hall hstops, lastWord_append hbefore hsolid,
    Text.takeWhile_append_stops hname hbehind, String.ofList_toList, String.ofList_toList]

/-- A statement with the head that goes on differently behind the name. -/
theorem read?_bounded_other (other rest : String) (htext : text = head ++ (name ++ (other ++ rest)))
    (hname : Wordy name.toList) (hother : Text.Stops isIdentifierChar other.toList)
    (hne : other.toList ≠ []) (h : Apart mid other) :
    (bounded head mid stop).read? text.toList = none := by
  have hbehind : Text.Stops isIdentifierChar (other.toList ++ rest.toList) := by
    intro c hc
    rw [List.head?_append_of_ne_nil _ hne] at hc
    exact hother c hc
  have hlist : text.toList = (bounded head mid stop).head.toList ++ (name.toList ++
      (other.toList ++ rest.toList)) := by
    rw [htext]
    simp only [String.toList_append]
    rfl
  have hmid : ¬ mid.toList <+: other.toList ++ rest.toList := by
    rw [← String.toList_append]
    exact (h.append rest).1
  rw [hlist, read?_append]
  unfold bounded
  dsimp only
  rw [Text.dropWhile_append_stops hname hbehind, if_neg hmid]

/-! ## Lists of statements -/

/-- What the lines hold, line by line, however deep they stand. -/
def found {β : Type} (r : Reader β) (ls : List Line) : List β :=
  ls.filterMap fun l => r.read? l.text.toList

/-- The slots that the lines state a length of, each with what it comes to. -/
def measured (r : Reader (String × String)) (scope : List (String × Int)) (ls : List Line) :
    List (String × Option Int) := resolved scope (r.found ls)

variable {β : Type} {r : Reader β} {ls ms : List Line}

theorem found_append (ls ms : List Line) : r.found (ls ++ ms) = r.found ls ++ r.found ms :=
  List.filterMap_append

theorem found_indent (ls : List Line) : r.found (indent ls) = r.found ls := by
  unfold found indent
  rw [List.filterMap_map]
  rfl

theorem found_flatMap {α : Type} (xs : List α) (f : α → List Line) :
    r.found (xs.flatMap f) = xs.flatMap fun x => r.found (f x) := List.filterMap_flatMap

/-- `r.Ignores text` — the reader finds nothing in the text. -/
def Ignores (r : Reader β) (text : String) : Prop := r.read? text.toList = none

/-- `r.IgnoresAll ls` — it finds nothing in any of the lines. -/
def IgnoresAll (r : Reader β) (ls : List Line) : Prop := ∀ l ∈ ls, r.Ignores l.text

theorem Ignores.of_apart {text : String} (h : Apart r.head text) : r.Ignores text :=
  read?_eq_none h.1

/-- A text whose first word ends with another character than the head's. -/
theorem Ignores.of_word {word first : List Char} {c d : Char} {s t : List Char} {text : String}
    (hhead : r.head.toList = word ++ c :: s) (htext : text.toList = first ++ d :: t)
    (hword : Wordy word) (hfirst : Wordy first) (hc : isIdentifierChar c = false)
    (hd : isIdentifierChar d = false) (hne : c ≠ d) : r.Ignores text := by
  refine read?_eq_none fun hp => hne ?_
  obtain ⟨u, hu⟩ := hp
  rw [hhead, htext, List.append_assoc, List.cons_append] at hu
  have hout : ∀ {w : List Char}, Wordy w → ∀ e ∈ w, (!isIdentifierChar e) = false := fun hw e he => by
    rw [hw e he]
    rfl
  exact (Text.append_cons_inj_of_first (hout hword) (hout hfirst) (by rw [hc]; rfl)
    (by rw [hd]; rfl) hu).2.1

namespace IgnoresAll

theorem nil : r.IgnoresAll [] := fun _ h => (nomatch h)

theorem cons {l : Line} (hl : r.Ignores l.text) (hls : r.IgnoresAll ls) : r.IgnoresAll (l :: ls) :=
  List.forall_mem_cons.2 ⟨hl, hls⟩

theorem map {α : Type} {xs : List α} {text : α → String} (h : ∀ x ∈ xs, r.Ignores (text x)) :
    r.IgnoresAll (xs.map fun x => line (text x)) := List.forall_mem_map.2 h

theorem found (h : r.IgnoresAll ls) : r.found ls = [] := List.filterMap_eq_nil_iff.2 h

end IgnoresAll

end Reader

end Bindery.Source
