/-
  DECLARATIONS: what the lines of a file declare.

  Each kind of declaration has a head of its own, text with which its line starts and behind which
  its name goes up to a parenthesis.  `declared head` reads the names off the lines that stand in
  no block.  Lines that start with another character than the head declare nothing of the kind
  (`declared_eq_nil`), so to know what a file declares is to know where its heads are written.
-/
import Mathlib.Data.List.Basic
import Bindery.Source.Line

namespace Bindery.Source

/-- The name that a line declares behind the head. -/
def declaredBy? (head : String) (l : Line) : Option String :=
  if l.depth = 0 ∧ head.toList <+: l.text.toList then
    some (String.ofList ((l.text.toList.drop head.toList.length).takeWhile (· != '(')))
  else none

/-- The names that lines declare behind the head, in order. -/
def declared (head : String) (ls : List Line) : List String := ls.filterMap (declaredBy? head)

theorem declared_append (head : String) (ls ms : List Line) :
    declared head (ls ++ ms) = declared head ls ++ declared head ms := List.filterMap_append

theorem declared_cons (head : String) (l : Line) (ls : List Line) :
    declared head (l :: ls) = (declaredBy? head l).toList ++ declared head ls := by
  unfold declared
  rw [List.filterMap_cons]
  cases declaredBy? head l <;> rfl

theorem declared_flatMap {α : Type} (head : String) (xs : List α) (f : α → List Line) :
    declared head (xs.flatMap f) = xs.flatMap fun x => declared head (f x) := by
  induction xs with
  | nil => rfl
  | cons x xs ih => rw [List.flatMap_cons, declared_append, ih, List.flatMap_cons]

/-- Pieces that declare one name each. -/
theorem declared_flatMap_single {α : Type} {head : String} {xs : List α} {f : α → List Line}
    {name : α → String} (h : ∀ x ∈ xs, declared head (f x) = [name x]) :
    declared head (xs.flatMap f) = xs.map name := by
  rw [declared_flatMap, List.map_eq_flatMap]
  exact List.flatMap_congr h

/-! ## Lines that declare something -/

theorem takeWhile_ne_append {s t : List Char} (h : '(' ∉ s) :
    (s ++ '(' :: t).takeWhile (· != '(') = s := by
  induction s with
  | nil => rfl
  | cons c s ih =>
    obtain ⟨hc, hs⟩ := not_or.1 (fun hm => h (List.mem_cons.2 hm))
    rw [List.cons_append, List.takeWhile_cons, if_pos (bne_iff_ne.2 fun e => hc e.symm), ih hs]

theorem declaredBy?_line {head name text : String} (rest : List Char)
    (ht : text.toList = head.toList ++ (name.toList ++ '(' :: rest)) (h : '(' ∉ name.toList) :
    declaredBy? head (line text) = some name := by
  unfold declaredBy?
  have hp : head.toList <+: (line text).text.toList := by
    show head.toList <+: text.toList
    rw [ht]
    exact List.prefix_append _ _
  rw [if_pos ⟨rfl, hp⟩]
  show some (String.ofList ((text.toList.drop head.toList.length).takeWhile (· != '('))) = some name
  rw [ht, List.drop_left, takeWhile_ne_append h, String.ofList_toList]

/-! ## Lines that declare nothing -/

/-- `Quiet c l` — the line stands in a block or starts with another character. -/
def Quiet (c : Char) (l : Line) : Prop := l.depth = 0 → l.text.toList.head? ≠ some c

theorem declaredBy?_eq_none {head : String} {c : Char} {l : Line}
    (hc : head.toList.head? = some c) (h : Quiet c l) : declaredBy? head l = none := by
  unfold declaredBy?
  rw [if_neg]
  rintro ⟨hd, hp⟩
  refine h hd ?_
  cases hh : head.toList with
  | nil =>
    rw [hh] at hc
    nomatch hc
  | cons d s =>
    rw [hh] at hc hp
    cases hc
    obtain ⟨t, ht⟩ := hp
    rw [← ht]
    rfl

/-- `AllQuiet c ls` — none of the lines starts with the character outside of blocks. -/
def AllQuiet (c : Char) (ls : List Line) : Prop := ∀ l ∈ ls, Quiet c l

namespace AllQuiet

variable {c d : Char}

theorem nil : AllQuiet c [] := fun _ h => nomatch h

theorem append {ls ms : List Line} (hl : AllQuiet c ls) (hm : AllQuiet c ms) :
    AllQuiet c (ls ++ ms) := List.forall_mem_append.2 ⟨hl, hm⟩

theorem cons {l : Line} {ls : List Line} (hl : Quiet c l) (hls : AllQuiet c ls) :
    AllQuiet c (l :: ls) := List.forall_mem_cons.2 ⟨hl, hls⟩

theorem indent (ls : List Line) : AllQuiet c (indent ls) := by
  intro l hl hd
  obtain ⟨m, _, rfl⟩ := List.mem_map.1 hl
  nomatch hd

end AllQuiet

/-- A line whose text starts with another character. -/
theorem quiet_line {c : Char} (d : Char) {text : String} (h : text.toList.head? = some d)
    (hne : d ≠ c) : Quiet c (line text) := by
  intro _ hc
  have hcd : some d = some c := h.symm.trans hc
  exact hne (Option.some.inj hcd)

theorem quiet_gap {c : Char} : Quiet c gap := fun _ h => nomatch h

/-- Lines with texts that start with other characters, or are empty. -/
theorem quiet_lines {c : Char} {texts : List String}
    (h : ∀ t ∈ texts, t.toList.head? ≠ some c) : AllQuiet c (lines texts) := by
  intro l hl _
  obtain ⟨t, ht, rfl⟩ := List.mem_map.1 hl
  exact h t ht

theorem quiet_block {c : Char} (d : Char) {head : String} {body : List Line}
    (h : head.toList.head? = some d) (hne : d ≠ c) (hc : c ≠ '\x7d') :
    AllQuiet c (block head body) := by
  refine AllQuiet.append (AllQuiet.cons ?_ (AllQuiet.indent body)) (AllQuiet.cons ?_ AllQuiet.nil)
  · refine quiet_line d ?_ hne
    rw [String.toList_append, String.toList_append, List.append_assoc, List.head?_append, h]
    rfl
  · exact quiet_line '\x7d' rfl hc.symm

theorem declared_eq_nil {head : String} (c : Char) {ls : List Line}
    (hc : head.toList.head? = some c) (h : AllQuiet c ls) : declared head ls = [] :=
  List.filterMap_eq_nil_iff.2 fun l hl => declaredBy?_eq_none hc (h l hl)

/-- A function behind a line of its own: of its lines only the second stands out. -/
theorem declared_function {head name : String} (c : Char) {top l mid : Line}
    {parameters body : List Line} (hc : head.toList.head? = some c) (ht : Quiet c top)
    (hl : declaredBy? head l = some name) (hm : Quiet c mid) (hclose : c ≠ '\x7d') :
    declared head (top :: l :: indent parameters ++ mid :: indent body ++ [line closing, gap]) =
      [name] := by
  have hfoot : AllQuiet c [line closing, gap] :=
    .cons (quiet_line '\x7d' rfl hclose.symm) (.cons quiet_gap .nil)
  rw [declared_append, declared_append, declared_eq_nil c hc hfoot,
    declared_eq_nil c hc (.cons hm (.indent body)), List.append_nil, List.append_nil,
    declared_cons, declared_cons, hl,
    declaredBy?_eq_none hc ht, declared_eq_nil c hc (.indent parameters)]
  rfl

end Bindery.Source
