/-
  BELOW A DIRECTORY: paths that go on behind a path, downward only.

  Everything that a delivery touches is written as the output path with names behind it.  Where the
  output path leads to a directory, such a path leads to the names below that directory
  (`placeOf_below`), and its way is open where the directories between the two are there
  (`reaches_below`).
-/
import Bindery.Proofs.Disk.Way

namespace Bindery

open Bindery.Tree

/-! ## Names -/

/-- The name of one thing in a directory: not empty, no dots that mean another directory, no slash
and no NUL. -/
structure IsComponent (name : String) : Prop where
  nonempty : name ≠ ""
  notHere : name ≠ "."
  notUp : name ≠ upName
  noSlash : '/' ∉ name.toList
  noNul : '\x00' ∉ name.toList

instance (name : String) : Decidable (IsComponent name) :=
  decidable_of_iff (name ≠ "" ∧ name ≠ "." ∧ name ≠ upName ∧ '/' ∉ name.toList ∧
    '\x00' ∉ name.toList)
    ⟨fun ⟨h1, h2, h3, h4, h5⟩ => ⟨h1, h2, h3, h4, h5⟩,
      fun ⟨h1, h2, h3, h4, h5⟩ => ⟨h1, h2, h3, h4, h5⟩⟩

theorem splitOn_of_not_mem {c : Char} {s : List Char} (h : c ∉ s) : Text.splitOn c s = [s] := by
  unfold Text.splitOn
  induction s with
  | nil => rfl
  | cons d s ih =>
    obtain ⟨hd, hs⟩ : c ≠ d ∧ c ∉ s := not_or.1 fun hc => h (List.mem_cons.2 hc)
    have hd' : (d == c) = false := beq_false_of_ne (Ne.symm hd)
    rw [Text.splitWhere, hd', if_neg (by decide), ih hs]

theorem isName_toList {name : String} (h1 : name ≠ "") (h2 : name ≠ ".") :
    Path.isName name.toList = true := by
  have h1' : name.toList ≠ [] := fun h => h1 (String.toList_eq_nil_iff.1 h)
  have h2' : name.toList ≠ ['.'] := fun h => h2 (String.toList_injective h)
  simp [Path.isName, h1', h2']

theorem anchorOf_of_head {s : List Char} (h : s.head? ≠ some '/') : Path.anchorOf s = .here := by
  cases s with
  | nil => rfl
  | cons c s =>
    have hc : (c == '/') = false := beq_false_of_ne fun hc => h (by rw [hc]; rfl)
    simp [Path.anchorOf, hc]

/-- No piece has the character that it was cut at. -/
theorem not_mem_of_mem_splitOn {c : Char} {s piece : List Char} (h : piece ∈ Text.splitOn c s) :
    c ∉ piece := by
  unfold Text.splitOn at h
  induction s generalizing piece with
  | nil =>
    rw [List.mem_singleton.1 h]
    exact List.not_mem_nil
  | cons d s ih =>
    rw [Text.splitWhere] at h
    split at h
    · rcases List.mem_cons.1 h with rfl | h
      · exact List.not_mem_nil
      · exact ih h
    · rename_i hd
      have hcd : c ≠ d := fun hcd => hd (by rw [hcd, beq_self_eq_true])
      split at h
      · rw [List.mem_singleton.1 h, List.mem_singleton]
        exact hcd
      · rename_i w ws hpieces
        rw [hpieces] at ih
        rcases List.mem_cons.1 h with rfl | h
        · rw [List.mem_cons, not_or]
          exact ⟨hcd, ih List.mem_cons_self⟩
        · exact ih (List.mem_cons_of_mem _ h)

/-- The path of a name is that name. -/
theorem Path.ofString_name {name : String} (h1 : name ≠ "") (h2 : name ≠ ".")
    (h3 : '/' ∉ name.toList) : Path.ofString name = ⟨.here, [name]⟩ := by
  have hanchor : Path.anchorOf name.toList = .here := by
    refine anchorOf_of_head fun hhead => h3 ?_
    exact List.mem_of_mem_head? (by rw [hhead]; exact rfl)
  rw [Path.ofString, hanchor, splitOn_of_not_mem h3]
  simp [isName_toList h1 h2]

/-- So is that of a name in a path. -/
theorem Path.ofString_of_mem {s name : String} (h : name ∈ (Path.ofString s).names) :
    Path.ofString name = ⟨.here, [name]⟩ := by
  obtain ⟨piece, hpiece, rfl⟩ := List.mem_map.1 h
  obtain ⟨hmem, hname⟩ := List.mem_filter.1 hpiece
  refine Path.ofString_name ?_ ?_ ?_
  · intro hempty
    rw [String.ofList_eq_empty_iff.1 hempty] at hname
    nomatch hname
  · intro hdot
    have hlist := congrArg String.toList hdot
    rw [String.toList_ofList] at hlist
    rw [hlist] at hname
    revert hname
    decide
  · rw [String.toList_ofList]
    exact not_mem_of_mem_splitOn hmem

theorem IsComponent.ofString {name : String} (h : IsComponent name) :
    Path.ofString name = ⟨.here, [name]⟩ := Path.ofString_name h.nonempty h.notHere h.noSlash

theorem IsComponent.downward {name : String} (h : IsComponent name) : Downward [name] := by
  intro n hn
  rw [List.mem_singleton.1 hn]
  exact h.notUp

theorem Downward.shorten {front names : List String} (h : Downward names) (hp : front <+: names) :
    Downward front := fun name hn => h name (hp.subset hn)

/-! ## Paths -/

/-- A path with further names. -/
def Path.below (p : Path) (names : List String) : Path := ⟨p.anchor, p.names ++ names⟩

namespace Path

variable {home : Place} {p : Path} {names more : List String}

theorem below_below : (p.below names).below more = p.below (names ++ more) := by
  rw [below, below, below, List.append_assoc]

theorem parent_below (h : names ≠ []) : (p.below names).parent = p.below names.dropLast := by
  rw [below, parent, List.dropLast_append_of_ne_nil h]
  rfl

theorem child_eq_below {s : String} (h : (ofString s).isAbsolute = false) :
    p.child s = p.below (ofString s).names := by
  rw [child, join, h, if_neg (by decide)]
  rfl

theorem child_component {name : String} (h : IsComponent name) : p.child name = p.below [name] := by
  rw [child_eq_below (by rw [h.ofString]; rfl), h.ofString]

theorem placeOf_below (h : Downward names) :
    (p.below names).placeOf home = p.placeOf home ++ names := by
  show follow (p.start home) (p.names ++ names) = _
  rw [follow_append, follow_downward h]
  rfl

theorem visits_below (h : Downward names) {q : Place} :
    (p.below names).Visits home q ↔
      p.Visits home q ∨ ∃ front, front <+: names ∧ q = p.placeOf home ++ front := by
  constructor
  · rintro ⟨front, hfront, rfl⟩
    rcases List.prefix_or_prefix_of_prefix hfront (List.prefix_append _ _) with hp | ⟨rest, rfl⟩
    · exact Or.inl ⟨front, hp, rfl⟩
    · have hrest : rest <+: names := (List.prefix_append_right_inj _).1 hfront
      refine Or.inr ⟨rest, hrest, ?_⟩
      show follow (p.start home) (p.names ++ rest) = _
      rw [follow_append, follow_downward (h.shorten hrest)]
      rfl
  · rintro (⟨front, hfront, rfl⟩ | ⟨front, hfront, rfl⟩)
    · exact ⟨front, hfront.trans (List.prefix_append _ _), rfl⟩
    · refine ⟨p.names ++ front, (List.prefix_append_right_inj _).2 hfront, ?_⟩
      show follow (p.start home) (p.names ++ front) = _
      rw [follow_append, follow_downward (h.shorten hfront)]
      rfl

theorem isUsable_below :
    (p.below names).isUsable = true ↔
      p.isUsable = true ∧ ∀ name ∈ names, '\x00' ∉ name.toList := by
  simp [isUsable, below, List.all_append]

theorem isNamed_below (h : Downward names) (hne : names ≠ []) :
    isNamed (p.below names) = true := by
  obtain ⟨front, last, rfl⟩ := (List.eq_nil_or_concat names).resolve_left hne
  rw [List.concat_eq_append] at h ⊢
  have hlast : last ≠ upName := h last (List.mem_append_right _ (List.mem_singleton_self _))
  simp [isNamed, below, ← List.append_assoc, hlast]

end Path

/-! ## Open ways -/

namespace Tree

variable {t : Tree} {home : Place} {p : Path} {names : List String}

/-- Behind a path to a directory a way is open where the directories between are there. -/
theorem reaches_below (h : t.Stands home p) (hn : Downward names) :
    t.Reaches home (p.below names) ↔
      ∀ front, front <+: names → front ≠ names →
        t.find? (p.placeOf home ++ front) = some .directory := by
  show t.Open (p.start home) (p.names ++ names) ↔ _
  rw [open_append]
  constructor
  · rintro ⟨_, hopen⟩ front ⟨back, rfl⟩ hne
    cases back with
    | nil => exact absurd (List.append_nil front).symm hne
    | cons name back =>
      have := hopen front name ⟨back, by rw [List.append_assoc]; rfl⟩
      rwa [follow_downward (hn.shorten (List.prefix_append _ _))] at this
  · intro hdirs
    refine ⟨h.reaches, fun front name hp => ?_⟩
    have hfront := (List.prefix_append front [name]).trans hp
    rw [follow_downward (hn.shorten hfront)]
    refine hdirs front hfront fun heq => ?_
    have := hp.length_le
    rw [heq, List.length_append, List.length_singleton] at this
    omega

/-- One name behind a path to a directory can always be looked for. -/
theorem reaches_below_one (h : t.Stands home p) {name : String} (hn : name ≠ upName) :
    t.Reaches home (p.below [name]) := by
  have hdown : Downward [name] := fun n h => by rw [List.mem_singleton.1 h]; exact hn
  refine (reaches_below h hdown).2 fun front hp hne => ?_
  rcases List.prefix_cons_iff.1 hp with rfl | ⟨rest, rfl, hrest⟩
  · rw [List.append_nil]
    exact h.place
  · rw [List.prefix_nil.1 hrest] at hne
    exact absurd rfl hne

end Tree

end Bindery
