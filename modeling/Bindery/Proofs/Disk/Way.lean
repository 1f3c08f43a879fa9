/-
  THE WAY of a path: where it leads, whatever the tree.

  There are no links in a tree, so the place that a path leads to can be told from the path and the
  working directory alone (`placeOf`); the tree only decides whether the way is open.
  `locate_eq_ok` says when it is: the path fits, and every place that a further name is taken
  from is a directory.
-/
import Bindery.Disk.View

namespace Bindery

open Bindery.Tree

/-! ## Following names -/

/-- The place that one more name leads to. -/
def stepTo (here : Place) (name : String) : Place :=
  if name = upName then here.dropLast else here ++ [name]

/-- The place that names lead to. -/
def follow (here : Place) (names : List String) : Place := names.foldl stepTo here

theorem follow_nil (here : Place) : follow here [] = here := rfl

theorem follow_cons (here : Place) (name : String) (names : List String) :
    follow here (name :: names) = follow (stepTo here name) names := rfl

theorem follow_append (here : Place) (front back : List String) :
    follow here (front ++ back) = follow (follow here front) back := List.foldl_append

/-- Names that lead down only. -/
def Downward (names : List String) : Prop := ∀ name ∈ names, name ≠ upName

theorem follow_downward {names : List String} (h : Downward names) (here : Place) :
    follow here names = here ++ names := by
  induction names generalizing here with
  | nil => rw [follow_nil, List.append_nil]
  | cons name names ih =>
    obtain ⟨hname, hnames⟩ := List.forall_mem_cons.1 h
    rw [follow_cons, stepTo, if_neg hname, ih hnames, List.append_assoc]
    rfl

/-! ## Paths -/

/-- Where a path starts. -/
def Path.start (home : Place) (p : Path) : Place := if p.isAbsolute then [] else home

/-- The place that a path leads to. -/
def Path.placeOf (home : Place) (p : Path) : Place := follow (p.start home) p.names

/-- `p.Visits home q` — the path leads through the place or to it. -/
def Path.Visits (home : Place) (p : Path) (q : Place) : Prop :=
  ∃ front, front <+: p.names ∧ follow (p.start home) front = q

/-- A path that a disk can take: usable, and neither it nor one of its names is too long. -/
structure Path.Fits (p : Path) : Prop where
  usable : p.isUsable = true
  short : p.toString.utf8ByteSize ≤ maxPathBytes
  names : ∀ name ∈ p.names, name = upName ∨ name.utf8ByteSize ≤ maxNameBytes

theorem Path.visits_placeOf (home : Place) (p : Path) : p.Visits home (p.placeOf home) :=
  ⟨p.names, List.prefix_rfl, rfl⟩

/-- What a path leads through, it leads through when it goes on. -/
theorem Path.Visits.of_first {home : Place} {anchor : Anchor} {front names : List String}
    {q : Place} (hfirst : front <+: names) (h : Path.Visits home ⟨anchor, front⟩ q) :
    Path.Visits home ⟨anchor, names⟩ q := by
  obtain ⟨before, hbefore, hq⟩ := h
  exact ⟨before, hbefore.trans hfirst, hq⟩

/-! ## Finding the place -/

namespace Tree

/-- `t.Open here names` — a further name is only taken from directories. -/
def Open (t : Tree) (here : Place) (names : List String) : Prop :=
  ∀ front name, front ++ [name] <+: names → t.find? (follow here front) = some .directory

theorem open_nil (t : Tree) (here : Place) : t.Open here [] := by
  intro front name h
  have := List.prefix_nil.1 h
  simp at this

theorem open_cons {t : Tree} {here : Place} {name : String} {names : List String} :
    t.Open here (name :: names) ↔
      t.find? here = some .directory ∧ t.Open (stepTo here name) names := by
  constructor
  · intro h
    refine ⟨h [] name ⟨names, rfl⟩, fun front other hp => ?_⟩
    exact h (name :: front) other ((List.prefix_cons_inj name).2 hp)
  · rintro ⟨hdir, hopen⟩ front other hp
    cases front with
    | nil => exact hdir
    | cons first front =>
      rw [List.cons_append] at hp
      obtain ⟨rfl, htail⟩ := List.cons_prefix_cons.1 hp
      exact hopen front other htail

theorem step_eq_ok {here q : Place} {name : String} :
    step here name = .ok q ↔
      (name = upName ∨ name.utf8ByteSize ≤ maxNameBytes) ∧ q = stepTo here name := by
  unfold step stepTo
  by_cases hup : name = upName
  · rw [if_pos hup, if_pos hup, Except.ok.injEq, eq_comm]
    exact ⟨fun h => ⟨Or.inl hup, h⟩, fun h => h.2⟩
  · rw [if_neg hup, if_neg hup]
    by_cases hlong : maxNameBytes < name.utf8ByteSize
    · rw [if_pos hlong]
      refine ⟨fun h => (nomatch h), ?_⟩
      rintro ⟨h | h, _⟩
      · exact absurd h hup
      · omega
    · rw [if_neg hlong, Except.ok.injEq, eq_comm]
      exact ⟨fun h => ⟨Or.inr (by omega), h⟩, fun h => h.2⟩

theorem descend_eq_ok {t : Tree} {here q : Place} {names : List String} :
    t.descend here names = .ok q ↔
      (∀ name ∈ names, name = upName ∨ name.utf8ByteSize ≤ maxNameBytes) ∧
        t.Open here names ∧ q = follow here names := by
  induction names generalizing here with
  | nil =>
    rw [descend, Except.ok.injEq, follow_nil, eq_comm]
    exact ⟨fun h => ⟨fun _ h => (nomatch h), t.open_nil here, h⟩, fun h => h.2.2⟩
  | cons name names ih =>
    rw [descend, open_cons, follow_cons, List.forall_mem_cons]
    cases hfind : t.find? here with
    | none => exact ⟨fun h => (nomatch h), fun ⟨_, h, _⟩ => (nomatch h.1)⟩
    | some e =>
      cases e with
      | file text => exact ⟨fun h => (nomatch h), fun ⟨_, h, _⟩ => (nomatch h.1)⟩
      | directory =>
        cases hstep : step here name with
        | error e =>
          refine ⟨fun h => (nomatch h), ?_⟩
          rintro ⟨⟨hname, _⟩, _, _⟩
          rw [step_eq_ok.2 ⟨hname, rfl⟩] at hstep
          nomatch hstep
        | ok there =>
          obtain ⟨hname, rfl⟩ := step_eq_ok.1 hstep
          show t.descend (stepTo here name) names = .ok q ↔ _
          rw [ih]
          constructor
          · rintro ⟨hnames, hopen, hq⟩
            exact ⟨⟨hname, hnames⟩, ⟨rfl, hopen⟩, hq⟩
          · rintro ⟨⟨_, hnames⟩, ⟨_, hopen⟩, hq⟩
            exact ⟨hnames, hopen, hq⟩

/-- `t.Reaches home p` — the way of a path is open. -/
def Reaches (t : Tree) (home : Place) (p : Path) : Prop := t.Open (p.start home) p.names

/-- Which paths lead somewhere, and where. -/
theorem locate_eq_ok {t : Tree} {home q : Place} {p : Path} :
    t.locate home p = .ok q ↔ p.Fits ∧ t.Reaches home p ∧ q = p.placeOf home := by
  unfold locate
  by_cases husable : p.isUsable = true
  · rw [husable, if_neg (by decide)]
    by_cases hlong : maxPathBytes < p.toString.utf8ByteSize
    · rw [if_pos hlong]
      refine ⟨fun h => (nomatch h), fun h => ?_⟩
      have := h.1.short
      omega
    · rw [if_neg hlong, descend_eq_ok]
      constructor
      · rintro ⟨hnames, hopen, hq⟩
        exact ⟨⟨husable, by omega, hnames⟩, hopen, hq⟩
      · rintro ⟨hfits, hopen, hq⟩
        exact ⟨hfits.names, hopen, hq⟩
  · rw [if_pos (by simpa using husable)]
    exact ⟨fun h => (nomatch h), fun h => absurd h.1.usable husable⟩

theorem locate_eq_place {t : Tree} {home : Place} {p : Path} (hfits : p.Fits)
    (hopen : t.Reaches home p) : t.locate home p = .ok (p.placeOf home) :=
  locate_eq_ok.2 ⟨hfits, hopen, rfl⟩

/-- A way stays open where its directories stay. -/
theorem Reaches.mono {t t' : Tree} {home : Place} {p : Path} (h : t.Reaches home p)
    (hkeep : ∀ q, p.Visits home q → t.find? q = some .directory → t'.find? q = some .directory) :
    t'.Reaches home p := by
  intro front name hp
  refine hkeep _ ⟨front, ?_, rfl⟩ (h front name hp)
  exact (List.prefix_append front [name]).trans hp

/-- The way of a longer path leads over that of the shorter one. -/
theorem open_append {t : Tree} {here : Place} {front back : List String} :
    t.Open here (front ++ back) ↔ t.Open here front ∧ t.Open (follow here front) back := by
  induction front generalizing here with
  | nil => exact ⟨fun h => ⟨t.open_nil here, h⟩, fun h => h.2⟩
  | cons name front ih =>
    rw [List.cons_append, open_cons, ih, open_cons, follow_cons, and_assoc]

/-- `t.Stands home p` — the path leads through directories, and to one. -/
def Stands (t : Tree) (home : Place) (p : Path) : Prop :=
  ∀ q, p.Visits home q → t.find? q = some .directory

theorem stands_iff {t : Tree} {home : Place} {p : Path} :
    t.Stands home p ↔ t.Reaches home p ∧ t.find? (p.placeOf home) = some .directory := by
  constructor
  · intro h
    refine ⟨fun front name hp => h _ ⟨front, ?_, rfl⟩, h _ (p.visits_placeOf home)⟩
    exact (List.prefix_append front [name]).trans hp
  · rintro ⟨hopen, hdir⟩ q ⟨front, ⟨back, hback⟩, rfl⟩
    cases back with
    | nil =>
      rw [List.append_nil] at hback
      rw [hback]
      exact hdir
    | cons name back =>
      refine hopen front name ⟨back, ?_⟩
      rw [List.append_assoc]
      exact hback

theorem Stands.reaches {t : Tree} {home : Place} {p : Path} (h : t.Stands home p) :
    t.Reaches home p := (stands_iff.1 h).1

theorem Stands.place {t : Tree} {home : Place} {p : Path} (h : t.Stands home p) :
    t.find? (p.placeOf home) = some .directory := (stands_iff.1 h).2

/-- A path keeps leading to a directory where no directory on its way goes. -/
theorem Stands.mono {t t' : Tree} {home : Place} {p : Path} (h : t.Stands home p)
    (hkeep : ∀ q, p.Visits home q → t.find? q = some .directory → t'.find? q = some .directory) :
    t'.Stands home p := fun q hq => hkeep q hq (h q hq)

end Tree

end Bindery
