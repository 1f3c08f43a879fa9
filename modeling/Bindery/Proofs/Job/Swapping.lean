/-
  SWAPPING directories, one after the other.

  At every point of a swap the tree can be told from the tree before it, the tree that was staged
  and the two lists of what has been done (`Swapping`): a directory that was taken away is in the
  scratch directory with all below it, one that was placed is what was staged, and everything else
  is as it was.  Each of the two steps keeps this whether it succeeds or fails
  (`steps_takeAway`, `steps_putInPlace`); so a swap that stops anywhere leaves a tree that is known.
-/
import Bindery.Proofs.Job.Staging

namespace Bindery.Delivery

open Bindery.Tree

/-! ## Sites -/

/-- Where a swap is made. -/
structure Site where
  home : Place
  /-- The output directory. -/
  output : Path
  /-- The name of the scratch directory in it. -/
  scratch : String
  /-- The directories to be swapped. -/
  dirs : List String
  /-- The tree before there was a scratch directory. -/
  base : Tree
  /-- The tree with all files staged. -/
  staged : Tree

/-- The name of the directory that what is replaced goes to. -/
def oldName : String := "old"

namespace Site

/-- The place that names below the output directory lead to. -/
def place (s : Site) (names : List String) : Place := s.output.placeOf s.home ++ names

/-- Where the swap takes from and puts to. -/
def places (s : Site) : Places where
  output := s.output
  old := s.output.below [s.scratch, oldName]
  new := s.output.below [s.scratch, newName]

/-- A site where a swap may be made. -/
structure Ready (s : Site) : Prop where
  usable : s.output.isUsable = true
  stands : s.base.Stands s.home s.output
  closed : s.base.Closed
  free : s.base.find? (s.place [s.scratch]) = none
  scratch : IsComponent s.scratch
  component : ∀ d ∈ s.dirs, IsComponent d
  avoids : ∀ d ∈ s.dirs, s.output.Avoids s.home (s.place [d])
  staged : ∃ files : List Source.File, (∀ f ∈ files, f.Proper) ∧
    Staged s.staged (s.place [s.scratch, newName]) files

variable {s : Site} {front back : List String}

theorem place_append : s.place front ++ back = s.place (front ++ back) := List.append_assoc _ _ _

theorem place_prefix : s.place front <+: s.place back ↔ front <+: back :=
  List.prefix_append_right_inj _

theorem Ready.placeOf_below (_ : s.Ready) (h : Downward front) :
    (s.output.below front).placeOf s.home = s.place front := Path.placeOf_below h

/-- What is staged for a directory is a directory. -/
theorem Ready.shallow (hs : s.Ready) (name text : String) :
    s.staged.find? (s.place [s.scratch, newName, name]) ≠ some (.file text) := by
  obtain ⟨files, hproper, hstaged⟩ := hs.staged
  have h := hstaged.shallow hproper name text
  rw [place_append] at h
  exact h

end Site

/-! ## What a swap has done -/

/-- `Swapping s done t` — the tree, after the steps of a swap that are noted in `done`. -/
structure Swapping (s : Site) (done : Swapped) (t : Tree) : Prop where
  scratch : t.find? (s.place [s.scratch]) = some .directory
  old : t.find? (s.place [s.scratch, oldName]) = some .directory
  /-- All else is as it was. -/
  off : ∀ q, ¬s.place [s.scratch] <+: q →
    (∀ n ∈ done.taken ++ done.placed, ¬s.place [n] <+: q) → t.find? q = s.base.find? q
  member : ∀ n ∈ done.taken ++ done.placed,
    n ∈ s.dirs ∧ n ≠ s.scratch ∧ (s.output.below [n]).Fits
  /-- What was taken away was there and is in the scratch directory now. -/
  taken : ∀ n ∈ done.taken, s.base.find? (s.place [n]) ≠ none ∧
    (s.output.below [s.scratch, oldName, n]).Fits ∧
    ∀ r, t.find? (s.place ([s.scratch, oldName, n] ++ r)) = s.base.find? (s.place ([n] ++ r))
  /-- Where it was taken from and nothing is placed yet, nothing is. -/
  gone : ∀ n ∈ done.taken, n ∉ done.placed → ∀ r, t.find? (s.place ([n] ++ r)) = none
  /-- What was placed is what was staged, or an empty directory. -/
  placed : ∀ n ∈ done.placed, ∀ r, t.find? (s.place ([n] ++ r)) =
    if r = [] then some .directory else s.staged.find? (s.place ([s.scratch, newName, n] ++ r))
  /-- What was placed without taking something away stands where nothing was. -/
  fresh : ∀ n ∈ done.placed, n ∉ done.taken → s.base.find? (s.place [n]) = none
  nodupTaken : done.taken.Nodup
  nodupPlaced : done.placed.Nodup

/-- `Ahead s done t` — what the steps that are still to come will find. -/
structure Ahead (s : Site) (done : Swapped) (t : Tree) : Prop where
  /-- What has not been placed yet is staged as it was. -/
  staged : ∀ n ∉ done.placed, ∀ r, t.find? (s.place ([s.scratch, newName, n] ++ r)) =
    s.staged.find? (s.place ([s.scratch, newName, n] ++ r))
  new : t.find? (s.place [s.scratch, newName]) = s.staged.find? (s.place [s.scratch, newName]) ∨
    t.find? (s.place [s.scratch, newName]) = some .directory
  /-- Nothing is in the way of what has not been taken away yet. -/
  vacant : ∀ n ∉ done.taken, t.find? (s.place [s.scratch, oldName, n]) = none

variable {s : Site} {done : Swapped} {t t' : Tree} {n : String}

theorem not_place_first {n m : String} (h : m ≠ n) (r : List String) :
    ¬s.place [m] <+: s.place ([n] ++ r) := by
  rw [Site.place_prefix, List.singleton_append, List.cons_prefix_cons]
  exact fun hp => h hp.1

namespace Swapping

/-- The output directory is still where it was. -/
theorem stands (h : Swapping s done t) (hs : s.Ready) : t.Stands s.home s.output := by
  refine hs.stands.mono fun q hq hdir => ?_
  rw [h.off q (hs.closed.avoids hs.stands hs.free q hq)]
  · exact hdir
  · exact fun n hn => hs.avoids n (h.member n hn).1 q hq

/-- A directory that has not been touched is as it was. -/
theorem untouched (h : Swapping s done t) (hn : n ∉ done.taken ++ done.placed)
    (hscratch : n ≠ s.scratch) (r : List String) :
    t.find? (s.place ([n] ++ r)) = s.base.find? (s.place ([n] ++ r)) := by
  refine h.off _ ?_ fun m hm => ?_
  · exact not_place_first hscratch.symm r
  · exact not_place_first (fun hmn : m = n => hn (hmn ▸ hm)) r

/-- What happens to the staged files does not matter. -/
theorem sameOff (h : Swapping s done t)
    (hsame : t.SameOff (s.place [s.scratch, newName]) t') : Swapping s done t' := by
  have hout : ∀ m ∈ done.taken ++ done.placed, ∀ r,
      t'.find? (s.place ([m] ++ r)) = t.find? (s.place ([m] ++ r)) := by
    intro m hm r
    refine hsame _ ?_
    rw [Site.place_prefix, List.singleton_append, List.cons_prefix_cons]
    exact fun hp => (h.member m hm).2.1 hp.1.symm
  refine
    { scratch := ?_, old := ?_, off := ?_, member := h.member, taken := ?_, gone := ?_, placed := ?_,
      fresh := h.fresh, nodupTaken := h.nodupTaken, nodupPlaced := h.nodupPlaced }
  · rw [hsame _ (by rw [Site.place_prefix]; simp)]
    exact h.scratch
  · rw [hsame _ (by rw [Site.place_prefix]; simp [newName, oldName])]
    exact h.old
  · intro q hq hrest
    rw [hsame q fun hp => hq ((Site.place_prefix.2 ⟨[newName], rfl⟩).trans hp)]
    exact h.off q hq hrest
  · intro m hm
    obtain ⟨hthere, hfits, hview⟩ := h.taken m hm
    refine ⟨hthere, hfits, fun r => ?_⟩
    rw [hsame _ (by rw [Site.place_prefix]; simp [newName, oldName])]
    exact hview r
  · intro m hm hplaced r
    rw [hout m (List.mem_append_left _ hm)]
    exact h.gone m hm hplaced r
  · intro m hm r
    rw [hout m (List.mem_append_right _ hm)]
    exact h.placed m hm r

end Swapping

/-! ## Names at a site -/

theorem prefix_three {a b c : String} {front : List String} (h : front <+: [a, b, c]) :
    front = [] ∨ front = [a] ∨ front = [a, b] ∨ front = [a, b, c] := by
  rcases List.prefix_cons_iff.1 h with rfl | ⟨second, rfl, hsecond⟩
  · exact Or.inl rfl
  rcases List.prefix_cons_iff.1 hsecond with rfl | ⟨third, rfl, hthird⟩
  · exact Or.inr (Or.inl rfl)
  rcases List.prefix_cons_iff.1 hthird with rfl | ⟨rest, rfl, hrest⟩
  · exact Or.inr (Or.inr (Or.inl rfl))
  · rw [List.prefix_nil.1 hrest]
    exact Or.inr (Or.inr (Or.inr rfl))

namespace Site.Ready

variable (hs : s.Ready)
include hs

theorem downward (hn : n ∈ s.dirs) : Downward [n] := (hs.component n hn).downward

theorem downward_scratch {name : String} (hname : name ≠ upName) (hn : n ∈ s.dirs) :
    Downward [s.scratch, name, n] := by
  intro m hm
  rcases List.mem_cons.1 hm with rfl | hm
  · exact hs.scratch.notUp
  · rcases List.mem_cons.1 hm with rfl | hm
    · exact hname
    · exact hs.downward hn m hm

theorem child_output (hn : n ∈ s.dirs) : s.places.output.child n = s.output.below [n] :=
  Path.child_component (hs.component n hn)

theorem child_old (hn : n ∈ s.dirs) :
    s.places.old.child n = s.output.below [s.scratch, oldName, n] := by
  rw [Path.child_component (hs.component n hn)]
  exact Path.below_below

theorem child_new (hn : n ∈ s.dirs) :
    s.places.new.child n = s.output.below [s.scratch, newName, n] := by
  rw [Path.child_component (hs.component n hn)]
  exact Path.below_below

theorem usable_below (hn : n ∈ s.dirs) : (s.output.below [n]).isUsable = true := by
  refine Path.isUsable_below.2 ⟨hs.usable, fun m hm => ?_⟩
  rw [List.mem_singleton.1 hm]
  exact (hs.component n hn).noNul

theorem usable_scratch {name : String} (hname : '\x00' ∉ name.toList) (hn : n ∈ s.dirs) :
    (s.output.below [s.scratch, name, n]).isUsable = true := by
  refine Path.isUsable_below.2 ⟨hs.usable, fun m hm => ?_⟩
  rcases List.mem_cons.1 hm with rfl | hm
  · exact hs.scratch.noNul
  · rcases List.mem_cons.1 hm with rfl | hm
    · exact hname
    · rw [List.mem_singleton.1 hm]
      exact (hs.component n hn).noNul

/-- The way into a directory of the scratch directory. -/
theorem reaches_scratch {name : String} (hname : name ≠ upName) (hn : n ∈ s.dirs)
    (hstands : t.Stands s.home s.output)
    (hscratch : t.find? (s.place [s.scratch]) = some .directory)
    (hdir : t.find? (s.place [s.scratch, name]) = some .directory) :
    t.Reaches s.home (s.output.below [s.scratch, name, n]) := by
  refine (reaches_below hstands (hs.downward_scratch hname hn)).2 fun front hfront hne => ?_
  rcases prefix_three hfront with rfl | rfl | rfl | rfl
  · rw [List.append_nil]
    exact hstands.place
  · exact hscratch
  · exact hdir
  · exact absurd rfl hne

end Site.Ready

/-! ## Taking away -/

/-- `Cleared s n done t` — the way is clear for the directory `n`. -/
structure Cleared (s : Site) (n : String) (done : Swapped) (t : Tree) : Prop where
  swapping : Swapping s done t
  ahead : Ahead s done t
  notScratch : n ≠ s.scratch
  nothing : ∀ r, t.find? (s.place ([n] ++ r)) = none
  fresh : n ∉ done.taken → s.base.find? (s.place [n]) = none

/-- `Beside s name n t t'` — the trees are the same but for the directory `n` and the directory of
this name that is kept for it in the scratch directory. -/
structure Beside (s : Site) (name n : String) (t t' : Tree) : Prop where
  outside : ∀ m r, m ≠ n → m ≠ s.scratch →
    t'.find? (s.place ([m] ++ r)) = t.find? (s.place ([m] ++ r))
  inside : ∀ r, ¬[name, n] <+: r →
    t'.find? (s.place (s.scratch :: r)) = t.find? (s.place (s.scratch :: r))

theorem beside_of_off {name : String} (hne : n ≠ s.scratch)
    (hoff : ∀ q, ¬s.place [n] <+: q → ¬s.place [s.scratch, name, n] <+: q →
      t'.find? q = t.find? q) : Beside s name n t t' := by
  constructor
  · intro m r hmn hms
    refine hoff _ ?_ ?_
    · exact not_place_first hmn.symm r
    · rw [Site.place_prefix, List.singleton_append, List.cons_prefix_cons]
      exact fun hp => hms hp.1.symm
  · intro r hr
    refine hoff _ ?_ ?_
    · rw [Site.place_prefix, List.cons_prefix_cons]
      exact fun hp => hne hp.1
    · rw [Site.place_prefix, List.cons_prefix_cons]
      exact fun hp => hr hp.2

theorem nodup_concat {ns : List String} (h : ns.Nodup) (hn : n ∉ ns) : (ns ++ [n]).Nodup := by
  refine List.nodup_append.2 ⟨h, List.pairwise_singleton _ n, ?_⟩
  rintro m hm _ hm' rfl
  exact hn (List.mem_singleton.1 hm' ▸ hm)

theorem ne_of_not_mem_concat {ns : List String} {m : String} (hm : m ∉ ns ++ [n]) : m ≠ n := by
  rintro rfl
  exact hm (List.mem_append_right _ (List.mem_singleton_self _))

theorem Swapping.take (h : Swapping s done t) (hn : n ∈ s.dirs) (hne : n ≠ s.scratch)
    (hfree : n ∉ done.taken ++ done.placed) (hfits : (s.output.below [n]).Fits)
    (hfits' : (s.output.below [s.scratch, oldName, n]).Fits) (hthere : t.find? (s.place [n]) ≠ none)
    (hmoved : Moved t (s.place [n]) (s.place [s.scratch, oldName, n]) t') :
    Swapping s ⟨done.taken ++ [n], done.placed⟩ t' := by
  have hnt : n ∉ done.taken := fun h => hfree (List.mem_append_left _ h)
  have hnp : n ∉ done.placed := fun h => hfree (List.mem_append_right _ h)
  have hbeside : Beside s oldName n t t' :=
    beside_of_off hne fun q hfrom hto => hmoved.off q hto hfrom
  have hsame := h.untouched hfree hne
  refine
    { scratch := ?_, old := ?_, off := ?_, member := ?_, taken := ?_, gone := ?_, placed := ?_,
      fresh := ?_, nodupTaken := nodup_concat h.nodupTaken hnt, nodupPlaced := h.nodupPlaced }
  · rw [hbeside.inside [] (by simp)]
    exact h.scratch
  · rw [hbeside.inside [oldName] (by simp)]
    exact h.old
  · intro q hq hrest
    rw [hmoved.off q (fun hp => hq ((Site.place_prefix.2 ⟨[oldName, n], rfl⟩).trans hp))
      (hrest n (by simp))]
    refine h.off q hq fun m hm => hrest m ?_
    rcases List.mem_append.1 hm with hm | hm
    · simp [hm]
    · simp [hm]
  · intro m hm
    simp only [List.mem_append, List.mem_singleton] at hm
    rcases hm with (hm | rfl) | hm
    · exact h.member m (List.mem_append_left _ hm)
    · exact ⟨hn, hne, hfits⟩
    · exact h.member m (List.mem_append_right _ hm)
  · intro m hm
    rcases List.mem_append.1 hm with hm | hm
    · obtain ⟨hthere', hfits'', hview⟩ := h.taken m hm
      refine ⟨hthere', hfits'', fun r => ?_⟩
      have hmn : m ≠ n := fun hmn => hnt (hmn ▸ hm)
      rw [List.cons_append, hbeside.inside _ (by simp [hmn.symm]), ← List.cons_append]
      exact hview r
    · rw [List.mem_singleton.1 hm]
      refine ⟨?_, hfits', fun r => ?_⟩
      · have := hsame []
        rw [List.append_nil] at this
        rw [← this]
        exact hthere
      · have := hmoved.arrived r
        rw [Site.place_append, Site.place_append] at this
        rw [this]
        exact hsame r
  · intro m hm hplaced r
    rcases List.mem_append.1 hm with hm | hm
    · have hmn : m ≠ n := fun hmn => hnt (hmn ▸ hm)
      rw [hbeside.outside m r hmn (h.member m (List.mem_append_left _ hm)).2.1]
      exact h.gone m hm hplaced r
    · rw [List.mem_singleton.1 hm, ← Site.place_append]
      exact hmoved.left r
  · intro m hm r
    have hmn : m ≠ n := fun hmn => hnp (hmn ▸ hm)
    rw [hbeside.outside m r hmn (h.member m (List.mem_append_right _ hm)).2.1]
    exact h.placed m hm r
  · exact fun m hm hmt => h.fresh m hm fun hmt' => hmt (List.mem_append_left _ hmt')

theorem Ahead.take (h : Ahead s done t) (hbeside : Beside s oldName n t t') :
    Ahead s ⟨done.taken ++ [n], done.placed⟩ t' := by
  refine ⟨fun m hm r => ?_, ?_, fun m hm => ?_⟩
  · rw [List.cons_append, hbeside.inside _ (by simp [newName, oldName])]
    exact h.staged m hm r
  · rw [hbeside.inside _ (by simp [newName, oldName])]
    exact h.new
  · rw [hbeside.inside _ (by simp [(ne_of_not_mem_concat hm).symm])]
    exact h.vacant m fun hmt => hm (List.mem_append_left _ hmt)

/-- A directory that is moved away is taken. -/
theorem cleared_of_moved (hs : s.Ready) (h : Swapping s done t) (hahead : Ahead s done t)
    (hn : n ∈ s.dirs) (hfree : n ∉ done.taken ++ done.placed)
    (hmoved : t.rename s.home (s.output.below [n])
      (s.output.below [s.scratch, oldName, n]) = .ok t') :
    Cleared s n ⟨done.taken ++ [n], done.placed⟩ t' := by
  have hdown := hs.downward hn
  have hdown' := hs.downward_scratch (by decide : oldName ≠ upName) hn
  obtain ⟨hfits, hfits', hthere, hst, hmoved⟩ := moved_of_rename hmoved (by
    rw [hs.placeOf_below hdown, hs.placeOf_below hdown', Site.place_prefix]
    exact fun hp => absurd hp.length_le (by simp))
  rw [hs.placeOf_below hdown] at hthere hst hmoved
  rw [hs.placeOf_below hdown'] at hst hmoved
  -- The scratch directory cannot be moved into itself, so `n` is another one.
  have hne : n ≠ s.scratch := by
    rintro rfl
    exact hst (Site.place_prefix.2 ⟨[oldName, s.scratch], rfl⟩)
  have hbeside : Beside s oldName n t t' :=
    beside_of_off hne fun q hfrom hto => hmoved.off q hto hfrom
  refine ⟨h.take hn hne hfree hfits hfits' hthere hmoved, hahead.take hbeside, hne, fun r => ?_,
    fun hn' => ?_⟩
  · rw [← Site.place_append]
    exact hmoved.left r
  · exact absurd (List.mem_append_right _ (List.mem_singleton_self n)) hn'

/-! ## Putting in place -/

/-- `Holds s n t` — the directory `n` is what was staged for it, or an empty directory. -/
def Holds (s : Site) (n : String) (t : Tree) : Prop :=
  ∀ r, t.find? (s.place ([n] ++ r)) =
    if r = [] then some .directory else s.staged.find? (s.place ([s.scratch, newName, n] ++ r))

theorem Swapping.put (h : Swapping s done t) (hn : n ∈ s.dirs) (hne : n ≠ s.scratch)
    (hnp : n ∉ done.placed) (hfits : (s.output.below [n]).Fits)
    (hfresh : n ∉ done.taken → s.base.find? (s.place [n]) = none)
    (hoff : ∀ q, ¬s.place [n] <+: q → ¬s.place [s.scratch, newName, n] <+: q →
      t'.find? q = t.find? q) (hholds : Holds s n t') :
    Swapping s ⟨done.taken, done.placed ++ [n]⟩ t' := by
  have hbeside : Beside s newName n t t' := beside_of_off hne hoff
  have hmem : ∀ m ∈ done.taken ++ (done.placed ++ [n]), m ∈ done.taken ++ done.placed ∨ m = n := by
    intro m hm
    rw [← List.append_assoc] at hm
    exact (List.mem_append.1 hm).imp_right List.mem_singleton.1
  refine
    { scratch := ?_, old := ?_, off := ?_, member := ?_, taken := ?_, gone := ?_, placed := ?_,
      fresh := ?_, nodupTaken := h.nodupTaken, nodupPlaced := nodup_concat h.nodupPlaced hnp }
  · rw [hbeside.inside [] (by simp)]
    exact h.scratch
  · rw [hbeside.inside [oldName] (by simp [newName, oldName])]
    exact h.old
  · intro q hq hrest
    rw [hoff q (hrest n (by simp))
      (fun hp => hq ((Site.place_prefix.2 ⟨[newName, n], rfl⟩).trans hp))]
    refine h.off q hq fun m hm => hrest m ?_
    rw [← List.append_assoc]
    exact List.mem_append_left _ hm
  · intro m hm
    rcases hmem m hm with hm | rfl
    · exact h.member m hm
    · exact ⟨hn, hne, hfits⟩
  · intro m hm
    obtain ⟨hthere, hfits', hview⟩ := h.taken m hm
    refine ⟨hthere, hfits', fun r => ?_⟩
    rw [List.cons_append, hbeside.inside _ (by simp [newName, oldName]), ← List.cons_append]
    exact hview r
  · intro m hm hplaced r
    rw [hbeside.outside m r (ne_of_not_mem_concat hplaced)
      (h.member m (List.mem_append_left _ hm)).2.1]
    exact h.gone m hm (fun hp => hplaced (List.mem_append_left _ hp)) r
  · intro m hm r
    rcases List.mem_append.1 hm with hm | hm
    · have hmn : m ≠ n := fun hmn => hnp (hmn ▸ hm)
      rw [hbeside.outside m r hmn (h.member m (List.mem_append_right _ hm)).2.1]
      exact h.placed m hm r
    · rw [List.mem_singleton.1 hm]
      exact hholds r
  · intro m hm hmt
    rcases List.mem_append.1 hm with hm | hm
    · exact h.fresh m hm hmt
    · rw [List.mem_singleton.1 hm] at hmt ⊢
      exact hfresh hmt

/-- A staged directory that is moved to its clear place is placed. -/
theorem placed_of_moved (hs : s.Ready) (h : Cleared s n done t) (hn : n ∈ s.dirs)
    (hnp : n ∉ done.placed) {made : Tree}
    (hsame : t.SameOff (s.place [s.scratch, newName]) made)
    (hdir : made.find? (s.place [s.scratch, newName, n]) = some .directory)
    (hmade : ∀ m r, m ≠ n ∨ r ≠ [] → made.find? (s.place ([s.scratch, newName, m] ++ r)) =
      t.find? (s.place ([s.scratch, newName, m] ++ r)))
    (hnew : made.find? (s.place [s.scratch, newName]) = t.find? (s.place [s.scratch, newName]) ∨
      made.find? (s.place [s.scratch, newName]) = some .directory)
    (hmoved : made.rename s.home (s.output.below [s.scratch, newName, n])
      (s.output.below [n]) = .ok t') :
    Swapping s ⟨done.taken, done.placed ++ [n]⟩ t' ∧
      Ahead s ⟨done.taken, done.placed ++ [n]⟩ t' := by
  have hdown := hs.downward hn
  have hdown' := hs.downward_scratch (by decide : newName ≠ upName) hn
  have hne := h.notScratch
  obtain ⟨_, hfits, _, _, hmoved⟩ := moved_of_rename hmoved (by
    rw [hs.placeOf_below hdown, hs.placeOf_below hdown', Site.place_prefix, List.cons_prefix_cons]
    exact fun hp => hne hp.1)
  rw [hs.placeOf_below hdown, hs.placeOf_below hdown'] at hmoved
  have hbeside : Beside s newName n made t' := beside_of_off hne hmoved.off
  have hholds : Holds s n t' := by
    intro r
    have := hmoved.arrived r
    rw [Site.place_append, Site.place_append] at this
    rw [this]
    by_cases hr : r = []
    · rw [if_pos hr, hr, List.append_nil]
      exact hdir
    · rw [if_neg hr, hmade n r (Or.inr hr)]
      exact h.ahead.staged n hnp r
  refine ⟨(h.swapping.sameOff hsame).put hn hne hnp hfits h.fresh hmoved.off hholds,
    fun m hm r => ?_, ?_, fun m hm => ?_⟩
  · have hmp : m ∉ done.placed := fun hmp => hm (List.mem_append_left _ hmp)
    have hmn : m ≠ n := ne_of_not_mem_concat hm
    rw [List.cons_append, hbeside.inside _ (by simp [hmn.symm]), ← List.cons_append,
      hmade m r (Or.inl hmn)]
    exact h.ahead.staged m hmp r
  · rw [hbeside.inside _ (by simp)]
    rcases hnew with hnew | hnew
    · rw [hnew]
      exact h.ahead.new
    · exact Or.inr hnew
  · rw [hbeside.inside _ (by simp [newName, oldName]),
      hsame _ (by rw [Site.place_prefix]; simp [newName, oldName])]
    exact h.ahead.vacant m hm

/-- Making a directory to be staged touches that one only. -/
theorem wayMade_new (hs : s.Ready) (h : Swapping s done t) (hn : n ∈ s.dirs)
    (hmade : t.WayMade s.home (s.output.below [s.scratch, newName, n]) t') :
    t.SameOff (s.place [s.scratch, newName]) t' ∧
      ∀ m r, m ≠ n ∨ r ≠ [] → t'.find? (s.place ([s.scratch, newName, m] ++ r)) =
        t.find? (s.place ([s.scratch, newName, m] ++ r)) := by
  have hdown' := hs.downward_scratch (by decide : newName ≠ upName) hn
  have hcase : ∀ q, t'.find? q = t.find? q ∨
      q = s.place [s.scratch, newName] ∨ q = s.place [s.scratch, newName, n] := by
    intro q
    rcases hmade q with hsame | ⟨hq, hnone, _⟩
    · exact Or.inl hsame
    · rcases (Path.visits_below hdown').1 hq with hq | ⟨front, hfront, rfl⟩
      · rw [h.stands hs q hq] at hnone
        nomatch hnone
      · rcases prefix_three hfront with rfl | rfl | rfl | rfl
        · rw [List.append_nil, (h.stands hs).place] at hnone
          nomatch hnone
        · exact nomatch hnone.symm.trans h.scratch
        · exact Or.inr (Or.inl rfl)
        · exact Or.inr (Or.inr rfl)
  constructor
  · intro q hq
    rcases hcase q with hsame | rfl | rfl
    · exact hsame
    · exact absurd List.prefix_rfl hq
    · exact absurd (Site.place_prefix.2 ⟨[n], rfl⟩) hq
  · intro m r hmr
    rcases hcase (s.place ([s.scratch, newName, m] ++ r)) with hsame | heq | heq
    · exact hsame
    · have := congrArg List.length (List.append_cancel_left heq)
      simp at this
    · have := List.append_cancel_left heq
      simp only [List.cons_append, List.nil_append, List.cons.injEq, true_and] at this
      rcases hmr with hmn | hr
      · exact absurd this.1 hmn
      · exact absurd this.2 hr

/-! ## The steps -/

variable {f : Failures} (hf : f.OfDisk)
include hf

theorem steps_takeAway (hs : s.Ready) (h : Swapping s done t) (hahead : Ahead s done t)
    (hn : n ∈ s.dirs) (hfree : n ∉ done.taken ++ done.placed) :
    Steps f s.home (takeAway s.places n done) t
      (fun done' t' => Cleared s n done' t' ∧ done'.placed = done.placed ∧
        ∀ m ∈ done'.taken, m ∈ done.taken ∨ m = n)
      (fun e t' => e.1.isOfDisk = true ∧ Swapping s e.2 t') := by
  have hnt : n ∉ done.taken := fun h => hfree (List.mem_append_left _ h)
  refine Steps.adapt ?_
  dsimp only
  rw [hs.child_output hn, hs.child_old hn]
  refine Steps.bind ((steps_look_map _).mono (fun _ _ h => h) ?_) ?_
  · rintro e t' ⟨rfl, hlook⟩
    exact ⟨by rw [look_error hlook]; rfl, h⟩
  · rintro b t ⟨rfl, k, hlook, rfl⟩
    refine Steps.ite (fun _ => ?_) fun hk => Steps.pure ?_
    · refine Steps.bind ((steps_move _ _).mono (fun _ _ h => h) ?_) ?_
      · rintro e t' ⟨rfl, hrefused⟩
        exact ⟨hrefused.ofDisk hf (rename_error (hs.usable_below hn)
          (hs.usable_scratch (by decide) hn)), h⟩
      · intro _ t' hmoved
        refine Steps.pure ⟨cleared_of_moved hs h hahead hn hfree hmoved, rfl, fun m hm => ?_⟩
        simpa using hm
    · have hk' : k = none := by simpa using hk
      have hnone := look_eq_none (hs.usable_below hn)
        (reaches_below_one (h.stands hs) (hs.component n hn).notUp) (hk' ▸ hlook)
      rw [hs.placeOf_below (hs.downward hn)] at hnone
      have hne : n ≠ s.scratch := by
        rintro rfl
        rw [h.scratch] at hnone
        nomatch hnone
      have hbase : s.base.find? (s.place [n]) = none := by
        have := h.untouched hfree hne []
        rw [List.append_nil] at this
        rw [← this, hnone]
      refine ⟨⟨h, hahead, hne, fun r => ?_, fun _ => hbase⟩, rfl, fun m hm => Or.inl hm⟩
      rw [h.untouched hfree hne, ← Site.place_append]
      exact hs.closed.nothing_below hbase r

theorem steps_putInPlace (hs : s.Ready) (h : Cleared s n done t) (hn : n ∈ s.dirs)
    (hnp : n ∉ done.placed) :
    Steps f s.home (putInPlace s.places n done) t
      (fun done' t' => done' = ⟨done.taken, done.placed ++ [n]⟩ ∧ Swapping s done' t' ∧
        Ahead s done' t')
      (fun e t' => e.1.isOfDisk = true ∧ Swapping s e.2 t') := by
  have hdown' := hs.downward_scratch (by decide : newName ≠ upName) hn
  have husable := hs.usable_scratch (by decide : '\x00' ∉ newName.toList) hn
  -- The staged directory is there in the end, whether it was before or not.
  have hmove : ∀ {made : Tree}, t.SameOff (s.place [s.scratch, newName]) made →
      made.find? (s.place [s.scratch, newName, n]) = some .directory →
      (∀ m r, m ≠ n ∨ r ≠ [] → made.find? (s.place ([s.scratch, newName, m] ++ r)) =
        t.find? (s.place ([s.scratch, newName, m] ++ r))) →
      (made.find? (s.place [s.scratch, newName]) = t.find? (s.place [s.scratch, newName]) ∨
        made.find? (s.place [s.scratch, newName]) = some .directory) →
      Steps f s.home (do
        Disk.move (s.output.below [s.scratch, newName, n]) (s.output.below [n])
        return (⟨done.taken, done.placed ++ [n]⟩ : Swapped)) made
        (fun done' t' => done' = ⟨done.taken, done.placed ++ [n]⟩ ∧ Swapping s done' t' ∧
          Ahead s done' t')
        (fun e t' => e.isOfDisk = true ∧ Swapping s done t') := by
    intro made hsame hdir hmade hnew
    refine Steps.bind ((steps_move _ _).mono (fun _ _ h => h) ?_) ?_
    · rintro e t' ⟨rfl, hrefused⟩
      exact ⟨hrefused.ofDisk hf (rename_error husable (hs.usable_below hn)),
        h.swapping.sameOff hsame⟩
    · intro _ t' hmoved
      exact Steps.pure ⟨rfl, placed_of_moved hs h hn hnp hsame hdir hmade hnew hmoved⟩
  refine Steps.adapt ?_
  dsimp only
  rw [hs.child_output hn, hs.child_new hn]
  refine Steps.bind ((steps_look_map _).mono (fun _ _ h => h) ?_) ?_
  · rintro e t' ⟨rfl, hlook⟩
    exact ⟨by rw [look_error hlook]; rfl, h.swapping⟩
  · rintro b t ⟨rfl, k, hlook, rfl⟩
    refine Steps.ite (fun _ => ?_) fun hk => ?_
    · refine Steps.bind ((steps_makeDirs hf _).mono (fun _ _ h => h) ?_) ?_
      · intro e t' hunmade
        exact ⟨hunmade.ofDisk husable,
          h.swapping.sameOff (wayMade_new hs h.swapping hn hunmade.way).1⟩
      · intro _ made hmade
        obtain ⟨hsame, hview⟩ := wayMade_new hs h.swapping hn hmade.way
        have hdir := hmade.stands.place
        rw [hs.placeOf_below hdown'] at hdir
        exact hmove hsame hdir hview ((hmade.way _).imp_right fun h => h.2.2)
    · obtain ⟨kind, hkind⟩ : ∃ kind, k = some kind := by
        cases k with
        | none => exact absurd rfl hk
        | some kind => exact ⟨kind, rfl⟩
      obtain ⟨_, _, hfind⟩ := look_eq_some.1 (hkind ▸ hlook)
      rw [hs.placeOf_below hdown'] at hfind
      obtain ⟨entry, hentry, _⟩ := Option.map_eq_some_iff.1 hfind
      have hdir : t.find? (s.place [s.scratch, newName, n]) = some .directory := by
        cases entry with
        | directory => exact hentry
        | file text =>
          have := h.ahead.staged n hnp []
          rw [List.append_nil, hentry] at this
          exact absurd this.symm (hs.shallow n text)
      exact hmove SameOff.refl hdir (fun _ _ _ => rfl) (Or.inl rfl)

/-! ## All directories -/

omit hf in
/-- The directories behind the one that has been swapped are still to be swapped. -/
theorem free_rest {taken taken' placed names : List String} (hnotin : n ∉ names)
    (htaken : ∀ m ∈ taken', m ∈ taken ∨ m = n) (hfree : ∀ m ∈ names, m ∉ taken ++ placed) :
    ∀ m ∈ names, m ∉ taken' ++ (placed ++ [n]) := by
  intro m hm
  have hmn : m ≠ n := fun hmn => hnotin (hmn ▸ hm)
  have hm' := hfree m hm
  simp only [List.mem_append, List.mem_singleton, not_or] at hm' ⊢
  refine ⟨fun hmt => ?_, hm'.2, hmn⟩
  rcases htaken m hmt with hmt | hmt
  · exact hm'.1 hmt
  · exact hmn hmt

theorem steps_swapEach (hs : s.Ready) (names : List String) (h : Swapping s done t)
    (hahead : Ahead s done t) (hnames : ∀ n ∈ names, n ∈ s.dirs) (hnodup : names.Nodup)
    (hfree : ∀ n ∈ names, n ∉ done.taken ++ done.placed) :
    Steps f s.home (swapEach s.places names done) t
      (fun done' t' => Swapping s done' t' ∧ done'.placed = done.placed ++ names)
      (fun e t' => e.1.isOfDisk = true ∧ Swapping s e.2 t') := by
  -- On the names that are left: `Swapping` holds of the tree at every stop, and `Ahead` says that
  -- what the directories behind are to receive still waits in the scratch directory.
  induction names generalizing done t with
  | nil => exact Steps.pure ⟨h, (List.append_nil _).symm⟩
  | cons n names ih =>
    obtain ⟨hn, hnames⟩ := List.forall_mem_cons.1 hnames
    obtain ⟨hfreen, hfree⟩ := List.forall_mem_cons.1 hfree
    obtain ⟨hnotin, hnodup⟩ := List.nodup_cons.1 hnodup
    refine Steps.bind (steps_takeAway hf hs h hahead hn hfreen) ?_
    rintro ⟨taken, placed⟩ t' ⟨hcleared, rfl, htaken⟩
    have hnp : n ∉ done.placed := fun hp => hfreen (List.mem_append_right _ hp)
    refine Steps.bind (steps_putInPlace hf hs hcleared hn hnp) ?_
    rintro _ t'' ⟨rfl, hswapping, hahead⟩
    refine (ih hswapping hahead hnames hnodup (free_rest hnotin htaken hfree)).mono ?_
      fun _ _ h => h
    rintro done' last ⟨hswapping, hplaced⟩
    refine ⟨hswapping, ?_⟩
    rw [hplaced, List.append_assoc]
    rfl

end Bindery.Delivery
