/-
  STAGING: the files that are written, and nothing else.

  The invariant is `Staged t root files`: at and below a place there are just the files that have
  been written, and the directories that lead to them.  Writing one more file keeps it
  (`steps_stageFile`), so writing all of them makes it true of all (`steps_stage`).  Whatever
  happens, all places that are not at or below the place stay as they are (`SameOff`).
-/
import Bindery.Proofs.Disk.Making
import Bindery.Job.Delivery

namespace Bindery

open Bindery.Tree

/-! ## All but one place -/

/-- The path leads nowhere to a place or below it. -/
def Path.Avoids (home : Place) (p : Path) (a : Place) : Prop := ∀ q, p.Visits home q → ¬a <+: q

/-- `t.SameOff a t'` — all places that are not at or below `a` are in `t'` as they are in `t`. -/
def Tree.SameOff (t : Tree) (a : Place) (t' : Tree) : Prop :=
  ∀ q, ¬a <+: q → t'.find? q = t.find? q

namespace Tree

variable {t t' t'' : Tree} {a b : Place}

theorem SameOff.refl : t.SameOff a t := fun _ _ => rfl

theorem SameOff.trans (h1 : t.SameOff a t') (h2 : t'.SameOff a t'') : t.SameOff a t'' :=
  fun q hq => (h2 q hq).trans (h1 q hq)

theorem SameOff.mono (h : t.SameOff b t') (hab : a <+: b) : t.SameOff a t' :=
  fun q hq => h q fun hb => hq (hab.trans hb)

/-- A path that avoids the place keeps leading through directories. -/
theorem SameOff.stands {home : Place} {p : Path} (h : t.SameOff a t') (hp : t.Stands home p)
    (ha : p.Avoids home a) : t'.Stands home p := by
  refine hp.mono fun q hq hdir => ?_
  rw [h q (ha q hq)]
  exact hdir

/-- A path to a directory avoids the places where nothing is. -/
theorem Closed.avoids {home : Place} {p : Path} (h : t.Closed) (hp : t.Stands home p)
    (ha : t.find? a = none) : p.Avoids home a := by
  rintro q hq ⟨r, rfl⟩
  have hdir := hp _ hq
  rw [h.nothing_below ha r] at hdir
  nomatch hdir

end Tree

/-! ## Files below a place -/

/-- The names that the path of a file leads through. -/
def Source.File.names (f : Source.File) : List String := (Path.ofString f.path).names

/-- A file that may be put in place: its path leads down from an output directory to something
below one of the directories there. -/
structure Source.File.Proper (f : Source.File) : Prop where
  relative : (Path.ofString f.path).isAbsolute = false
  downward : Downward f.names
  deep : ∃ top next rest, f.names = top :: next :: rest

namespace Source.File.Proper

variable {f : Source.File}

theorem names_ne_nil (h : f.Proper) : f.names ≠ [] := by
  obtain ⟨top, next, rest, hdeep⟩ := h.deep
  rw [hdeep]
  exact List.cons_ne_nil _ _

/-- The way to the directory of a file leads down, too. -/
theorem downward_dropLast (h : f.Proper) : Downward f.names.dropLast :=
  h.downward.shorten (List.dropLast_prefix _)

end Source.File.Proper

/-- `Staged t root files` — at and below the place there are just these files, and the directories
that lead to them.  Of several files with the same names, one is there. -/
structure Staged (t : Tree) (root : Place) (files : List Source.File) : Prop where
  ofFile : ∀ r text, t.find? (root ++ r) = some (.file text) →
    ∃ f ∈ files, f.names = r ∧ f.text = text
  there : ∀ f ∈ files, ∃ text, t.find? (root ++ f.names) = some (.file text)
  directory : ∀ r, t.find? (root ++ r) = some .directory ↔
    ∃ f ∈ files, r <+: f.names ∧ r ≠ f.names

namespace Staged

variable {t : Tree} {root : Place} {files : List Source.File}

theorem nothing (h : ∀ r, t.find? (root ++ r) = none) : Staged t root [] where
  ofFile := fun r text hr => by rw [h r] at hr; nomatch hr
  there := fun _ hf => (nomatch hf)
  directory := fun r => by
    rw [h r]
    exact ⟨fun h => (nomatch h), fun ⟨_, hf, _⟩ => (nomatch hf)⟩

/-- Directly below the place there are directories only. -/
theorem shallow (h : Staged t root files) (hproper : ∀ f ∈ files, f.Proper) (name text : String) :
    t.find? (root ++ [name]) ≠ some (.file text) := by
  intro hfile
  obtain ⟨f, hf, hnames, _⟩ := h.ofFile [name] text hfile
  obtain ⟨top, next, rest, hdeep⟩ := (hproper f hf).deep
  rw [hdeep] at hnames
  nomatch hnames

end Staged

/-- To lead to something in the last directory is to lead to something else on the way. -/
theorem prefix_dropLast_iff {r names : List String} (h : names ≠ []) :
    r <+: names.dropLast ↔ r <+: names ∧ r ≠ names := by
  obtain ⟨front, last, rfl⟩ := (List.eq_nil_or_concat names).resolve_left h
  rw [List.concat_eq_append, List.dropLast_concat, List.prefix_concat_iff]
  constructor
  · intro hp
    refine ⟨Or.inr hp, fun heq => ?_⟩
    have := hp.length_le
    rw [heq, List.length_append, List.length_singleton] at this
    omega
  · rintro ⟨heq | hp, hne⟩
    · exact absurd heq hne
    · exact hp

/-! ## Writing the files -/

namespace Delivery

/-- The name of the directory that files are staged in. -/
def newName : String := "new"

variable {f : Failures} {home : Place} {t : Tree} {base : Path} {file : Source.File}
  {done : List Source.File}

/-- The place that files are staged at. -/
def stagedAt (home : Place) (base : Path) : Place := base.placeOf home ++ [newName]

theorem stagedAt_append (home : Place) (base : Path) (names : List String) :
    stagedAt home base ++ names = base.placeOf home ++ newName :: names := List.append_assoc _ _ _

/-- The path of a staged file, behind the path of the scratch directory. -/
theorem child_staged (hproper : file.Proper) :
    (base.below [newName]).child file.path = base.below (newName :: file.names) := by
  rw [Path.child_eq_below hproper.relative, Path.below_below]
  rfl

theorem downward_staged {names : List String} (h : Downward names) :
    Downward (newName :: names) := by
  intro name hname
  rcases List.mem_cons.1 hname with rfl | hname
  · decide
  · exact h name hname

theorem parent_staged (hproper : file.Proper) :
    (base.below (newName :: file.names)).parent = base.below (newName :: file.names.dropLast) := by
  rw [Path.parent_below (List.cons_ne_nil _ _), List.dropLast_cons_of_ne_nil hproper.names_ne_nil]

/-- A staged file stands behind the place that files are staged at. -/
theorem placeOf_staged (hproper : file.Proper) :
    (base.below (newName :: file.names)).placeOf home = stagedAt home base ++ file.names := by
  rw [Path.placeOf_below (downward_staged hproper.downward), stagedAt_append]

/-- Making the directories above a staged file touches the staged files only. -/
theorem wayMade_staged {t' : Tree} {names : List String} (hbase : t.Stands home base)
    (hdown : Downward names) (h : t.WayMade home (base.below (newName :: names)) t') (q : Place) :
    t'.find? q = t.find? q ∨
      ∃ r, r <+: names ∧ q = stagedAt home base ++ r ∧ t'.find? q = some .directory := by
  rcases h q with hsame | ⟨hq, hnone, hdir⟩
  · exact Or.inl hsame
  · rcases (Path.visits_below (downward_staged hdown)).1 hq with hq | ⟨front, hfront, rfl⟩
    · rw [hbase q hq] at hnone
      nomatch hnone
    · rcases List.prefix_cons_iff.1 hfront with rfl | ⟨r, rfl, hr⟩
      · rw [List.append_nil, hbase.place] at hnone
        nomatch hnone
      · exact Or.inr ⟨r, hr, (stagedAt_append home base r).symm, hdir⟩

/-- Where the directories for a file have been made, those on its way are there and no others. -/
theorem directory_made {made : Tree} (hbase : t.Stands home base)
    (hdrop : Downward file.names.dropLast)
    (hmade : Made home (base.below (newName :: file.names.dropLast)) t made) (r : List String) :
    made.find? (stagedAt home base ++ r) = some .directory ↔
      t.find? (stagedAt home base ++ r) = some .directory ∨ r <+: file.names.dropLast := by
  constructor
  · intro h
    rcases wayMade_staged hbase hdrop hmade.way (stagedAt home base ++ r) with
      hsame | ⟨r', hr', heq, _⟩
    · exact Or.inl (hsame ▸ h)
    · rw [List.append_cancel_left heq]
      exact Or.inr hr'
  · rintro (h | h)
    · exact hmade.way.keeps h
    · refine hmade.stands _ ((Path.visits_below (downward_staged hdrop)).2 (Or.inr ?_))
      exact ⟨newName :: r, (List.prefix_cons_inj _).2 h, stagedAt_append home base r⟩

/-- A file that is written where its directories have been made is staged with those before. -/
theorem staged_put {made : Tree} (hbase : t.Stands home base) (hproper : file.Proper)
    (hstaged : Staged t (stagedAt home base) done)
    (hmade : Made home (base.below (newName :: file.names.dropLast)) t made)
    (hfree : made.find? (stagedAt home base ++ file.names) ≠ some .directory) :
    Staged (made.put (stagedAt home base ++ file.names) (.file file.text)) (stagedAt home base)
      (done ++ [file]) := by
  have hne := hproper.names_ne_nil
  have hdrop := hproper.downward_dropLast
  have hroot : ∀ r, stagedAt home base ++ r ≠ [] := by
    intro r h
    simp [stagedAt] at h
  have hput : ∀ r, (made.put (stagedAt home base ++ file.names) (.file file.text)).find?
      (stagedAt home base ++ r) =
        if r = file.names then some (.file file.text) else made.find? (stagedAt home base ++ r) := by
    intro r
    rw [find?_put _ _ _ (hroot r)]
    simp only [List.append_cancel_left_eq]
  have hfile : ∀ {r text}, made.find? (stagedAt home base ++ r) = some (.file text) ↔
      t.find? (stagedAt home base ++ r) = some (.file text) := hmade.way.file
  refine ⟨fun r text h => ?_, fun g hg => ?_, fun r => ?_⟩
  · rw [hput] at h
    by_cases hr : r = file.names
    · rw [if_pos hr, Option.some.injEq, Entry.file.injEq] at h
      exact ⟨file, by simp, hr.symm, h⟩
    · rw [if_neg hr] at h
      obtain ⟨g, hg, hrest⟩ := hstaged.ofFile r text (hfile.1 h)
      exact ⟨g, List.mem_append_left _ hg, hrest⟩
  · rw [hput]
    by_cases hr : g.names = file.names
    · exact ⟨file.text, if_pos hr⟩
    · rw [if_neg hr]
      rcases List.mem_append.1 hg with hg | hg
      · obtain ⟨text, htext⟩ := hstaged.there g hg
        exact ⟨text, hfile.2 htext⟩
      · rw [List.mem_singleton.1 hg] at hr
        exact absurd rfl hr
  · rw [hput]
    by_cases hr : r = file.names
    · rw [if_pos hr]
      refine ⟨fun h => (nomatch h), ?_⟩
      rintro ⟨g, hg, hp, hne'⟩
      rcases List.mem_append.1 hg with hg | hg
      · have := (hstaged.directory r).2 ⟨g, hg, hp, hne'⟩
        rw [hr] at this
        exact absurd (hmade.way.keeps this) hfree
      · rw [List.mem_singleton.1 hg] at hne'
        exact absurd hr hne'
    · rw [if_neg hr, directory_made hbase hdrop hmade, hstaged.directory, prefix_dropLast_iff hne]
      constructor
      · rintro (⟨g, hg, hrest⟩ | hrest)
        · exact ⟨g, List.mem_append_left _ hg, hrest⟩
        · exact ⟨file, by simp, hrest⟩
      · rintro ⟨g, hg, hrest⟩
        rcases List.mem_append.1 hg with hg | hg
        · exact Or.inl ⟨g, hg, hrest⟩
        · rw [List.mem_singleton.1 hg] at hrest
          exact Or.inr hrest

variable (hf : f.OfDisk)
include hf

/-- One more file. -/
theorem steps_stageFile (hbase : t.Stands home base) (hproper : file.Proper)
    (hstaged : Staged t (stagedAt home base) done) :
    Steps f home (stageFile (base.below [newName]) file) t
      (fun _ t' => Staged t' (stagedAt home base) (done ++ [file]) ∧
        t.SameOff (stagedAt home base) t')
      (fun _ t' => t.SameOff (stagedAt home base) t') := by
  have hne := hproper.names_ne_nil
  have hdrop := hproper.downward_dropLast
  have hoff : ∀ {t' : Tree}, t.WayMade home (base.below (newName :: file.names.dropLast)) t' →
      t.SameOff (stagedAt home base) t' := by
    intro t' h q hq
    rcases wayMade_staged hbase hdrop h q with hsame | ⟨r, _, rfl, _⟩
    · exact hsame
    · exact absurd (List.prefix_append _ _) hq
  have hwritten : ∀ {made t' : Tree} {text : String},
      made.write home (base.below (newName :: file.names)) text = .ok t' →
      made.find? (stagedAt home base ++ file.names) ≠ some .directory ∧
        t' = made.put (stagedAt home base ++ file.names) (.file text) ∧
        made.SameOff (stagedAt home base) t' := by
    intro made t' text h
    obtain ⟨_, _, hfree, rfl⟩ := write_eq_ok.1 h
    rw [placeOf_staged hproper] at hfree ⊢
    refine ⟨hfree, rfl, fun q hq => ?_⟩
    by_cases hroot : q = []
    · rw [hroot]
      rfl
    · rw [find?_put _ _ _ hroot, if_neg]
      rintro rfl
      exact hq (List.prefix_append _ _)
  unfold stageFile
  rw [child_staged hproper]
  dsimp only
  rw [parent_staged hproper]
  refine Steps.bind ((steps_ensureDirs hf _).mono (fun _ _ h => h) fun _ _ h => hoff h.way) ?_
  intro _ made hmade
  refine Steps.ite (fun _ => ?_) fun _ => ?_
  · refine (steps_write _ _).mono ?_ ?_
    · intro _ t' h
      obtain ⟨hfree, rfl, hsame⟩ := hwritten h
      exact ⟨staged_put hbase hproper hstaged hmade hfree, (hoff hmade.way).trans hsame⟩
    · rintro _ t' ⟨rfl, _⟩
      exact hoff hmade.way
  · refine Steps.bind ((steps_write _ _).mono (fun _ _ h => h) ?_) ?_
    · rintro _ t' ⟨rfl, _⟩
      exact hoff hmade.way
    · intro _ t' h
      exact Steps.throw ((hoff hmade.way).trans (hwritten h).2.2)

theorem steps_stageFiles (files : List Source.File) (hbase : t.Stands home base)
    (havoid : base.Avoids home (stagedAt home base))
    (hproper : ∀ file ∈ files, file.Proper)
    (hstaged : Staged t (stagedAt home base) done) :
    Steps f home (stageFiles (base.below [newName]) files) t
      (fun _ t' => Staged t' (stagedAt home base) (done ++ files) ∧
        t.SameOff (stagedAt home base) t')
      (fun _ t' => t.SameOff (stagedAt home base) t') := by
  induction files generalizing t done with
  | nil =>
    refine Steps.pure ⟨?_, SameOff.refl⟩
    rw [List.append_nil]
    exact hstaged
  | cons file files ih =>
    obtain ⟨hfile, hfiles⟩ := List.forall_mem_cons.1 hproper
    refine Steps.bind (steps_stageFile hf hbase hfile hstaged) ?_
    rintro _ t' ⟨hstaged', hsame⟩
    -- What one file changes lies below the staged directory, so the base still stands for the next.
    have hbase' : t'.Stands home base := hsame.stands hbase havoid
    refine (ih hbase' hfiles hstaged').mono ?_ ?_
    · rintro _ t'' ⟨hstaged'', hsame'⟩
      rw [List.append_assoc] at hstaged''
      exact ⟨hstaged'', hsame.trans hsame'⟩
    · intro _ t'' hsame'
      exact hsame.trans hsame'

/-- All files of all targets. -/
theorem steps_stage (rendered : List Rendered) (hbase : t.Stands home base)
    (havoid : base.Avoids home (stagedAt home base))
    (hproper : ∀ r ∈ rendered, ∀ file ∈ r.files, file.Proper)
    (hstaged : Staged t (stagedAt home base) done) :
    Steps f home (stage (base.below [newName]) rendered) t
      (fun _ t' => Staged t' (stagedAt home base) (done ++ rendered.flatMap (·.files)) ∧
        t.SameOff (stagedAt home base) t')
      (fun _ t' => t.SameOff (stagedAt home base) t') := by
  induction rendered generalizing t done with
  | nil =>
    refine Steps.pure ⟨?_, SameOff.refl⟩
    rw [List.flatMap_nil, List.append_nil]
    exact hstaged
  | cons r rendered ih =>
    obtain ⟨hr, hrest⟩ := List.forall_mem_cons.1 hproper
    refine Steps.bind (Steps.adapt (steps_stageFiles hf r.files hbase havoid hr hstaged)) ?_
    rintro _ t' ⟨hstaged', hsame⟩
    have hbase' : t'.Stands home base := hsame.stands hbase havoid
    refine (ih hbase' hrest hstaged').mono ?_ ?_
    · rintro _ t'' ⟨hstaged'', hsame'⟩
      rw [List.append_assoc] at hstaged''
      rw [List.flatMap_cons]
      exact ⟨hstaged'', hsame.trans hsame'⟩
    · intro _ t'' hsame'
      exact hsame.trans hsame'

end Delivery

end Bindery
