/-
  DELIVERING files: all of them, or nothing.

  A delivery that succeeds leaves below each of the directories just the files that it was given
  (`Delivered`); one that fails leaves everything as it was.  In both cases the output directory may
  have been made before (`Made`, `WayMade`), and the scratch directory is gone.
-/
import Mathlib.Data.List.Sort
import Bindery.Proofs.Disk.Clear
import Bindery.Proofs.Job.Undoing

namespace Bindery

open Bindery.Tree

/-! ## Lists of paths -/

namespace Path

theorem notAfter_iff {p q : Path} : p.notAfter q = true ↔ ¬q.parts < p.parts := by
  rw [notAfter, Bool.not_eq_true', decide_eq_false_iff_not]

theorem insert_eq (p : Path) (ps : List Path) :
    insert p ps = ps.orderedInsert (fun p q => p.notAfter q = true) p := by
  induction ps with
  | nil => rfl
  | cons q qs ih => rw [insert, List.orderedInsert, ih]

theorem sort_eq (ps : List Path) : sort ps = ps.insertionSort fun p q => p.notAfter q = true := by
  induction ps with
  | nil => rfl
  | cons p ps ih =>
    show insert p (sort ps) = _
    rw [ih, insert_eq]
    rfl

/-- Sorted paths stand in their order. -/
theorem pairwise_sort (ps : List Path) : (sort ps).Pairwise fun p q => p.notAfter q = true := by
  have htotal : Std.Total fun p q : Path => p.notAfter q = true := ⟨fun p q => by
    have hone : ¬q.parts < p.parts ∨ ¬p.parts < q.parts := List.le_total p.parts q.parts
    exact hone.imp notAfter_iff.2 notAfter_iff.2⟩
  have htrans : IsTrans Path fun p q => p.notAfter q = true := ⟨fun p q r hpq hqr => by
    have hboth : ¬r.parts < p.parts := List.le_trans (notAfter_iff.1 hpq) (notAfter_iff.1 hqr)
    exact notAfter_iff.2 hboth⟩
  rw [sort_eq]
  exact List.pairwise_insertionSort _ ps

theorem mem_sort {ps : List Path} {p : Path} : p ∈ sort ps ↔ p ∈ ps := by
  rw [sort_eq]
  exact (List.perm_insertionSort _ ps).mem_iff

theorem nodup_sort {ps : List Path} (h : ps.Nodup) : (sort ps).Nodup := by
  rw [sort_eq]
  exact (List.perm_insertionSort _ ps).nodup_iff.2 h

end Path

namespace Delivery

/-! ## What is delivered -/

/-- `Delivered root dirs files base t` — below the directories there are just these files; all else
is as it was in the tree `base`. -/
structure Delivered (root : Place) (dirs : List String) (files : List Source.File)
    (base t : Tree) : Prop where
  off : ∀ q, (∀ d ∈ dirs, ¬root ++ [d] <+: q) → t.find? q = base.find? q
  /-- Every file below one of the directories is one of the files. -/
  ofFile : ∀ d ∈ dirs, ∀ r text, t.find? (root ++ d :: r) = some (.file text) →
    ∃ f ∈ files, f.names = d :: r ∧ f.text = text
  /-- Every file is there; of several files with the same names, one is. -/
  there : ∀ f ∈ files, f.names.head? ∈ dirs.map some →
    ∃ text, t.find? (root ++ f.names) = some (.file text)
  /-- The directories are there, and below them those that lead to a file. -/
  directory : ∀ d ∈ dirs, ∀ r, t.find? (root ++ d :: r) = some .directory ↔
    r = [] ∨ ∃ f ∈ files, d :: r <+: f.names ∧ d :: r ≠ f.names

variable {s : Site} {done : Swapped} {t t' : Tree} {f : Failures} {files : List Source.File}

/-- What a swap has placed is delivered, once the scratch directory is gone. -/
theorem delivered_of_swapping (hs : s.Ready) (h : Swapping s done t)
    (hplaced : done.placed = s.dirs)
    (hstaged : Staged s.staged (s.place [s.scratch, newName]) files)
    (hgone : ∀ q, t'.find? q = if s.place [s.scratch] <+: q then none else t.find? q) :
    Delivered (s.output.placeOf s.home) s.dirs files s.base t' := by
  have hmember : ∀ d ∈ s.dirs, d ≠ s.scratch := fun d hd =>
    (h.member d (List.mem_append_right _ (hplaced ▸ hd))).2.1
  -- Below a directory there is what was staged below it.
  have hview : ∀ d ∈ s.dirs, ∀ r, t'.find? (s.output.placeOf s.home ++ d :: r) =
      if r = [] then some .directory
      else s.staged.find? (s.place [s.scratch, newName] ++ d :: r) := by
    intro d hd r
    have hoff : ¬s.place [s.scratch] <+: s.place (d :: r) := by
      rw [Site.place_prefix, List.cons_prefix_cons]
      exact fun hp => hmember d hd hp.1.symm
    have hin := h.placed d (hplaced ▸ hd) r
    show t'.find? (s.place (d :: r)) = _
    rw [hgone, if_neg hoff, Site.place_append]
    exact hin
  refine ⟨fun q hq => ?_, fun d hd r text hfile => ?_, fun g hg hhead => ?_, fun d hd r => ?_⟩
  · rw [hgone]
    by_cases hscratch : s.place [s.scratch] <+: q
    · obtain ⟨r, rfl⟩ := hscratch
      rw [if_pos (List.prefix_append _ _), hs.closed.nothing_below hs.free]
    · rw [if_neg hscratch]
      refine h.off q hscratch fun n hn => hq n (h.member n hn).1
  · rw [hview d hd] at hfile
    by_cases hr : r = []
    · rw [if_pos hr] at hfile
      nomatch hfile
    · rw [if_neg hr] at hfile
      exact hstaged.ofFile _ _ hfile
  · obtain ⟨d, hd, hhead⟩ := List.mem_map.1 hhead
    obtain ⟨r, hr⟩ : ∃ r, g.names = d :: r := by
      cases hnames : g.names with
      | nil =>
        rw [hnames] at hhead
        nomatch hhead
      | cons top r =>
        rw [hnames] at hhead
        exact ⟨r, by rw [Option.some.inj hhead]⟩
    obtain ⟨text, htext⟩ := hstaged.there g hg
    by_cases hr' : r = []
    · rw [hr, hr'] at htext
      rw [Site.place_append] at htext
      exact absurd htext (hs.shallow d text)
    · rw [hr] at htext ⊢
      exact ⟨text, by rw [hview d hd, if_neg hr', htext]⟩
  · rw [hview d hd]
    by_cases hr : r = []
    · rw [if_pos hr]
      exact ⟨fun _ => Or.inl hr, fun _ => rfl⟩
    · rw [if_neg hr, hstaged.directory]
      exact ⟨Or.inr, fun h => h.resolve_left hr⟩

/-! ## Writing into a scratch directory -/

variable {home : Place} {output : Path} {dirs : List String} {rendered : List Rendered}

/-- All files of all targets. -/
def allFiles (rendered : List Rendered) : List Source.File := rendered.flatMap (·.files)

/-- What a delivery has to know about the disk and what it delivers. -/
structure Deliverable (f : Failures) (home : Place) (output : Path) (dirs : List String)
    (rendered : List Rendered) : Prop where
  ofDisk : f.OfDisk
  restore : ∀ n, f.restore n = none
  discard : ∀ n, f.discard n = false
  nodup : dirs.Nodup
  component : ∀ d ∈ dirs, IsComponent d
  avoids : ∀ d ∈ dirs, output.Avoids home (output.placeOf home ++ [d])
  proper : ∀ r ∈ rendered, ∀ file ∈ r.files, file.Proper

theorem Deliverable.properAll (h : Deliverable f home output dirs rendered) :
    ∀ file ∈ allFiles rendered, file.Proper := by
  intro file hfile
  obtain ⟨r, hr, hfile⟩ := List.mem_flatMap.1 hfile
  exact h.proper r hr file hfile

/-- Where a swap takes from and puts to in a scratch directory. -/
theorem places_eq (home : Place) (scratch : String) (dirs : List String) (base staged : Tree) :
    (⟨output, (output.below [scratch]).child "old", (output.below [scratch]).child "new"⟩ : Places) =
      Site.places ⟨home, output, scratch, dirs, base, staged⟩ := by
  rw [Path.child_component (by decide : IsComponent "old"),
    Path.child_component (by decide : IsComponent "new"), Path.below_below, Path.below_below]
  rfl

/-- `Scratched home output scratch base t` — the tree, right after the scratch directory was made. -/
structure Scratched (home : Place) (output : Path) (scratch : String) (base t : Tree) : Prop where
  component : IsComponent scratch
  free : base.find? (output.placeOf home ++ [scratch]) = none
  stands : t.Stands home (output.below [scratch])
  off : base.SameOff (output.placeOf home ++ [scratch]) t
  nothing : ∀ name r, t.find? (output.placeOf home ++ [scratch, name] ++ r) = none

theorem scratched_of_makeDir {base : Tree} {scratch : String} (hclosed : base.Closed)
    (hscratch : IsComponent scratch)
    (hmade : base.makeDir home (output.below [scratch]) = .ok t) :
    Scratched home output scratch base t := by
  have hplace : (output.below [scratch]).placeOf home = output.placeOf home ++ [scratch] :=
    Path.placeOf_below hscratch.downward
  have hstands := stands_makeDir hmade
  obtain ⟨_, _, hfree, rfl⟩ := makeDir_eq_ok.1 hmade
  rw [hplace] at hfree hstands ⊢
  refine ⟨hscratch, hfree, hstands, fun q hq => ?_, fun name r => ?_⟩
  · by_cases hroot : q = []
    · rw [hroot]
      rfl
    · rw [find?_put _ _ _ hroot, if_neg]
      rintro rfl
      exact hq List.prefix_rfl
  · have hbelow : output.placeOf home ++ [scratch, name] ++ r =
        (output.placeOf home ++ [scratch]) ++ (name :: r) := by simp
    rw [hbelow, find?_put _ _ _ (by simp), if_neg (by simp)]
    exact hclosed.nothing_below hfree _

namespace Scratched

variable {scratch : String} {base : Tree}

theorem placeOf (h : Scratched home output scratch base t) :
    (output.below [scratch]).placeOf home = output.placeOf home ++ [scratch] :=
  Path.placeOf_below h.component.downward

theorem stagedAt_eq (h : Scratched home output scratch base t) :
    stagedAt home (output.below [scratch]) = output.placeOf home ++ [scratch, newName] := by
  rw [stagedAt, h.placeOf, List.append_assoc]
  rfl

theorem staged_nothing (h : Scratched home output scratch base t) :
    Staged t (stagedAt home (output.below [scratch])) [] :=
  Staged.nothing (h.stagedAt_eq ▸ h.nothing newName)

theorem avoids (h : Scratched home output scratch base t) :
    (output.below [scratch]).Avoids home (stagedAt home (output.below [scratch])) := by
  rintro q hq ⟨r, rfl⟩
  have hdir := h.stands _ hq
  rw [h.stagedAt_eq, h.nothing] at hdir
  nomatch hdir

/-- Whatever is staged, the scratch directory is all that is new. -/
theorem aside (h : Scratched home output scratch base t)
    (hsame : t.SameOff (stagedAt home (output.below [scratch])) t') :
    Aside ⟨home, output, scratch, dirs, base, base⟩ t' := by
  rw [h.stagedAt_eq] at hsame
  constructor
  · show t'.find? (output.placeOf home ++ [scratch]) = _
    rw [hsame _ fun hp => absurd hp.length_le (by simp), ← h.placeOf]
    exact h.stands.place
  · refine h.off.trans (hsame.mono ⟨[newName], ?_⟩)
    rw [List.append_assoc]
    rfl

/-- What is staged does not touch the place for what is replaced. -/
theorem old_nothing (h : Scratched home output scratch base t)
    (hsame : t.SameOff (stagedAt home (output.below [scratch])) t') (r : List String) :
    t'.find? (output.placeOf home ++ ([scratch, oldName] ++ r)) = none := by
  rw [h.stagedAt_eq] at hsame
  rw [hsame _ (by rw [List.prefix_append_right_inj]; simp [newName, oldName]),
    ← List.append_assoc]
  exact h.nothing oldName r

/-- Once the files are staged, the directories may be swapped. -/
theorem ready (h : Scratched home output scratch base t)
    (hd : Deliverable f home output dirs rendered) (husable : output.isUsable = true)
    (hstands : base.Stands home output) (hclosed : base.Closed)
    (hstaged : Staged t' (output.placeOf home ++ [scratch, newName]) (allFiles rendered)) :
    Site.Ready ⟨home, output, scratch, dirs, base, t'⟩ where
  usable := husable
  stands := hstands
  closed := hclosed
  free := h.free
  scratch := h.component
  component := hd.component
  avoids := hd.avoids
  staged := ⟨_, hd.properAll, hstaged⟩

end Scratched

/-- What a write comes to: what its swap does with the files that were staged. -/
theorem steps_write_of_swap {base : Tree} {scratch : String} (hf : f.OfDisk)
    (hproper : ∀ r ∈ rendered, ∀ file ∈ r.files, file.Proper)
    (hs : Scratched home output scratch base t) {good : Unit → Tree → Prop} {bad : Tree → Prop}
    (hstage : ∀ t', t.SameOff (stagedAt home (output.below [scratch])) t' → bad t')
    (hswap : ∀ staged, Staged staged (output.placeOf home ++ [scratch, newName]) (allFiles rendered) →
      t.SameOff (stagedAt home (output.below [scratch])) staged →
      Steps f home (swap (Site.places ⟨home, output, scratch, dirs, base, staged⟩) dirs) staged good
        (fun _ => bad)) :
    Steps f home (write output (output.below [scratch]) dirs rendered) t good (fun _ => bad) := by
  unfold write
  dsimp only
  rw [places_eq home scratch dirs base t, Path.child_component (by decide : IsComponent "new")]
  refine Steps.bind ((steps_stage hf rendered hs.stands hs.avoids hproper
    hs.staged_nothing).mono (fun _ _ h => h) fun _ => hstage) ?_
  rintro _ staged ⟨hstaged, hsame⟩
  rw [hs.stagedAt_eq, List.nil_append] at hstaged
  exact Steps.adapt (hswap staged hstaged hsame)

/-- Writing into a scratch directory that has just been made. -/
theorem steps_write {base : Tree} {scratch : String}
    (h : Deliverable f home output dirs rendered) (husable : output.isUsable = true)
    (hstands : base.Stands home output) (hclosed : base.Closed)
    (hs : Scratched home output scratch base t) :
    Steps f home (write output (output.below [scratch]) dirs rendered) t
      (fun _ t' => ∃ staged done,
        Staged staged (output.placeOf home ++ [scratch, newName]) (allFiles rendered) ∧
        Site.Ready ⟨home, output, scratch, dirs, base, staged⟩ ∧
        Swapping ⟨home, output, scratch, dirs, base, staged⟩ done t' ∧ done.placed = dirs)
      (fun _ t' => Aside ⟨home, output, scratch, dirs, base, base⟩ t') := by
  refine steps_write_of_swap h.ofDisk h.proper hs (fun _ hsame => hs.aside hsame) ?_
  intro staged hstaged hsame
  have hready := hs.ready h husable hstands hclosed hstaged
  have haside : Aside ⟨home, output, scratch, dirs, base, base⟩ staged := hs.aside hsame
  refine (steps_swap h.ofDisk h.restore h.discard hready h.nodup ⟨haside.scratch, haside.off⟩
    (hs.old_nothing hsame)).mono ?_ ?_
  · rintro _ t' ⟨done, hswapping, hplaced⟩
    exact ⟨staged, done, hstaged, hready, hswapping, hplaced⟩
  · intro _ t' haside
    exact ⟨haside.scratch, haside.off⟩

/-! ## The whole delivery -/

/-- What a delivery comes to: what removing its scratch directory does behind what is written
there. -/
theorem steps_deliver_of_write (hf : f.OfDisk) (hsound : t.Sound home output)
    {good bad : Tree → Prop} (hway : ∀ base, t.WayMade home output base → bad base)
    (hwrite : ∀ {base t₁ : Tree} {k : Nat}, Made home output t base →
      base.makeDir home (output.below [scratchName k]) = .ok t₁ →
      Scratched home output (scratchName k) base t₁ →
      Steps f home (write output (output.below [scratchName k]) dirs rendered) t₁
        (fun _ t₂ => Steps f home (ExceptT.lift (Disk.discard (output.below [scratchName k])) :
          ExceptT DeliveryFault (StateM World) Unit) t₂ (fun _ => good) (fun _ => bad))
        (fun _ t₂ => Steps f home (ExceptT.lift (Disk.discard (output.below [scratchName k])) :
          ExceptT DeliveryFault (StateM World) Unit) t₂ (fun _ => bad) (fun _ => bad))) :
    Steps f home (deliver output dirs rendered) t
      (fun files t' => files = written output rendered ∧ good t') (fun _ => bad) := by
  refine Steps.bind (Steps.adapt ((steps_ensureDirs hf output).mono (fun _ _ h => h)
    fun _ _ h => hway _ h.way)) ?_
  intro _ base hmade
  refine Steps.bind (Steps.adapt ((steps_makeScratch output).mono (fun _ _ h => h) ?_)) ?_
  · rintro _ t' ⟨rfl, _⟩
    exact hway _ hmade.way
  · intro scratch t₁ hscratch
    obtain ⟨name, rfl, hscratchMade, k, rfl⟩ := makeScratch_eq_ok hscratch
    have hs := scratched_of_makeDir (hmade.sound hsound).closed (isComponent_scratchName k)
      hscratchMade
    refine Steps.bind (Steps.lift_run (hwrite hmade hscratchMade hs)) ?_
    rintro (e | _) t₂ hsettled
    · exact Steps.bind hsettled fun _ _ h => Steps.throw h
    · exact Steps.bind hsettled fun _ _ h => Steps.pure ⟨rfl, h⟩

theorem steps_deliver (h : Deliverable f home output dirs rendered) (hsound : t.Sound home output) :
    Steps f home (deliver output dirs rendered) t
      (fun files t' => files = written output rendered ∧ ∃ base, Made home output t base ∧
        Delivered (output.placeOf home) dirs (allFiles rendered) base t')
      (fun _ t' => t.WayMade home output t') := by
  refine steps_deliver_of_write h.ofDisk hsound (fun _ hway => hway) ?_
  intro base t₁ k hmade hscratch hs
  have hfits := (makeDir_eq_ok.1 hscratch).1
  have hbase := hmade.sound hsound
  -- The scratch directory goes, whatever it holds.
  have hgone : ∀ {t₂ : Tree}, t₂.Stands home output →
      t₂.find? (output.placeOf home ++ [scratchName k]) = some .directory →
      ∀ q, (t₂.discard home (output.below [scratchName k])).find? q =
        if output.placeOf home ++ [scratchName k] <+: q then none else t₂.find? q := by
    intro t₂ hstands hdir q
    by_cases hroot : q = []
    · rw [hroot, if_neg (by simp)]
      rfl
    · rw [find?_discard hfits (reaches_below_one hstands hs.component.notUp)
        (Path.isNamed_below hs.component.downward (by simp)) (by rw [hs.placeOf]; exact hdir) hroot,
        hs.placeOf]
  refine (steps_write h hmade.fits.usable hmade.stands hbase.closed hs).mono ?_ ?_
  · rintro _ t₂ ⟨staged, done, hstaged, hready, hswapping, hplaced⟩
    refine (steps_discard h.discard _).mono ?_ fun _ _ h => h
    rintro _ t₃ rfl
    exact ⟨base, hmade, delivered_of_swapping hready hswapping hplaced hstaged
      (hgone (hswapping.stands hready) hswapping.scratch)⟩
  · intro _ t₂ haside
    have hstands : t₂.Stands home output :=
      haside.off.stands hmade.stands (hbase.closed.avoids hmade.stands hs.free)
    refine (steps_discard h.discard _).mono ?_ fun _ _ h => h
    rintro _ t₃ rfl
    refine hmade.way.trans fun q => Or.inl ?_
    rw [hgone hstands haside.scratch]
    by_cases hq : output.placeOf home ++ [scratchName k] <+: q
    · obtain ⟨r, rfl⟩ := hq
      rw [if_pos (List.prefix_append _ _), hbase.closed.nothing_below hs.free]
    · rw [if_neg hq]
      exact haside.off q hq

end Delivery

end Bindery
