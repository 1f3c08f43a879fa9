/-
  WHERE A DELIVERY WRITES: below the output directory, and nowhere else.

  Three views of a path have to agree.  The check of the layout is made on its normal form, staging
  adds the text itself to the staging directory, and a swap takes directories by their names alone.
  What the check lets through is staged strictly below a directory that the swap takes
  (`StagedBelow`).  And every operation of a delivery acts on paths that lead down from the output
  directory (`Path.IsUnder`), so that all else is kept (`Tree.KeptOutside`), whatever stands there
  before and whatever fails.
-/
import Bindery.Proofs.Disk.Touching
import Bindery.Proofs.Job.Failure
import Bindery.Proofs.Job.LetThrough

namespace Bindery

open Bindery.Tree

/-! ## Paths that lead down from another -/

/-- One name in a directory, as paths have it: not empty, no dots that mean another directory, and
no slash. -/
structure IsSingle (name : String) : Prop where
  nonempty : name ≠ ""
  notHere : name ≠ "."
  notUp : name ≠ upName
  noSlash : '/' ∉ name.toList

/-- `p.IsUnder output` — the path is the other with names behind it that lead down only. -/
def Path.IsUnder (p output : Path) : Prop :=
  ∃ names, names ≠ [] ∧ Downward names ∧ p = output.below names

theorem isBelow_iff {a q : Place} : isBelow a q = true ↔ a <+: q ∧ a ≠ q := by
  simp [isBelow]

theorem IsSingle.downward {name : String} (h : IsSingle name) : Downward [name] :=
  List.forall_mem_singleton.2 h.notUp

namespace Path

variable {home : Place} {output p : Path} {name : String} {names : List String}

theorem child_single (h : IsSingle name) : p.child name = p.below [name] := by
  have hname := ofString_name h.nonempty h.notHere h.noSlash
  rw [child_eq_below (by rw [hname]; rfl), hname]

theorem isUnder_child (h : IsSingle name) : (output.child name).IsUnder output :=
  ⟨[name], List.cons_ne_nil _ _, h.downward, child_single h⟩

namespace IsUnder

theorem below (h : p.IsUnder output) (hdown : Downward names) : (p.below names).IsUnder output := by
  obtain ⟨front, hne, hfront, rfl⟩ := h
  refine ⟨front ++ names, fun hnil => hne (List.append_eq_nil_iff.1 hnil).1, ?_, below_below⟩
  exact List.forall_mem_append.2 ⟨hfront, hdown⟩

theorem child (h : p.IsUnder output) (hname : IsSingle name) : (p.child name).IsUnder output := by
  rw [child_single hname]
  exact h.below hname.downward

/-- Such a path leads strictly below the other. -/
theorem place (h : p.IsUnder output) {q : Place} (hq : p.placeOf home <+: q) :
    isBelow (output.placeOf home) q = true := by
  obtain ⟨names, hne, hdown, rfl⟩ := h
  rw [placeOf_below hdown] at hq
  refine isBelow_iff.2 ⟨(List.prefix_append _ _).trans hq, fun hsame => hne ?_⟩
  rw [← hsame] at hq
  exact List.append_right_eq_self.1 (List.IsPrefix.eq_of_length hq
    (Nat.le_antisymm hq.length_le (by simp)))

/-- It leads where the other leads, and then strictly below it. -/
theorem visits (h : p.IsUnder output) {q : Place} (hq : p.Visits home q) :
    output.Visits home q ∨ isBelow (output.placeOf home) q = true := by
  obtain ⟨names, -, hdown, rfl⟩ := h
  rcases (visits_below hdown).1 hq with hq | ⟨front, _, rfl⟩
  · exact Or.inl hq
  · by_cases hfront : front = []
    · rw [hfront, List.append_nil]
      exact Or.inl (output.visits_placeOf home)
    · exact Or.inr (isBelow_iff.2 ⟨List.prefix_append _ _, fun h => hfront (by simpa using h)⟩)

end IsUnder

end Path

/-- `t.KeptOutside home output t'` — all that is not strictly below the output directory is in `t'`
as in `t`, but for directories that were made on the way there. -/
def Tree.KeptOutside (t : Tree) (home : Place) (output : Path) (t' : Tree) : Prop :=
  t.Touched (fun q => isBelow (output.placeOf home) q = true) (output.Visits home) t'

/-! ## Staging -/

/-- The files for the target of an emitter are all let through by it. -/
structure Emitter.Passes (e : Emitter) (r : Rendered) : Prop where
  target : e.target = r.target
  check : e.checkPaths r.files = .ok ()

/-- The files of each target are let through by an emitter of that target. -/
def Passed (es : List Emitter) (rendered : List Rendered) : Prop :=
  ∀ r ∈ rendered, ∃ e ∈ es, e.Passes r

/-- What is generated by the emitters that are left is let through with what was before. -/
theorem passed_of_renderAll {model : Model} {options : Options} {table : ErrorTable}
    {es left : List Emitter} {done rendered : List Rendered} (hleft : ∀ e ∈ left, e ∈ es)
    (h : renderAll model options table left done = .ok rendered) (hdone : Passed es done) :
    Passed es rendered := by
  induction left generalizing done with
  | nil =>
    cases h
    exact hdone
  | cons e left ih =>
    obtain ⟨he, hleft⟩ := List.forall_mem_cons.1 hleft
    unfold renderAll at h
    rcases hrender : e.render model options table with fault | files <;> rw [hrender] at h
    · cases h
    · refine ih hleft h fun r hr => ?_
      rcases mem_put hr with rfl | hr
      · exact ⟨e, he, rfl, (render_eq_ok.1 hrender).2⟩
      · exact hdone r hr

/-- What a job generates is let through. -/
theorem passed_of_emitAt [MarkupReader] {job : Job} {t : Tree} {home : Place} {p : Progress}
    {rendered : List Rendered} (h : job.emitAt t home p = .ok rendered) :
    Passed job.emitters rendered := by
  unfold Job.emitAt at h
  cases hsource : job.sourceAt t home p with
  | error e =>
    rw [hsource] at h
    nomatch h
  | ok meant =>
    rw [hsource] at h
    exact passed_of_renderAll (fun _ he => he) (mapError_eq_ok.1 h) fun _ hr => (nomatch hr)

namespace Delivery

variable {f : Failures} {home : Place} {t t₀ : Tree} {root output old new : Path}
  {spot way : Place → Prop} {file : Source.File} {rendered : List Rendered}

section

variable (h : t₀.Touched spot way t)
include h

/-- One file touches the directories above its path, and what its path leads to.  It stands there
when all has gone well, and no other file goes. -/
theorem touched_stageFile
    (hdirs : ∀ q, (root.child file.path).parent.Visits home q → way q ∨ spot q)
    (hspot : spot ((root.child file.path).placeOf home)) :
    Steps f home (stageFile root file) t
      (fun _ t' => t₀.Touched spot way t' ∧ t'.HasFile ((root.child file.path).placeOf home) ∧
        ∀ q, t.HasFile q → t'.HasFile q)
      (fun _ t' => t₀.Touched spot way t') := by
  unfold stageFile
  dsimp only
  refine Steps.bind ((steps_ensureDirs_way _).mono (fun _ _ hway => hway)
    fun _ _ hway => h.trans (hway.touched hdirs)) ?_
  intro _ made hway
  have hmade : t₀.Touched spot way made := h.trans (hway.touched hdirs)
  refine Steps.ite (fun _ => ?_) fun _ => ?_
  · refine (touched_write hmade hspot _).mono ?_ fun _ _ h => h
    rintro _ t' ⟨htouched, hat, hkept⟩
    exact ⟨htouched, hat, fun q ⟨text, hq⟩ => hkept q ⟨text, hway.keeps hq⟩⟩
  · exact Steps.bind ((touched_write hmade hspot _).mono (fun _ _ h => h.1) fun _ _ h => h)
      fun _ _ htouched => Steps.throw htouched

theorem touched_stageFiles (files : List Source.File)
    (hdirs : ∀ file ∈ files, ∀ q, (root.child file.path).parent.Visits home q → way q ∨ spot q)
    (hspot : ∀ file ∈ files, spot ((root.child file.path).placeOf home)) :
    Steps f home (stageFiles root files) t
      (fun _ t' => t₀.Touched spot way t' ∧
        (∀ file ∈ files, t'.HasFile ((root.child file.path).placeOf home)) ∧
        ∀ q, t.HasFile q → t'.HasFile q)
      (fun _ t' => t₀.Touched spot way t') := by
  induction files generalizing t with
  | nil => exact Steps.pure ⟨h, fun _ hfile => (nomatch hfile), fun _ hq => hq⟩
  | cons file files ih =>
    obtain ⟨hdir, hdirs⟩ := List.forall_mem_cons.1 hdirs
    obtain ⟨hat, hspot⟩ := List.forall_mem_cons.1 hspot
    refine Steps.bind (touched_stageFile h hdir hat) ?_
    rintro _ t' ⟨htouched, hfile, hkept⟩
    refine (ih htouched hdirs hspot).mono ?_ fun _ _ h => h
    rintro _ t'' ⟨htouched', hfiles, hkept'⟩
    exact ⟨htouched', List.forall_mem_cons.2 ⟨hkept' _ hfile, hfiles⟩,
      fun q hq => hkept' q (hkept q hq)⟩

theorem touched_stage (rendered : List Rendered)
    (hdirs : ∀ r ∈ rendered, ∀ file ∈ r.files, ∀ q,
      (root.child file.path).parent.Visits home q → way q ∨ spot q)
    (hspot : ∀ r ∈ rendered, ∀ file ∈ r.files, spot ((root.child file.path).placeOf home)) :
    Steps f home (stage root rendered) t
      (fun _ t' => t₀.Touched spot way t' ∧
        (∀ r ∈ rendered, ∀ file ∈ r.files, t'.HasFile ((root.child file.path).placeOf home)) ∧
        ∀ q, t.HasFile q → t'.HasFile q)
      (fun _ t' => t₀.Touched spot way t') := by
  induction rendered generalizing t with
  | nil => exact Steps.pure ⟨h, fun _ hr => (nomatch hr), fun _ hq => hq⟩
  | cons r rendered ih =>
    obtain ⟨hdir, hdirs⟩ := List.forall_mem_cons.1 hdirs
    obtain ⟨hat, hspot⟩ := List.forall_mem_cons.1 hspot
    refine Steps.bind (Steps.adapt (touched_stageFiles h r.files hdir hat)) ?_
    rintro _ t' ⟨htouched, hfiles, hkept⟩
    refine (ih htouched hdirs hspot).mono ?_ fun _ _ h => h
    rintro _ t'' ⟨htouched', hrest, hkept'⟩
    have hfiles' : ∀ file ∈ r.files, t''.HasFile ((root.child file.path).placeOf home) :=
      fun file hfile => hkept' _ (hfiles file hfile)
    exact ⟨htouched', List.forall_mem_cons.2 ⟨hfiles', hrest⟩, fun q hq => hkept' q (hkept q hq)⟩

end

/-! ## The places of staged files -/

/-- `StagedBelow dirs scratch home q` — the place is strictly below what a swap takes, by its name,
for one of the directories. -/
def StagedBelow (dirs : List String) (scratch : Path) (home q : Place) : Prop :=
  ∃ d ∈ dirs, ((scratch.child "new").child d).placeOf home = scratch.placeOf home ++ ["new", d] ∧
    isBelow (scratch.placeOf home ++ ["new", d]) q = true

variable {scratch : Path}

theorem isSingle_new : IsSingle "new" := ⟨by decide, by decide, by decide, by decide⟩

theorem isSingle_old : IsSingle "old" := ⟨by decide, by decide, by decide, by decide⟩

theorem child_passed (hproper : file.Proper) :
    (scratch.child "new").child file.path = scratch.below (newName :: file.names) := by
  rw [Path.child_single isSingle_new]
  exact child_staged hproper

/-- What is let through is staged below a directory that a swap takes. -/
theorem stagedBelow_of_passes {e : Emitter} {r : Rendered} (hsingle : ∀ d ∈ e.dirs, IsSingle d)
    (hpasses : e.Passes r) (hfile : file ∈ r.files) :
    StagedBelow e.dirs scratch home (((scratch.child "new").child file.path).placeOf home) := by
  obtain ⟨hproper, hhead⟩ := proper_of_checkPaths hpasses.check file hfile
  obtain ⟨d, hd, hhead⟩ := List.mem_map.1 hhead
  obtain ⟨top, next, rest, hnames⟩ := hproper.deep
  rw [hnames] at hhead
  obtain rfl : d = top := Option.some.inj hhead
  refine ⟨d, hd, ?_, ?_⟩
  · rw [Path.child_single (hsingle d hd), Path.child_single isSingle_new, Path.below_below]
    exact Path.placeOf_below (downward_staged (hsingle d hd).downward)
  · rw [child_passed hproper, Path.placeOf_below (downward_staged hproper.downward), hnames]
    exact isBelow_iff.2 ⟨⟨next :: rest, by simp [newName]⟩, by simp [newName]⟩

/-! ## Swapping -/

/-- What a swap has done, it has done to directories by single names. -/
structure Swapped.Single (done : Swapped) : Prop where
  taken : ∀ d ∈ done.taken, IsSingle d
  placed : ∀ d ∈ done.placed, IsSingle d

section

variable {d : String} {done : Swapped} (hold : old.IsUnder output) (hnew : new.IsUnder output)
  (h : t₀.KeptOutside home output t)

include hold h in
theorem kept_takeAway (hd : IsSingle d) (hdone : done.Single) :
    Steps f home (takeAway ⟨output, old, new⟩ d done) t
      (fun done' t' => t₀.KeptOutside home output t' ∧ done'.Single)
      (fun fault t' => t₀.KeptOutside home output t' ∧ fault.2.Single) := by
  refine Steps.adapt ?_
  dsimp only
  refine Steps.bind ((touched_isThere h _).mono (fun _ _ h => h) fun _ _ h => ⟨h, hdone⟩) ?_
  intro there t₁ h₁
  refine Steps.ite (fun _ => ?_) fun _ => Steps.pure ⟨h₁, hdone⟩
  refine Steps.bind ((touched_move h₁ (fun _ => (Path.isUnder_child hd).place)
    fun _ => (hold.child hd).place).mono (fun _ _ h => h) fun _ _ h => ⟨h, hdone⟩) ?_
  exact fun _ _ h₂ => Steps.pure
    ⟨h₂, List.forall_mem_append.2 ⟨hdone.taken, List.forall_mem_singleton.2 hd⟩, hdone.placed⟩

include hnew h in
theorem kept_putInPlace (hd : IsSingle d) (hdone : done.Single) :
    Steps f home (putInPlace ⟨output, old, new⟩ d done) t
      (fun done' t' => t₀.KeptOutside home output t' ∧ done'.Single)
      (fun fault t' => t₀.KeptOutside home output t' ∧ fault.2.Single) := by
  have hmove : ∀ {t : Tree}, t₀.KeptOutside home output t → Steps f home (do
      Disk.move (new.child d) (output.child d)
      return (⟨done.taken, done.placed ++ [d]⟩ : Swapped)) t
      (fun done' t' => t₀.KeptOutside home output t' ∧ done'.Single)
      (fun _ t' => t₀.KeptOutside home output t' ∧ done.Single) := by
    intro t h
    refine Steps.bind ((touched_move h (fun _ => (hnew.child hd).place)
      fun _ => (Path.isUnder_child hd).place).mono (fun _ _ h => h) fun _ _ h => ⟨h, hdone⟩) ?_
    exact fun _ _ h₁ => Steps.pure
      ⟨h₁, hdone.taken, List.forall_mem_append.2 ⟨hdone.placed, List.forall_mem_singleton.2 hd⟩⟩
  refine Steps.adapt ?_
  dsimp only
  refine Steps.bind ((touched_isThere h _).mono (fun _ _ h => h) fun _ _ h => ⟨h, hdone⟩) ?_
  intro there t₁ h₁
  refine Steps.ite (fun _ => ?_) fun _ => hmove h₁
  exact Steps.bind ((touched_makeDirs h₁ fun _ => (hnew.child hd).visits).mono (fun _ _ h => h)
    fun _ _ h => ⟨h, hdone⟩) fun _ _ h₂ => hmove h₂

include hold hnew h in
theorem kept_swapEach (names : List String) (hnames : ∀ d ∈ names, IsSingle d)
    (hdone : done.Single) :
    Steps f home (swapEach ⟨output, old, new⟩ names done) t
      (fun done' t' => t₀.KeptOutside home output t' ∧ done'.Single)
      (fun fault t' => t₀.KeptOutside home output t' ∧ fault.2.Single) := by
  induction names generalizing t done with
  | nil => exact Steps.pure ⟨h, hdone⟩
  | cons d names ih =>
    obtain ⟨hd, hnames⟩ := List.forall_mem_cons.1 hnames
    refine Steps.bind (kept_takeAway hold h hd hdone) ?_
    rintro taken t₁ ⟨h₁, htaken⟩
    refine Steps.bind (kept_putInPlace hnew h₁ hd htaken) ?_
    rintro placed t₂ ⟨h₂, hplaced⟩
    exact ih h₂ hnames hplaced

include h in
theorem kept_discardEach {ε : Type} (names : List String) (hnames : ∀ d ∈ names, IsSingle d) :
    Steps f home (ExceptT.lift (discardEach ⟨output, old, new⟩ names)) t
      (fun _ t' => t₀.KeptOutside home output t')
      (fun (_ : ε) t' => t₀.KeptOutside home output t') := by
  induction names generalizing t with
  | nil => exact Steps.pure h
  | cons d names ih =>
    obtain ⟨hd, hnames⟩ := List.forall_mem_cons.1 hnames
    exact Steps.lift_bind (touched_tryDiscard h fun _ => (Path.isUnder_child hd).place)
      fun _ _ h₁ => ih h₁ hnames

include hold h in
theorem kept_restoreEach (names : List String) (hnames : ∀ d ∈ names, IsSingle d) :
    Steps f home (restoreEach ⟨output, old, new⟩ names) t
      (fun _ t' => t₀.KeptOutside home output t') (fun _ t' => t₀.KeptOutside home output t') := by
  induction names generalizing t with
  | nil => exact Steps.pure h
  | cons d names ih =>
    obtain ⟨hd, hnames⟩ := List.forall_mem_cons.1 hnames
    exact Steps.bind (touched_restore h (fun _ => (hold.child hd).place)
      fun _ => (Path.isUnder_child hd).place) fun _ _ h₁ => ih h₁ hnames

include hold hnew h in
/-- A swap, and its undoing where the disk refuses. -/
theorem kept_swap (dirs : List String) (hdirs : ∀ d ∈ dirs, IsSingle d) :
    Steps f home (swap ⟨output, old, new⟩ dirs) t
      (fun _ t' => t₀.KeptOutside home output t') (fun _ t' => t₀.KeptOutside home output t') := by
  refine Steps.bind (touched_makeDir h fun _ => hold.visits) ?_
  intro _ t₁ h₁
  refine Steps.bind (Steps.lift_run (kept_swapEach hold hnew h₁ dirs hdirs
    ⟨fun _ hd => (nomatch hd), fun _ hd => (nomatch hd)⟩)) ?_
  rintro (⟨e, done⟩ | done) t₂ hsettled
  · obtain ⟨h₂, hdone⟩ : t₀.KeptOutside home output t₂ ∧ done.Single := hsettled
    refine Steps.ite (fun _ => ?_) fun _ => Steps.throw h₂
    refine Steps.bind (Steps.bind (kept_discardEach h₂ done.placed hdone.placed)
      fun _ _ h₃ => kept_restoreEach hold h₃ done.taken hdone.taken) ?_
    exact fun _ _ h₄ => Steps.throw h₄
  · obtain ⟨h₂, _⟩ : t₀.KeptOutside home output t₂ ∧ done.Single := hsettled
    exact Steps.pure h₂

end

/-! ## The whole delivery -/

section

variable {es : List Emitter} {scratch : Path} (hpassed : Passed es rendered)
  (h : t₀.KeptOutside home output t)
include hpassed h

theorem kept_stage (hscratch : scratch.IsUnder output) :
    Steps f home (stage (scratch.child "new") rendered) t
      (fun _ t' => t₀.KeptOutside home output t') (fun _ t' => t₀.KeptOutside home output t') := by
  have hproper : ∀ r ∈ rendered, ∀ file ∈ r.files, file.Proper := by
    intro r hr file hfile
    obtain ⟨e, _, hpasses⟩ := hpassed r hr
    exact (proper_of_checkPaths hpasses.check file hfile).1
  refine (touched_stage h rendered (fun r hr file hfile q hq => ?_) fun r hr file hfile => ?_).mono
    (fun _ _ h => h.1) fun _ _ h => h
  · have hdown := downward_staged (hproper r hr file hfile).downward
    rw [child_passed (hproper r hr file hfile), Path.parent_below (List.cons_ne_nil _ _)] at hq
    exact (hscratch.below (hdown.shorten (List.dropLast_prefix _))).visits hq
  · have hdown := downward_staged (hproper r hr file hfile).downward
    rw [child_passed (hproper r hr file hfile)]
    exact (hscratch.below hdown).place List.prefix_rfl

theorem kept_deliver {dirs : List String} (hdirs : ∀ d ∈ dirs, IsSingle d) :
    Steps f home (deliver output dirs rendered) t
      (fun _ t' => t₀.KeptOutside home output t') (fun _ t' => t₀.KeptOutside home output t') := by
  refine Steps.bind (Steps.adapt (touched_ensureDirs h fun _ => Or.inl)) ?_
  intro _ t₁ h₁
  refine Steps.bind (Steps.adapt ((steps_makeScratch output).mono (fun _ _ h => h) ?_)) ?_
  · rintro _ t₁ ⟨rfl, _⟩
    exact h₁
  intro scratch t₂ hmade
  obtain ⟨name, rfl, hmade, k, rfl⟩ := makeScratch_eq_ok hmade
  have hscratch : (output.below [scratchName k]).IsUnder output :=
    ⟨_, List.cons_ne_nil _ _, (isComponent_scratchName k).downward, rfl⟩
  have h₂ : t₀.KeptOutside home output t₂ :=
    h₁.trans ((wayMade_makeDir hmade).touched fun _ => hscratch.visits)
  refine Steps.bind (Steps.lift_run (Steps.bind (kept_stage hpassed h₂ hscratch)
    fun _ _ h₃ => Steps.adapt (kept_swap (hscratch.child isSingle_old) (hscratch.child isSingle_new)
      h₃ dirs hdirs))) ?_
  rintro (e | _) t₃ hsettled
  · have h₃ : t₀.KeptOutside home output t₃ := hsettled
    exact Steps.bind (touched_tryDiscard h₃ fun _ => hscratch.place) fun _ _ h₄ => Steps.throw h₄
  · have h₃ : t₀.KeptOutside home output t₃ := hsettled
    exact Steps.bind (touched_tryDiscard h₃ fun _ => hscratch.place) fun _ _ h₄ => Steps.pure h₄

end

/-! ## Parts of a delivery by themselves -/

/-- How staging ends in a world: its outcome, and the world afterwards. -/
def stagedIn (new : Path) (rendered : List Rendered) (w : World) :
    Except DeliveryFault Unit × World :=
  (stage new rendered : ExceptT DeliveryFault (StateM World) Unit) w

/-- How a swap ends in a world. -/
def swappedIn (places : Places) (dirs : List String) (w : World) : Except DiskFault Unit × World :=
  (swap places dirs : ExceptT DiskFault (StateM World) Unit) w

/-- `StagedInside es rendered scratch w` — in this world, files are staged below the directories
that a swap takes: their paths lead there, they are there when staging has succeeded, and no other
file is new, however staging ends. -/
structure StagedInside (es : List Emitter) (rendered : List Rendered) (scratch : Path) (w : World) :
    Prop where
  below : ∀ r ∈ rendered, ∀ e ∈ es, e.Passes r → ∀ file ∈ r.files,
    StagedBelow e.dirs scratch w.home (((scratch.child "new").child file.path).placeOf w.home)
  there : (stagedIn (scratch.child "new") rendered w).1 = .ok () →
    ∀ r ∈ rendered, ∀ file ∈ r.files, (stagedIn (scratch.child "new") rendered w).2.tree.HasFile
      (((scratch.child "new").child file.path).placeOf w.home)
  others : ∀ q text,
    (stagedIn (scratch.child "new") rendered w).2.tree.find? q = some (.file text) →
    w.tree.find? q = some (.file text) ∨
      ∃ r ∈ rendered, ∃ e ∈ es, e.Passes r ∧ StagedBelow e.dirs scratch w.home q

theorem stagedInside {es : List Emitter} (hsingle : ∀ e ∈ es, ∀ d ∈ e.dirs, IsSingle d)
    (hpassed : Passed es rendered) (scratch : Path) (w : World) :
    StagedInside es rendered scratch w := by
  have hbelow : ∀ r ∈ rendered, ∀ e ∈ es, e.Passes r → ∀ file ∈ r.files,
      StagedBelow e.dirs scratch w.home (((scratch.child "new").child file.path).placeOf w.home) :=
    fun _ _ e he hpasses _ hfile => stagedBelow_of_passes (hsingle e he) hpasses hfile
  have hstart : w.tree.Touched
      (fun q => ∃ r ∈ rendered, ∃ e ∈ es, e.Passes r ∧ StagedBelow e.dirs scratch w.home q)
      (fun _ => True) w.tree := Touched.refl
  have hend : Settles _ _ (stagedIn (scratch.child "new") rendered w).1
      (stagedIn (scratch.child "new") rendered w).2.tree :=
    (touched_stage hstart rendered (fun _ _ _ _ _ _ => Or.inl trivial) fun r hr file hfile => by
      obtain ⟨e, he, hpasses⟩ := hpassed r hr
      exact ⟨r, hr, e, he, hpasses, hbelow r hr e he hpasses file hfile⟩).elim
  rcases hout : (stagedIn (scratch.child "new") rendered w).1 with e | _ <;> rw [hout] at hend
  · refine ⟨hbelow, fun hok => ?_, fun q text hfile => hend.file hfile⟩
    rw [hout] at hok
    nomatch hok
  · exact ⟨hbelow, fun _ => hend.2.1, fun q text hfile => hend.1.file hfile⟩

end Delivery

namespace Job

open Delivery

/-- Where the directories of all emitters are single names, what is emitted is confined.  A path is
let through just if it is confined by its text.  What has been let through is staged below the
directories that a swap takes, in any scratch directory.  And neither staging in a scratch directory
of the output, nor swapping from there, nor the run as a whole changes anything outside the output
directory, whatever the disk holds and however they end. -/
theorem emitted_paths_confined [MarkupReader] (job : Job)
    (hsingle : ∀ e ∈ job.emitters, ∀ d ∈ e.dirs, IsSingle d) :
    (∀ e ∈ job.emitters, ∀ rel, e.checkPath rel = .ok () ↔ Confined e.dirs rel) ∧
    (∀ rendered, Passed job.emitters rendered → ∀ scratch w,
      StagedInside job.emitters rendered scratch w) ∧
    (∀ scratch : Path, scratch.IsUnder job.output → ∀ w : World,
      (∀ rendered, Passed job.emitters rendered → w.tree.KeptOutside w.home job.output
        (stagedIn (scratch.child "new") rendered w).2.tree) ∧
      w.tree.KeptOutside w.home job.output
        (swappedIn ⟨job.output, scratch.child "old", scratch.child "new"⟩ job.dirs w).2.tree) ∧
    (∀ (p : Progress) (w : World),
      w.tree.KeptOutside w.home job.output (job.runIn p w).2.tree) := by
  have hdirs : ∀ d ∈ job.dirs, IsSingle d := by
    intro d hd
    obtain ⟨e, he, hd⟩ := List.mem_flatMap.1 hd
    exact hsingle e he d hd
  refine ⟨fun _ _ _ => checkPath_eq_ok, fun _ hpassed scratch w =>
    stagedInside hsingle hpassed scratch w, fun scratch hscratch w => ⟨fun _ hpassed => ?_, ?_⟩,
    fun p w => ?_⟩
  · exact (kept_stage hpassed Touched.refl hscratch).always
  · have hold := hscratch.child isSingle_old
    have hnew := hscratch.child isSingle_new
    exact (kept_swap hold hnew Touched.refl job.dirs hdirs).always
  · have hends : Ends _ _ (job.runIn p w).1 (job.runIn p w).2.tree :=
      (runs_run fun rendered hemit => kept_deliver (passed_of_emitAt hemit) Touched.refl
        hdirs).elim ⟨rfl, rfl, rfl⟩
    rcases hrun : (job.runIn p w).1 with ⟨e | files, p'⟩ <;> rw [hrun] at hends
    · rcases hends with ⟨_, hsame, _⟩ | ⟨_, _, _, _, hkept, _⟩
      · rw [hsame]
        exact Touched.refl
      · exact hkept
    · obtain ⟨_, _, _, hkept⟩ := hends
      exact hkept

/-- A job whose one file has a path with needless slashes and dots: the path is let through, one
that climbs and comes back is not; the file is staged, and delivered, where its names say; and what
is beside the output directory, under the same name, stays. -/
theorem emitted_paths_confined_sample :
    (sampleEmitter ["d/.//b/"]).checkPath "d/.//b/" = .ok () ∧
      (sampleEmitter ["d/.//b/"]).checkPath "d/../d/b" ≠ .ok () ∧
    (stagedIn (.ofString "out/s/new") [⟨"t", [⟨"d/.//b/", "x", true⟩]⟩]
      (.ofTree sampleTree ["w"])).2.tree.HasFile ["w", "out", "s", "new", "d", "b"] ∧
    ((sampleJob "out" ["d/.//b/"]).runIn .start (.ofTree sampleTree ["w"])).2.tree.HasFile
      ["w", "out", "d", "b"] ∧
    ((sampleJob "out" ["d/.//b/"]).runIn .start (.ofTree sampleTree ["w"])).2.tree.find?
      ["w", "d", "a"] = some (.file "old") := by
  have hsingle : ∀ e ∈ (sampleJob "out" ["d/.//b/"]).emitters, ∀ d ∈ e.dirs, IsSingle d := by
    intro e he d hd
    obtain rfl := List.mem_singleton.1 he
    obtain rfl := List.mem_singleton.1 hd
    exact ⟨by decide, by decide, by decide, by decide⟩
  obtain ⟨hcheck, hstaged, _, hrun⟩ := emitted_paths_confined (sampleJob "out" ["d/.//b/"]) hsingle
  have hlet : (sampleEmitter ["d/.//b/"]).checkPath "d/.//b/" = .ok () :=
    (hcheck _ (List.mem_singleton_self _) _).2 ⟨by decide, by decide, by decide, "d", by decide⟩
  have hpassed : Passed (sampleJob "out" ["d/.//b/"]).emitters
      [⟨"t", [⟨"d/.//b/", "x", true⟩]⟩] := by
    intro r hr
    obtain rfl := List.mem_singleton.1 hr
    exact ⟨_, List.mem_singleton_self _, rfl, bind_eq_ok.2 ⟨_, hlet, rfl⟩⟩
  refine ⟨hlet, fun h => ?_, ?_, ⟨"d/.//b/", by decide +kernel⟩, ?_⟩
  · exact ((hcheck _ (List.mem_singleton_self _) _).1 h).downward (by decide)
  · have hthere := (hstaged _ hpassed (.ofString "out/s") (.ofTree sampleTree ["w"])).there
    have hnew : (Path.ofString "out/s").child "new" = .ofString "out/s/new" := by decide
    have hplace : ((Path.ofString "out/s/new").child "d/.//b/").placeOf ["w"] =
        ["w", "out", "s", "new", "d", "b"] := by decide
    have hstages : (stagedIn (.ofString "out/s/new") [⟨"t", [⟨"d/.//b/", "x", true⟩]⟩]
        (.ofTree sampleTree ["w"])).1.isOk = true := by decide +kernel
    obtain ⟨⟨⟩, hok⟩ := exists_eq_ok hstages
    rw [hnew] at hthere
    have hfile := hthere hok _ (List.mem_singleton_self _) _ (List.mem_singleton_self _)
    exact hplace ▸ hfile
  · rcases hrun .start (.ofTree sampleTree ["w"]) ["w", "d", "a"] with hsame | hin | ⟨_, hnone, _⟩
    · rw [hsame]
      decide
    · exact absurd hin (by decide)
    · exact absurd hnone (by decide)

end Job

end Bindery
