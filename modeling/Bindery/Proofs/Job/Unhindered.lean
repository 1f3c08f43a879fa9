/-
  ON A QUIET DISK a delivery has few reasons to fail.

  Where nothing is refused and no file is in the way of another (`Separate`), each step of a delivery
  finds what it needs: the directories that it makes are free, and what it moves is there and moves
  to where nothing is.  So it fails only because a name is too long or a text cannot be encoded
  (`only_deliver`).  The invariants are those of the steps themselves: each step is asked why it may
  fail in the tree that the steps before it have left.
-/
import Bindery.Proofs.Job.Delivering

namespace Bindery.Delivery

open Bindery.Tree

/-! ## Staging -/

/-- `Separate files` — files that can all be written, whichever is written first. -/
structure Separate (files : List Source.File) : Prop where
  noNul : ∀ f ∈ files, ∀ name ∈ f.names, '\x00' ∉ name.toList
  /-- No file is where another needs a directory. -/
  apart : ∀ f ∈ files, ∀ g ∈ files, f.names <+: g.names → f.names = g.names

theorem Separate.subset {files files' : List Source.File} (h : Separate files)
    (hsub : files' ⊆ files) : Separate files' :=
  ⟨fun f hf => h.noNul f (hsub hf), fun f hf g hg => h.apart f (hsub hf) g (hsub hg)⟩

/-- Why files may not be written. -/
def Unwritable (files : List Source.File) (e : DiskFault) : Prop :=
  e = .nameTooLong ∨ e = .unencodable ∧ ∃ file ∈ files, file.encodable = false

theorem Unwritable.mono {files files' : List Source.File} {e : DiskFault} (h : Unwritable files e)
    (hsub : files ⊆ files') : Unwritable files' e :=
  h.imp_right fun ⟨he, file, hfile, henc⟩ => ⟨he, file, hsub hfile, henc⟩

variable {f : Failures} {home : Place} {t : Tree} {base : Path} {file : Source.File}
  {done : List Source.File}

/-- What has been staged is not in the way of one more file. -/
theorem clear_staged {names : List String} (hbase : t.Stands home base) (hdown : Downward names)
    (hstaged : Staged t (stagedAt home base) done) (h : ∀ g ∈ done, ¬g.names <+: names) :
    t.Clear home (base.below (newName :: names)) := by
  intro q text hq hfile
  rcases (Path.visits_below (downward_staged hdown)).1 hq with hq | ⟨front, hfront, rfl⟩
  · exact hbase.clear q text hq hfile
  · rcases List.prefix_cons_iff.1 hfront with rfl | ⟨r, rfl, hr⟩
    · rw [List.append_nil, hbase.place] at hfile
      nomatch hfile
    · rw [← stagedAt_append] at hfile
      obtain ⟨g, hg, rfl, _⟩ := hstaged.ofFile r text hfile
      exact h g hg hr

variable (hf : f.Quiet)
include hf

theorem only_stageFile (husable : base.isUsable = true) (hbase : t.Stands home base)
    (hproper : file.Proper) (hstaged : Staged t (stagedAt home base) done)
    (hseparate : Separate (done ++ [file])) :
    Only f home (stageFile (base.below [newName]) file) t (Unwritable [file]) := by
  have hmem : file ∈ done ++ [file] := List.mem_append_right _ (List.mem_singleton_self file)
  have hne := hproper.names_ne_nil
  have hdrop := hproper.downward_dropLast
  have husableBelow : ∀ {names : List String}, names <+: file.names →
      (base.below (newName :: names)).isUsable = true := by
    intro names hp
    refine Path.isUsable_below.2 ⟨husable, List.forall_mem_cons.2 ⟨by decide, fun name hname => ?_⟩⟩
    exact hseparate.noNul file hmem name (hp.subset hname)
  have hstrict : ∀ {g}, g ∈ done → ¬(g.names <+: file.names ∧ g.names ≠ file.names) :=
    fun hg h => h.2 (hseparate.apart _ (List.mem_append_left _ hg) _ hmem h.1)
  have hclear : t.Clear home (base.below (newName :: file.names.dropLast)) :=
    clear_staged hbase hdrop hstaged fun g hg hp => hstrict hg ((prefix_dropLast_iff hne).1 hp)
  unfold stageFile
  rw [child_staged hproper]
  dsimp only
  rw [parent_staged hproper]
  refine Only.bind (steps_ensureDirs hf.ofDisk _) ((only_ensureDirs hf
    (husableBelow (List.dropLast_prefix _)) hclear).mono fun _ h => Or.inl h) ?_
  intro _ made hmade
  have hwrite : ∀ text, Only f home (Disk.write (base.below (newName :: file.names)) text) made
      (· = .nameTooLong) := by
    intro text
    refine only_write hf (husableBelow List.prefix_rfl) ?_ ?_
    · have hopen := hmade.stands.reaches_concat (file.names.getLast hne)
      rw [List.append_assoc, List.cons_append, List.dropLast_concat_getLast] at hopen
      exact hopen
    · -- A directory is there for the sake of a file below it, or because it was just made.
      rw [placeOf_staged hproper]
      intro hdir
      rcases wayMade_staged hbase hdrop hmade.way (stagedAt home base ++ file.names) with
        hsame | ⟨r, hr, heq, _⟩
      · rw [hsame] at hdir
        obtain ⟨g, hg, hp, hne'⟩ := (hstaged.directory _).1 hdir
        exact hne' (hseparate.apart _ hmem _ (List.mem_append_left _ hg) hp)
      · rw [← List.append_cancel_left heq] at hr
        exact ((prefix_dropLast_iff hne).1 hr).2 rfl
  refine Steps.ite (fun _ => (hwrite _).mono fun _ h => Or.inl h) fun henc => ?_
  refine Only.bind (Bindery.steps_write _ _) ((hwrite _).mono fun _ h => Or.inl h) fun _ _ _ => ?_
  exact Steps.throw (Or.inr ⟨rfl, file, List.mem_singleton_self file, by simpa using henc⟩)

theorem only_stageFiles (files : List Source.File) (husable : base.isUsable = true)
    (hbase : t.Stands home base) (havoid : base.Avoids home (stagedAt home base))
    (hproper : ∀ file ∈ files, file.Proper) (hstaged : Staged t (stagedAt home base) done)
    (hseparate : Separate (done ++ files)) :
    Only f home (stageFiles (base.below [newName]) files) t (Unwritable files) := by
  induction files generalizing t done with
  | nil => exact Only.pure ()
  | cons file files ih =>
    obtain ⟨hfile, hfiles⟩ := List.forall_mem_cons.1 hproper
    rw [← List.singleton_append, ← List.append_assoc] at hseparate
    refine Only.bind (steps_stageFile hf.ofDisk hbase hfile hstaged)
      ((only_stageFile hf husable hbase hfile hstaged
        (hseparate.subset (List.subset_append_left _ _))).mono fun e h => ?_) ?_
    · exact h.mono (List.cons_subset_cons file (List.nil_subset _))
    · rintro _ t' ⟨hstaged', hsame⟩
      refine (ih (hsame.stands hbase havoid) hfiles hstaged' hseparate).mono fun e h => ?_
      exact h.mono (List.subset_cons_self _ _)

theorem only_stage (rendered : List Rendered) (husable : base.isUsable = true)
    (hbase : t.Stands home base) (havoid : base.Avoids home (stagedAt home base))
    (hproper : ∀ r ∈ rendered, ∀ file ∈ r.files, file.Proper)
    (hstaged : Staged t (stagedAt home base) done)
    (hseparate : Separate (done ++ allFiles rendered)) :
    Only f home (stage (base.below [newName]) rendered) t
      (fun e => ∃ target cause, e = .unwritten target cause ∧
        Unwritable (allFiles rendered) cause) := by
  induction rendered generalizing t done with
  | nil => exact Only.pure ()
  | cons r rendered ih =>
    obtain ⟨hr, hrest⟩ := List.forall_mem_cons.1 hproper
    rw [allFiles, List.flatMap_cons, ← List.append_assoc] at hseparate
    refine Only.adapt_bind (steps_stageFiles hf.ofDisk r.files hbase havoid hr hstaged)
      ((only_stageFiles hf r.files husable hbase havoid hr hstaged
        (hseparate.subset (List.subset_append_left _ _))).mono fun e h => ?_) ?_
    · exact ⟨_, e, rfl, h.mono (List.subset_append_left _ _)⟩
    · rintro _ t' ⟨hstaged', hsame⟩
      refine (ih (hsame.stands hbase havoid) hrest hstaged' hseparate).mono ?_
      rintro _ ⟨target, cause, rfl, h⟩
      exact ⟨target, cause, rfl, h.mono (List.subset_append_right _ _)⟩

/-! ## Swapping -/

omit hf

variable {s : Site} {done : Swapped} {n : String}

/-- The way to a directory that may have to be staged is clear. -/
theorem clear_new (hs : s.Ready) (h : Swapping s done t) (hahead : Ahead s done t)
    (hn : n ∈ s.dirs) (hnp : n ∉ done.placed) :
    t.Clear s.home (s.output.below [s.scratch, newName, n]) := by
  obtain ⟨files, hproper, hstaged⟩ := hs.staged
  intro q text hq hfile
  rcases (Path.visits_below (hs.downward_scratch (by decide) hn)).1 hq with
    hq | ⟨front, hfront, rfl⟩
  · exact (h.stands hs).clear q text hq hfile
  · rcases prefix_three hfront with rfl | rfl | rfl | rfl
    · rw [List.append_nil, (h.stands hs).place] at hfile
      nomatch hfile
    · exact nomatch hfile.symm.trans h.scratch
    · rcases hahead.new with hnew | hnew
      · have hroot := hfile.symm.trans hnew
        obtain ⟨g, hg, hnames, _⟩ := hstaged.ofFile [] text (by
          rw [List.append_nil]
          exact hroot.symm)
        obtain ⟨top, next, rest, hdeep⟩ := (hproper g hg).deep
        rw [hdeep] at hnames
        nomatch hnames
      · exact nomatch hfile.symm.trans hnew
    · have hview := hahead.staged n hnp []
      rw [List.append_nil] at hview
      exact hs.shallow n text (hview.symm.trans hfile)

/-- Where no directory is seen among the staged ones, none is there. -/
theorem free_new (hs : s.Ready) (h : Swapping s done t) (hahead : Ahead s done t)
    (hn : n ∈ s.dirs) (hnp : n ∉ done.placed)
    (hlook : t.look s.home (s.output.below [s.scratch, newName, n]) = .ok none) :
    t.find? (s.place [s.scratch, newName, n]) = none := by
  obtain ⟨files, _, hstaged⟩ := hs.staged
  have hview := hahead.staged n hnp []
  rw [List.append_nil] at hview
  by_contra hthere
  have hdir : s.staged.find? (s.place [s.scratch, newName] ++ [n]) = some .directory := by
    rw [Site.place_append]
    show s.staged.find? (s.place [s.scratch, newName, n]) = _
    rw [hview] at hthere
    rcases hentry : s.staged.find? (s.place [s.scratch, newName, n]) with _ | text | _
    · exact absurd hentry hthere
    · exact absurd hentry (hs.shallow n text)
    · rfl
  -- What leads to a staged directory is there, too, so the look went all the way.
  obtain ⟨g, hg, hp, _⟩ := (hstaged.directory [n]).1 hdir
  have hroot : s.staged.find? (s.place [s.scratch, newName]) = some .directory := by
    have hroot := (hstaged.directory []).2 ⟨g, hg, List.nil_prefix, fun hnil => ?_⟩
    · rw [List.append_nil] at hroot
      exact hroot
    · rw [← hnil] at hp
      exact absurd hp.length_le (by simp)
  have hnew : t.find? (s.place [s.scratch, newName]) = some .directory :=
    hahead.new.elim (fun hsame => hsame.trans hroot) id
  have hnone := look_eq_none (hs.usable_scratch (by decide) hn)
    (hs.reaches_scratch (by decide) hn (h.stands hs) h.scratch hnew) hlook
  rw [hs.placeOf_below (hs.downward_scratch (by decide) hn)] at hnone
  exact hthere hnone

include hf

theorem only_takeAway (hs : s.Ready) (h : Swapping s done t) (hahead : Ahead s done t)
    (hn : n ∈ s.dirs) (hscratch : n ≠ s.scratch) (hfree : n ∉ done.taken ++ done.placed) :
    Only f s.home (takeAway s.places n done) t (fun e => e.1 = .nameTooLong) := by
  have hdown := hs.downward hn
  have hdown' := hs.downward_scratch (by decide : oldName ≠ upName) hn
  refine Only.adapt ?_
  dsimp only
  rw [hs.child_output hn, hs.child_old hn]
  refine Only.bind (steps_look_map _) only_look_map ?_
  rintro b t ⟨rfl, k, hlook, rfl⟩
  refine Steps.ite (fun hk => ?_) fun _ => Only.pure _
  obtain ⟨kind, rfl⟩ := Option.isSome_iff_exists.1 hk
  obtain ⟨_, hopen, hfind⟩ := look_eq_some.1 hlook
  refine Only.bind (steps_move _ _) (only_move hf (hs.usable_below hn)
    (hs.usable_scratch (by decide) hn) hopen
    (hs.reaches_scratch (by decide) hn (h.stands hs) h.scratch h.old)
    (Path.isNamed_below hdown (by simp)) (Path.isNamed_below hdown' (by simp)) ?_ ?_ ?_)
    fun _ _ _ => Only.pure _
  · obtain ⟨entry, hentry, _⟩ := Option.map_eq_some_iff.1 hfind
    rw [hentry]
    simp
  · rw [hs.placeOf_below hdown']
    exact hahead.vacant n fun hnt => hfree (List.mem_append_left _ hnt)
  · rw [hs.placeOf_below hdown, hs.placeOf_below hdown', Site.place_prefix, List.cons_prefix_cons]
    exact fun hp => hscratch hp.1

theorem only_putInPlace (hs : s.Ready) (h : Cleared s n done t) (hn : n ∈ s.dirs)
    (hnp : n ∉ done.placed) :
    Only f s.home (putInPlace s.places n done) t (fun e => e.1 = .nameTooLong) := by
  have hdown := hs.downward hn
  have hdown' := hs.downward_scratch (by decide : newName ≠ upName) hn
  have husable := hs.usable_scratch (by decide : '\x00' ∉ newName.toList) hn
  have hplace := hs.placeOf_below hdown'
  have hmove : ∀ {made : Tree}, t.SameOff (s.place [s.scratch, newName]) made →
      made.Reaches s.home (s.output.below [s.scratch, newName, n]) →
      made.find? (s.place [s.scratch, newName, n]) ≠ none →
      Only f s.home (do
        Disk.move (s.output.below [s.scratch, newName, n]) (s.output.below [n])
        return (⟨done.taken, done.placed ++ [n]⟩ : Swapped)) made (· = .nameTooLong) := by
    intro made hsame hopen hthere
    have hstands := (h.swapping.sameOff hsame).stands hs
    refine Only.bind (steps_move _ _) (only_move hf husable (hs.usable_below hn) hopen
      (reaches_below_one hstands (hs.component n hn).notUp) (Path.isNamed_below hdown' (by simp))
      (Path.isNamed_below hdown (by simp)) (by rw [hplace]; exact hthere) ?_ ?_)
      fun _ _ _ => Only.pure _
    · have hnothing := h.nothing []
      rw [List.append_nil] at hnothing
      have hoff : ¬s.place [s.scratch, newName] <+: s.place [n] := by
        rw [Site.place_prefix]
        exact fun hp => absurd hp.length_le (by simp)
      rw [hs.placeOf_below hdown, hsame _ hoff, hnothing]
    · rw [hplace, hs.placeOf_below hdown, Site.place_prefix]
      exact fun hp => absurd hp.length_le (by simp)
  refine Only.adapt ?_
  dsimp only
  rw [hs.child_output hn, hs.child_new hn]
  refine Only.bind (steps_look_map _) only_look_map ?_
  rintro b t ⟨rfl, k, hlook, rfl⟩
  refine Steps.ite (fun hk => ?_) fun hk => ?_
  · obtain rfl : k = none := by simpa using hk
    have hfree := free_new hs h.swapping h.ahead hn hnp hlook
    refine Only.bind (steps_makeDirs hf.ofDisk _) (only_makeDirs hf husable
      (clear_new hs h.swapping h.ahead hn hnp) (by rw [hplace]; exact hfree)
      (by simp [Path.below]) ?_) ?_
    · rw [hplace, Path.parent_below (by simp)]
      intro hvisits
      rcases (Path.visits_below (hdown'.shorten (List.dropLast_prefix _))).1 hvisits with
        hq | ⟨front, hfront, heq⟩
      · cases hfree.symm.trans ((h.swapping.stands hs) _ hq)
      · rw [← List.append_cancel_left heq] at hfront
        exact absurd hfront.length_le (by simp)
    · intro _ made hmade
      refine hmove (wayMade_new hs h.swapping hn hmade.way).1 hmade.stands.reaches ?_
      rw [← hplace, hmade.stands.place]
      simp
  · obtain ⟨kind, rfl⟩ := Option.ne_none_iff_exists'.1 (by simpa using hk : k ≠ none)
    obtain ⟨_, hopen, hfind⟩ := look_eq_some.1 hlook
    refine hmove SameOff.refl hopen ?_
    obtain ⟨entry, hentry, _⟩ := Option.map_eq_some_iff.1 hfind
    rw [← hplace, hentry]
    simp

theorem only_swapEach (hs : s.Ready) (hscratch : s.scratch ∉ s.dirs) (names : List String)
    (h : Swapping s done t) (hahead : Ahead s done t) (hnames : ∀ n ∈ names, n ∈ s.dirs)
    (hnodup : names.Nodup) (hfree : ∀ n ∈ names, n ∉ done.taken ++ done.placed) :
    Only f s.home (swapEach s.places names done) t (fun e => e.1 = .nameTooLong) := by
  induction names generalizing done t with
  | nil => exact Only.pure _
  | cons n names ih =>
    obtain ⟨hn, hnames⟩ := List.forall_mem_cons.1 hnames
    obtain ⟨hfreen, hfree⟩ := List.forall_mem_cons.1 hfree
    obtain ⟨hnotin, hnodup⟩ := List.nodup_cons.1 hnodup
    have hne : n ≠ s.scratch := fun heq => hscratch (heq ▸ hn)
    refine Only.bind (steps_takeAway hf.ofDisk hs h hahead hn hfreen)
      (only_takeAway hf hs h hahead hn hne hfreen) ?_
    rintro ⟨taken, placed⟩ t' ⟨hcleared, rfl, htaken⟩
    have hnp : n ∉ done.placed := fun hp => hfreen (List.mem_append_right _ hp)
    refine Only.bind (steps_putInPlace hf.ofDisk hs hcleared hn hnp)
      (only_putInPlace hf hs hcleared hn hnp) ?_
    rintro _ t'' ⟨rfl, hswapping, hahead⟩
    exact ih hswapping hahead hnames hnodup (free_rest hnotin htaken hfree)

theorem only_swap (hs : s.Ready) (hscratch : s.scratch ∉ s.dirs) (hnodup : s.dirs.Nodup)
    (hrestore : ∀ n, f.restore n = none) (hdiscard : ∀ n, f.discard n = false)
    (h : Aside s s.staged)
    (hold : ∀ r, s.staged.find? (s.place ([s.scratch, oldName] ++ r)) = none) :
    Only f s.home (swap s.places s.dirs) s.staged (· = .nameTooLong) := by
  have hplace : s.places.old.placeOf s.home = s.place [s.scratch, oldName] :=
    hs.placeOf_below hs.downward_old
  have hstands : s.staged.Stands s.home s.output :=
    h.off.stands hs.stands (hs.closed.avoids hs.stands hs.free)
  refine Only.bind (steps_makeDir _) (only_makeDir hf ?_ ?_ ?_) ?_
  · refine Path.isUsable_below.2 ⟨hs.usable, List.forall_mem_cons.2 ⟨hs.scratch.noNul, ?_⟩⟩
    exact List.forall_mem_singleton.2 (by decide)
  · refine (reaches_below hstands hs.downward_old).2 fun front hfront hne => ?_
    rcases List.prefix_cons_iff.1 hfront with rfl | ⟨second, rfl, hsecond⟩
    · rw [List.append_nil]
      exact hstands.place
    · rcases List.prefix_cons_iff.1 hsecond with rfl | ⟨third, rfl, hthird⟩
      · exact h.scratch
      · rw [List.prefix_nil.1 hthird] at hne
        exact absurd rfl hne
  · have hnothing := hold []
    rw [List.append_nil] at hnothing
    rw [hplace, hnothing]
  · intro _ t hmade
    obtain ⟨hswapping, hahead⟩ := swapping_start hs h hold hmade
    refine Steps.bind (Steps.lift_run ((steps_swapEach hf.ofDisk hs s.dirs hswapping hahead
      (fun _ hn => hn) hnodup fun _ _ => (by simp)).and (only_swapEach hf hs hscratch s.dirs
        hswapping hahead (fun _ hn => hn) hnodup fun _ _ => (by simp)))) ?_
    rintro (⟨e, done⟩ | done) t' hsettled
    · obtain ⟨⟨_, hswapping⟩, hlong⟩ : (e.isOfDisk = true ∧ Swapping s done t') ∧
        e = .nameTooLong := hsettled
      refine Steps.ite (fun _ => ?_) fun _ => Steps.throw hlong
      refine Steps.bind ((steps_undo hrestore hdiscard hs hswapping).mono (fun _ _ h => h)
        fun _ _ h => h.elim) ?_
      exact fun _ _ _ => Steps.throw hlong
    · exact Only.pure _

/-! ## The whole delivery -/

variable {output : Path} {dirs : List String} {rendered : List Rendered}

theorem only_write {base : Tree} {scratch : String}
    (h : Deliverable f home output dirs rendered) (hseparate : Separate (allFiles rendered))
    (husable : output.isUsable = true) (hstands : base.Stands home output) (hclosed : base.Closed)
    (hs : Scratched home output scratch base t) (hscratch : scratch ∉ dirs) :
    Only f home (write output (output.below [scratch]) dirs rendered) t
      (fun e => ∃ target cause, e = .unwritten target cause ∧
        Unwritable (allFiles rendered) cause) := by
  have husable' : (output.below [scratch]).isUsable = true :=
    Path.isUsable_below.2 ⟨husable, List.forall_mem_singleton.2 hs.component.noNul⟩
  unfold write
  dsimp only
  rw [places_eq home scratch dirs base t, Path.child_component (by decide : IsComponent "new")]
  refine Only.bind (steps_stage hf.ofDisk rendered hs.stands hs.avoids h.proper hs.staged_nothing)
    (only_stage hf rendered husable' hs.stands hs.avoids h.proper hs.staged_nothing hseparate) ?_
  rintro _ staged ⟨hstaged, hsame⟩
  rw [hs.stagedAt_eq, List.nil_append] at hstaged
  have haside : Aside ⟨home, output, scratch, dirs, base, base⟩ staged := hs.aside hsame
  refine Only.adapt ((only_swap hf (hs.ready h husable hstands hclosed hstaged) hscratch h.nodup
    h.restore h.discard ⟨haside.scratch, haside.off⟩ (hs.old_nothing hsame)).mono fun e he => ?_)
  exact ⟨none, e, rfl, Or.inl he⟩

/-- Why a delivery may fail on a quiet disk: there is no place for it, or a file cannot be written. -/
def Undeliverable (files : List Source.File) : DeliveryFault → Prop
  | .unprepared cause => cause = .nameTooLong
  | .unwritten _ cause => Unwritable files cause

/-- A delivery to where no file is in the way fails only because a name is too long or a text cannot
be encoded. -/
theorem only_deliver (h : Deliverable f home output dirs rendered)
    (hseparate : Separate (allFiles rendered)) (hscratch : ∀ k, scratchName k ∉ dirs)
    (hsound : t.Sound home output) (husable : output.isUsable = true)
    (hclear : t.Clear home output) :
    Only f home (deliver output dirs rendered) t (Undeliverable (allFiles rendered)) := by
  refine Only.adapt_bind (steps_ensureDirs hf.ofDisk output)
    ((only_ensureDirs hf husable hclear).mono fun _ h => h) ?_
  intro _ base hmade
  have hbase := hmade.sound hsound
  refine Only.adapt_bind (steps_makeScratch output)
    ((only_makeScratch hf husable hmade.stands).mono fun _ h => h) ?_
  intro scratch t₁ hscratchMade
  obtain ⟨name, rfl, hscratchMade, k, rfl⟩ := makeScratch_eq_ok hscratchMade
  refine Steps.bind (Steps.lift_run (only_write hf h hseparate husable hmade.stands hbase.closed
    (scratched_of_makeDir hbase.closed (isComponent_scratchName k) hscratchMade) (hscratch k))) ?_
  rintro (e | _) t₂ hsettled
  · obtain ⟨target, cause, rfl, hcause⟩ : ∃ target cause, e = .unwritten target cause ∧
      Unwritable (allFiles rendered) cause := hsettled
    exact Steps.bind (steps_discard h.discard _) fun _ _ _ => Steps.throw hcause
  · exact Steps.bind (steps_discard h.discard _) fun _ _ _ => Steps.pure trivial

end Bindery.Delivery
