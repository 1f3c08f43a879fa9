/-
  WHAT REMAINS of the outputs when the undoing of a swap breaks off.

  A disk may refuse to put back what was taken away, or to remove what was put in its place.  Then
  the undoing stops there, and the scratch directory, which holds what was taken away, is removed all
  the same.  The invariant is `Remains`: all is as it was, but for the directories of a list; and what
  stood at one of these is in the scratch directory, as long as there is one.  A removal keeps it
  (`Remains.emptied`), and so does each directory that is put back (`Remains.back`), wherever the
  undoing stops.  So what stood before is kept, or is in a scratch directory that remains; or the
  undoing broke off and the scratch directory was removed (`failed_run_remains`).
-/
import Bindery.Proofs.Job.Failure

namespace Bindery

open Bindery.Tree

/-! ## Hindrances -/

/-- Whether the undoing of a swap may be hindered. -/
def Failures.BreaksOff (f : Failures) : Prop :=
  (∃ n e, f.restore n = some e) ∨ ∃ n, f.discard n = true

/-- The failures of going forward, without any of going back. -/
def Failures.forwardOnly (f : Failures) : Failures :=
  { f with restore := fun _ => .none, discard := fun _ => false }

namespace Delivery

/-! ## What remains -/

/-- `Remains root files base scratch left t` — all is as it was in `base`, but for the directories
`left`; what stood at one of these is in the scratch directory, if that is still there. -/
structure Remains (root : Place) (files : List Source.File) (base : Tree) (scratch : Option String)
    (left : List String) (t : Tree) : Prop where
  elsewhere : ∀ q, (∀ name, scratch = some name → ¬root ++ [name] <+: q) →
    (∀ d ∈ left, ¬root ++ [d] <+: q) → t.find? q = base.find? q
  free : ∀ name, scratch = some name → base.find? (root ++ [name]) = none ∧ name ∉ left
  aside : ∀ name, scratch = some name → ∀ d ∈ left, base.find? (root ++ [d]) ≠ none → ∀ r,
    t.find? (root ++ name :: oldName :: d :: r) = base.find? (root ++ d :: r)
  /-- At their places there are new files only. -/
  replaced : ∀ d ∈ left, ∀ r text, t.find? (root ++ d :: r) = some (.file text) →
    ∃ f ∈ files, f.names = d :: r ∧ f.text = text

variable {root : Place} {files : List Source.File} {base t t' : Tree} {scratch n : String}
  {left : List String}

theorem prefix_first {d m : String} {r : List String} : root ++ [d] <+: root ++ m :: r ↔ d = m := by
  rw [List.prefix_append_right_inj, List.cons_prefix_cons]
  exact ⟨fun h => h.1, fun h => ⟨h, List.nil_prefix⟩⟩

theorem mem_others {m : String} : m ∈ left.filter (· ≠ n) ↔ m ∈ left ∧ m ≠ n := by
  rw [List.mem_filter, decide_eq_true_iff]

namespace Remains

theorem nothing : Remains root files t none [] t where
  elsewhere := fun _ _ _ => rfl
  free := fun _ h => (nomatch h)
  aside := fun _ h => (nomatch h)
  replaced := fun _ h => (nomatch h)

/-- Removing one of the directories, or what is in its place. -/
theorem emptied (h : Remains root files base (some scratch) left t) (hn : n ∈ left)
    (hgone : ∀ q, t'.find? q = if root ++ [n] <+: q then none else t.find? q) :
    Remains root files base (some scratch) left t' where
  elsewhere := fun q hscratch hq => by
    rw [hgone, if_neg (hq n hn)]
    exact h.elsewhere q hscratch hq
  free := h.free
  aside := by
    rintro _ ⟨⟩ d hd hstood r
    have hns : n ≠ scratch := fun hns => (h.free scratch rfl).2 (hns ▸ hn)
    rw [hgone, if_neg (by rw [prefix_first]; exact hns)]
    exact h.aside scratch rfl d hd hstood r
  replaced := fun d hd r text hfile => by
    rw [hgone] at hfile
    split at hfile
    · nomatch hfile
    · exact h.replaced d hd r text hfile

/-- Once one of the directories is put back, the others are left. -/
theorem back (h : Remains root files base (some scratch) left t) (hn : n ∈ left)
    (hstood : base.find? (root ++ [n]) ≠ none)
    (hmoved : Moved t (root ++ [scratch, oldName, n]) (root ++ [n]) t') :
    Remains root files base (some scratch) (left.filter (· ≠ n)) t' := by
  have hns : n ≠ scratch := fun hns => (h.free scratch rfl).2 (hns ▸ hn)
  have hoff : ∀ m r, m ≠ n → ¬[scratch, oldName, n] <+: m :: r →
      t'.find? (root ++ m :: r) = t.find? (root ++ m :: r) := by
    intro m r hmn hold
    refine hmoved.off _ ?_ ?_
    · rw [prefix_first]
      exact hmn.symm
    · rw [List.prefix_append_right_inj]
      exact hold
  refine ⟨fun q hscratch hq => ?_, ?_, ?_, fun d hd r text hfile => ?_⟩
  · have hqs := hscratch scratch rfl
    by_cases hqn : root ++ [n] <+: q
    · obtain ⟨r, rfl⟩ := hqn
      rw [hmoved.arrived, List.append_assoc, List.append_assoc]
      exact h.aside scratch rfl n hn hstood r
    · have hqold : ¬root ++ [scratch, oldName, n] <+: q := fun hp =>
        hqs (((List.prefix_append_right_inj _).2 ⟨[oldName, n], rfl⟩).trans hp)
      rw [hmoved.off q hqn hqold]
      refine h.elsewhere q hscratch fun d hd => ?_
      by_cases hdn : d = n
      · rw [hdn]
        exact hqn
      · exact hq d (mem_others.2 ⟨hd, hdn⟩)
  · rintro _ ⟨⟩
    exact ⟨(h.free scratch rfl).1, fun hmem => (h.free scratch rfl).2 (mem_others.1 hmem).1⟩
  · rintro _ ⟨⟩ d hd hstood' r
    obtain ⟨hd, hdn⟩ := mem_others.1 hd
    rw [hoff scratch _ hns.symm (by simp [hdn.symm])]
    exact h.aside scratch rfl d hd hstood' r
  · obtain ⟨hd, hdn⟩ := mem_others.1 hd
    have hds : d ≠ scratch := fun hds => (h.free scratch rfl).2 (hds ▸ hd)
    rw [hoff d r hdn (by simp [hds.symm])] at hfile
    exact h.replaced d hd r text hfile

/-- With the scratch directory goes all that was kept in it. -/
theorem dropped (h : Remains root files base (some scratch) left t) (hclosed : base.Closed)
    (hgone : ∀ q, t'.find? q = if root ++ [scratch] <+: q then none else t.find? q) :
    Remains root files base none left t' where
  elsewhere := fun q _ hq => by
    rw [hgone]
    by_cases hqs : root ++ [scratch] <+: q
    · obtain ⟨r, rfl⟩ := hqs
      rw [if_pos (List.prefix_append _ _), hclosed.nothing_below (h.free scratch rfl).1]
    · rw [if_neg hqs]
      refine h.elsewhere q ?_ hq
      rintro _ ⟨⟩
      exact hqs
  free := fun _ h => (nomatch h)
  aside := fun _ h => (nomatch h)
  replaced := fun d hd r text hfile => by
    rw [hgone] at hfile
    split at hfile
    · nomatch hfile
    · exact h.replaced d hd r text hfile

/-- What stood where nothing is left to put back is what it was. -/
theorem kept {scratch : Option String} (h : Remains root files base scratch left t) {d : String}
    (hd : d ∉ left) (hstood : base.find? (root ++ [d]) ≠ none) (r : List String) :
    t.find? (root ++ d :: r) = base.find? (root ++ d :: r) := by
  refine h.elsewhere _ (fun name hname => ?_) fun m hm => ?_
  · rw [prefix_first]
    rintro rfl
    exact hstood (h.free name hname).1
  · rw [prefix_first]
    rintro rfl
    exact hd hm

end Remains

/-! ## Swaps that stop -/

variable {s : Site} {done : Swapped} {f : Failures}

/-- Before anything is swapped, nothing is left to put back. -/
theorem remains_of_aside (hs : s.base.find? (s.place [s.scratch]) = none) (h : Aside s t) :
    Remains (s.output.placeOf s.home) files s.base (some s.scratch) [] t where
  elsewhere := fun q hscratch _ => h.off q (hscratch s.scratch rfl)
  free := by
    rintro _ ⟨⟩
    exact ⟨hs, List.not_mem_nil⟩
  aside := fun _ _ _ h => (nomatch h)
  replaced := fun _ h => (nomatch h)

/-- Wherever a swap stops, what it has taken away and what it has placed is left. -/
theorem remains_of_swapping (hs : s.Ready)
    (hstaged : Staged s.staged (s.place [s.scratch, newName]) files) (h : Swapping s done t) :
    Remains (s.output.placeOf s.home) files s.base (some s.scratch) (done.taken ++ done.placed)
      t where
  elsewhere := fun q hscratch hq => h.off q (hscratch s.scratch rfl) hq
  free := by
    rintro _ ⟨⟩
    exact ⟨hs.free, fun hmem => (h.member _ hmem).2.1 rfl⟩
  aside := by
    rintro _ ⟨⟩ d hd hstood r
    -- What was placed without taking something away stands where nothing was.
    have htaken : d ∈ done.taken := by
      by_contra hnot
      exact hstood (h.fresh d ((List.mem_append.1 hd).resolve_left hnot) hnot)
    exact (h.taken d htaken).2.2 r
  replaced := fun d hd r text hfile => by
    by_cases hplaced : d ∈ done.placed
    · have hview : t.find? (s.place (d :: r)) = _ := h.placed d hplaced r
      rw [show t.find? (s.place (d :: r)) = _ from hfile] at hview
      split at hview
      · nomatch hview
      · refine hstaged.ofFile (d :: r) text ?_
        rw [Site.place_append]
        exact hview.symm
    · have htaken := (List.mem_append.1 hd).resolve_right hplaced
      have hview : t.find? (s.place (d :: r)) = none := h.gone d htaken hplaced r
      rw [show t.find? (s.place (d :: r)) = _ from hfile] at hview
      nomatch hview

/-! ## Undoing, as far as it goes -/

theorem remains_discardEach {ε : Type} {bad : ε → Tree → Prop} (hs : s.Ready) (names : List String)
    (h : Remains (s.output.placeOf s.home) files s.base (some s.scratch) left t)
    (hnames : ∀ n ∈ names, n ∈ s.dirs ∧ n ∈ left) :
    Steps f s.home (ExceptT.lift (discardEach s.places names)) t
      (fun _ t' => Remains (s.output.placeOf s.home) files s.base (some s.scratch) left t') bad := by
  induction names generalizing t with
  | nil => exact Steps.pure h
  | cons n names ih =>
    obtain ⟨⟨hn, hleft⟩, hrest⟩ := List.forall_mem_cons.1 hnames
    refine Steps.lift_bind (steps_tryDiscard _) ?_
    rintro _ t' (⟨_, rfl⟩ | rfl)
    · exact ih h hrest
    · rcases discard_cases t s.home (s.places.output.child n) with hsame | hgone
      · rw [hsame]
        exact ih h hrest
      · refine ih (h.emptied hleft ?_) hrest
        rw [hs.child_output hn, hs.placeOf_below (hs.downward hn)] at hgone
        rw [hs.child_output hn]
        exact hgone

theorem remains_restoreEach (hs : s.Ready) (names : List String) (hnodup : names.Nodup)
    (h : Remains (s.output.placeOf s.home) files s.base (some s.scratch) left t)
    (hnames : ∀ n ∈ names, n ∈ s.dirs ∧ n ∈ left ∧ s.base.find? (s.place [n]) ≠ none) :
    Steps f s.home (restoreEach s.places names) t
      (fun _ t' => ∃ left' ⊆ left,
        Remains (s.output.placeOf s.home) files s.base (some s.scratch) left' t')
      (fun _ t' => ∃ left' ⊆ left,
        Remains (s.output.placeOf s.home) files s.base (some s.scratch) left' t') := by
  -- On the names to be put back, each of which is still left: one that is put back leaves the list,
  -- and one that is refused ends the loop with the others still in it.
  induction names generalizing t left with
  | nil => exact Steps.pure ⟨left, List.Subset.refl _, h⟩
  | cons n names ih =>
    obtain ⟨hnotin, hnodup⟩ := List.nodup_cons.1 hnodup
    obtain ⟨⟨hn, hleft, hstood⟩, hrest⟩ := List.forall_mem_cons.1 hnames
    refine Steps.bind ((steps_putBack _ _).mono (fun _ _ h => h) ?_) ?_
    · rintro _ t' ⟨rfl, _⟩
      exact ⟨left, List.Subset.refl _, h⟩
    · intro _ t' hmoved
      have hns : n ≠ s.scratch := fun hns => (h.free s.scratch rfl).2 (hns ▸ hleft)
      have hplace := hs.placeOf_below (hs.downward hn)
      have hplace' := hs.placeOf_below (hs.downward_scratch (by decide : oldName ≠ upName) hn)
      rw [hs.child_old hn, hs.child_output hn] at hmoved
      obtain ⟨_, _, _, _, hmoved⟩ := moved_of_rename hmoved (by
        rw [hplace, hplace', Site.place_prefix, List.cons_prefix_cons]
        exact fun hp => hns hp.1)
      rw [hplace, hplace'] at hmoved
      have hothers : left.filter (· ≠ n) ⊆ left := List.filter_subset_self _
      refine (ih hnodup (h.back hleft hstood hmoved) fun m hm => ?_).mono ?_ ?_
      · obtain ⟨hm', hmleft, hmstood⟩ := hrest m hm
        exact ⟨hm', mem_others.2 ⟨hmleft, fun hmn => hnotin (hmn ▸ hm)⟩, hmstood⟩
      · rintro _ t'' ⟨left', hsub, h'⟩
        exact ⟨left', List.Subset.trans hsub hothers, h'⟩
      · rintro _ t'' ⟨left', hsub, h'⟩
        exact ⟨left', List.Subset.trans hsub hothers, h'⟩

/-- Wherever an undoing stops, what was not put back is known. -/
theorem remains_undo (hs : s.Ready)
    (hstaged : Staged s.staged (s.place [s.scratch, newName]) files) (h : Swapping s done t) :
    Steps f s.home (undo s.places done) t
      (fun _ t' => ∃ left ⊆ s.dirs,
        Remains (s.output.placeOf s.home) files s.base (some s.scratch) left t')
      (fun _ t' => ∃ left ⊆ s.dirs,
        Remains (s.output.placeOf s.home) files s.base (some s.scratch) left t') := by
  have hdirs : done.taken ++ done.placed ⊆ s.dirs := fun n hn => (h.member n hn).1
  refine Steps.bind (remains_discardEach hs done.placed (remains_of_swapping hs hstaged h)
    fun n hn => ⟨hdirs (List.mem_append_right _ hn), List.mem_append_right _ hn⟩) ?_
  intro _ t' h'
  refine (remains_restoreEach hs done.taken h.nodupTaken h' fun n hn => ?_).mono ?_ ?_
  · have hmem := List.mem_append_left done.placed hn
    exact ⟨hdirs hmem, hmem, (h.taken n hn).1⟩
  · rintro _ t'' ⟨left, hsub, h''⟩
    exact ⟨left, List.Subset.trans hsub hdirs, h''⟩
  · rintro _ t'' ⟨left, hsub, h''⟩
    exact ⟨left, List.Subset.trans hsub hdirs, h''⟩

theorem remains_swap (hf : f.OfDisk) (hs : s.Ready) (hnodup : s.dirs.Nodup)
    (hstaged : Staged s.staged (s.place [s.scratch, newName]) files) (h : Aside s s.staged)
    (hold : ∀ r, s.staged.find? (s.place ([s.scratch, oldName] ++ r)) = none) :
    Steps f s.home (swap s.places s.dirs) s.staged (fun _ _ => True)
      (fun _ t' => ∃ left ⊆ s.dirs,
        Remains (s.output.placeOf s.home) files s.base (some s.scratch) left t') := by
  exact (steps_swap_of_undo hf hs hnodup h hold
    ⟨[], List.nil_subset _, remains_of_aside hs.free h⟩
    (remains_undo hs hstaged)).mono (fun _ _ _ => trivial) fun _ _ h => h

/-! ## The whole delivery -/

variable {home : Place} {output : Path} {dirs : List String} {rendered : List Rendered}

theorem remains_write (h : Deliverable f.forwardOnly home output dirs rendered)
    (husable : output.isUsable = true) (hstands : base.Stands home output) (hclosed : base.Closed)
    (hs : Scratched home output scratch base t) :
    Steps f home (write output (output.below [scratch]) dirs rendered) t (fun _ _ => True)
      (fun _ t' => ∃ left ⊆ dirs,
        Remains (output.placeOf home) (allFiles rendered) base (some scratch) left t') := by
  have hf : f.OfDisk := h.ofDisk
  refine steps_write_of_swap hf h.proper hs (fun t' hsame => ?_) fun staged hstaged hsame => ?_
  · have haside : Aside ⟨home, output, scratch, dirs, base, base⟩ t' := hs.aside hsame
    exact ⟨[], List.nil_subset _, remains_of_aside hs.free haside⟩
  · have haside : Aside ⟨home, output, scratch, dirs, base, base⟩ staged := hs.aside hsame
    exact remains_swap hf (hs.ready h husable hstands hclosed hstaged) h.nodup hstaged
      ⟨haside.scratch, haside.off⟩ (hs.old_nothing hsame)

/-- What remains after a delivery that failed, whatever was refused and whenever. -/
theorem remains_deliver (h : Deliverable f.forwardOnly home output dirs rendered)
    (hsound : t.Sound home output) :
    Steps f home (deliver output dirs rendered) t (fun _ _ => True)
      (fun _ t' => ∃ base scratch, ∃ left ⊆ dirs, t.WayMade home output base ∧
        Remains (output.placeOf home) (allFiles rendered) base scratch left t') := by
  have hf : f.OfDisk := h.ofDisk
  refine (steps_deliver_of_write hf hsound ?_ ?_).mono (fun _ _ (_ : _ ∧ True) => trivial)
    fun _ _ h => h
  · exact fun base hway => ⟨base, none, [], List.nil_subset _, hway, Remains.nothing⟩
  intro base t₁ k hmade _ hs
  have hclosed := (hmade.sound hsound).closed
  refine (remains_write h hmade.fits.usable hmade.stands hclosed hs).mono
    (fun _ _ _ => (steps_tryDiscard _).mono (fun _ _ _ => trivial) fun _ _ h => h) ?_
  rintro _ t₂ ⟨left, hleft, hremains⟩
  refine (steps_tryDiscard _).mono ?_ fun _ _ h => h
  rintro _ t₃ (⟨_, rfl⟩ | rfl)
  · exact ⟨base, some _, left, hleft, hmade.way, hremains⟩
  · rcases discard_cases t₂ home (output.below [scratchName k]) with hsame | hgone
    · rw [hsame]
      exact ⟨base, some _, left, hleft, hmade.way, hremains⟩
    · rw [hs.placeOf] at hgone
      exact ⟨base, none, left, hleft, hmade.way, hremains.dropped hclosed hgone⟩

/-- Where the undoing is not hindered, nothing is left to put back. -/
theorem remains_deliver_hindered (h : Deliverable f.forwardOnly home output dirs rendered)
    (hsound : t.Sound home output) :
    Steps f home (deliver output dirs rendered) t (fun _ _ => True)
      (fun _ t' => ∃ base scratch, ∃ left ⊆ dirs, t.WayMade home output base ∧
        Remains (output.placeOf home) (allFiles rendered) base scratch left t' ∧
        (left ≠ [] → f.BreaksOff)) := by
  by_cases hoff : f.BreaksOff
  · refine (remains_deliver h hsound).mono (fun _ _ h => h) ?_
    rintro _ t' ⟨base, scratch, left, hleft, hway, hremains⟩
    exact ⟨base, scratch, left, hleft, hway, hremains, fun _ => hoff⟩
  · have hrestore : ∀ n, f.restore n = none := by
      intro n
      by_contra hrefused
      obtain ⟨e, he⟩ := Option.ne_none_iff_exists'.1 hrefused
      exact hoff (Or.inl ⟨n, e, he⟩)
    have hdiscard : ∀ n, f.discard n = false := fun n =>
      Bool.eq_false_iff.2 fun hrefused => hoff (Or.inr ⟨n, hrefused⟩)
    have hdeliverable : Deliverable f home output dirs rendered :=
      ⟨h.ofDisk, hrestore, hdiscard, h.nodup, h.component, h.avoids, h.proper⟩
    refine (steps_deliver hdeliverable hsound).mono (fun _ _ _ => trivial) ?_
    intro _ t' hway
    exact ⟨t', none, [], List.nil_subset _, hway, Remains.nothing, fun hne => absurd rfl hne⟩

end Delivery

namespace Job

/-! ## Runs -/

/-- After a run that failed, whatever was refused on the way forward and back, each directory that
stood before is in its place with all that it held; or it could not be put back, and then it is in
the scratch directory with all that it held, unless that directory was removed all the same. -/
theorem failed_run_remains [MarkupReader] (job : Job) (p : Progress) (w : World)
    (hsound : w.tree.Sound w.home job.output)
    (hjob : job.Runnable w.failures.forwardOnly w.home) {e : JobFault}
    (he : (job.runIn p w).1.1 = .error e) :
    ∃ base scratch files, ∃ left ⊆ job.dirs,
      w.tree.WayMade w.home job.output base ∧
      Delivery.Remains (job.output.placeOf w.home) files base scratch left
        (job.runIn p w).2.tree ∧
      (∀ f ∈ files, ∃ rendered, job.emitAt w.tree w.home p = .ok rendered ∧
        f ∈ Delivery.allFiles rendered) ∧
      (left ≠ [] → w.failures.BreaksOff) ∧
      ∀ d ∈ job.dirs, w.tree.find? (job.output.placeOf w.home ++ [d]) ≠ none →
        d ∉ left ∧ (∀ r, (job.runIn p w).2.tree.find? (job.output.placeOf w.home ++ d :: r) =
          w.tree.find? (job.output.placeOf w.home ++ d :: r)) ∨
        d ∈ left ∧ (∃ name, scratch = some name ∧ ∀ r,
          (job.runIn p w).2.tree.find?
            (job.output.placeOf w.home ++ name :: Delivery.oldName :: d :: r) =
          w.tree.find? (job.output.placeOf w.home ++ d :: r)) ∨
        d ∈ left ∧ scratch = none := by
  have hends : Ends _ _ (job.runIn p w).1 (job.runIn p w).2.tree :=
    (runs_run fun rendered hemit => Delivery.remains_deliver_hindered
      (hjob.deliverable hemit) hsound).elim ⟨rfl, rfl, rfl⟩
  rcases hrun : (job.runIn p w).1 with ⟨r, p'⟩
  rw [hrun] at he hends
  obtain rfl : r = .error e := he
  rcases hends with ⟨_, hsame, _⟩ | ⟨rendered, fault, hemit, rfl, hbad, _⟩
  · rw [hsame]
    exact ⟨w.tree, none, [], [], List.nil_subset _, WayMade.refl, Delivery.Remains.nothing,
      fun _ h => (nomatch h), fun hne => absurd rfl hne,
      fun d _ _ => Or.inl ⟨List.not_mem_nil, fun _ => rfl⟩⟩
  · obtain ⟨base, scratch, left, hleft, hway, hremains, hoff⟩ := hbad
    -- The output path keeps clear of the directories, so making it has not touched them.
    have hbase : ∀ d ∈ job.dirs, ∀ r, base.find? (job.output.placeOf w.home ++ d :: r) =
        w.tree.find? (job.output.placeOf w.home ++ d :: r) := by
      intro d hd r
      refine hway.off fun hvisits => hjob.avoids d hd _ hvisits ?_
      exact (List.prefix_append_right_inj _).2 ⟨r, rfl⟩
    refine ⟨base, scratch, _, left, hleft, hway, hremains,
      fun f hf => ⟨rendered, hemit, hf⟩, hoff, fun d hd hstood => ?_⟩
    rw [← hbase d hd []] at hstood
    by_cases hmem : d ∈ left
    · cases scratch with
      | none => exact Or.inr (Or.inr ⟨hmem, rfl⟩)
      | some name =>
        refine Or.inr (Or.inl ⟨hmem, name, rfl, fun r => ?_⟩)
        rw [hremains.aside name rfl d hmem hstood, hbase d hd]
    · refine Or.inl ⟨hmem, fun r => ?_⟩
      rw [hremains.kept hmem hstood, hbase d hd]

/-- The sample tree on a disk where the second move of a swap is refused, and the way back as well. -/
def lossy : World :=
  { refusing 8 with failures := { (refusing 8).failures with
      restore := fun _ => some (.refused "gone") } }

/-- The way back is refused, the scratch directory is removed, and the old file is nowhere. -/
theorem failed_run_remains_lossy :
    sampleTree.find? ["w", "d", "a"] = some (.file "old") ∧
    ∃ e, ((sampleJob "." ["d/b"]).runIn .start lossy).1.1 = .error e ∧
      (∀ q, ((sampleJob "." ["d/b"]).runIn .start lossy).2.tree.find? q ≠ some (.file "old")) ∧
      ∃ base files, ∃ left ⊆ ["d"], "d" ∈ left ∧ sampleTree.WayMade ["w"] (.ofString ".") base ∧
        Delivery.Remains ["w"] files base none left
          ((sampleJob "." ["d/b"]).runIn .start lossy).2.tree := by
  have hfail : isUnwritten ((sampleJob "." ["d/b"]).runIn .start lossy).1.1 = true := by
    decide +kernel
  have hentries : ∀ e ∈ ((sampleJob "." ["d/b"]).runIn .start lossy).2.tree.entries,
      e.2 ≠ .file "old" := by
    decide +kernel
  obtain ⟨e, he, _⟩ := exists_of_isUnwritten hfail
  have hnowhere : ∀ q, ((sampleJob "." ["d/b"]).runIn .start lossy).2.tree.find? q ≠
      some (.file "old") := by
    intro q hq
    rw [find?_of_ne_nil _ (ne_nil_of_find?_ne (by rw [hq]; simp))] at hq
    obtain ⟨front, back, hlist, _⟩ := List.lookup_eq_some_iff.1 hq
    exact hentries (q, .file "old") (by rw [hlist]; simp) rfl
  refine ⟨by decide, e, he, hnowhere, ?_⟩
  obtain ⟨base, scratch, files, left, hleft, hway, hremains, _, _, hfate⟩ :=
    failed_run_remains _ _ lossy (sampleTree_sound (by decide))
      (sampleJob_runnable (ofDisk_refusing 8) (fun _ => rfl) (fun _ => rfl) (by decide)) he
  rcases hfate "d" (List.mem_singleton_self _) (by decide) with
    ⟨_, hkept⟩ | ⟨_, name, rfl, haside⟩ | ⟨hmem, rfl⟩
  · exact absurd (hkept ["a"]) (hnowhere _)
  · exact absurd (haside ["a"]) (hnowhere _)
  · exact ⟨base, files, left, hleft, hmem, hway, hremains⟩

end Job

end Bindery
