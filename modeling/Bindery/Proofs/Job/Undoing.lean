/-
  UNDOING a swap puts everything back.

  What was placed is removed and what was taken away is moved back; no step of this can fail but for
  the disk itself, since the way back is the way that was gone before (`steps_undo`).  So a swap
  either has placed all directories or has changed nothing outside the scratch directory
  (`steps_swap`).
-/
import Bindery.Proofs.Job.Swapping

namespace Bindery.Delivery

open Bindery.Tree

variable {s : Site} {done : Swapped} {t t' : Tree} {f : Failures}

/-! ## Removing what was placed -/

/-- `Emptied s names t t'` — nothing is left of the directories; all else is as it was. -/
structure Emptied (s : Site) (names : List String) (t t' : Tree) : Prop where
  nothing : ∀ n ∈ names, ∀ r, t'.find? (s.place ([n] ++ r)) = none
  off : ∀ q, (∀ n ∈ names, ¬s.place [n] <+: q) → t'.find? q = t.find? q

theorem steps_discardEach {ε : Type} {bad : ε → Tree → Prop} (hdiscard : ∀ n, f.discard n = false)
    (hs : s.Ready) (names : List String) (hnodup : names.Nodup) (ht : t.Stands s.home s.output)
    (hnames : ∀ n ∈ names, n ∈ s.dirs ∧ (s.output.below [n]).Fits ∧
      t.find? (s.place [n]) = some .directory) :
    Steps f s.home (ExceptT.lift (discardEach s.places names)) t
      (fun _ t' => Emptied s names t t') bad := by
  induction names generalizing t with
  | nil => exact Steps.pure ⟨fun _ h => (nomatch h), fun _ _ => rfl⟩
  | cons n names ih =>
    obtain ⟨⟨hn, hfits, hdir⟩, hrest⟩ := List.forall_mem_cons.1 hnames
    obtain ⟨hnotin, hnodup⟩ := List.nodup_cons.1 hnodup
    have hplace := hs.placeOf_below (hs.downward hn)
    refine Steps.lift_bind (steps_discard hdiscard _) ?_
    rintro _ t' rfl
    rw [hs.child_output hn]
    have hone : ∀ q, q ≠ [] → (t.discard s.home (s.output.below [n])).find? q =
        if s.place [n] <+: q then none else t.find? q := by
      intro q hq
      rw [find?_discard hfits (reaches_below_one ht (hs.component n hn).notUp)
        (Path.isNamed_below (hs.downward hn) (by simp)) (by rw [hplace]; exact hdir) hq, hplace]
    have hoff : ∀ q, ¬s.place [n] <+: q →
        (t.discard s.home (s.output.below [n])).find? q = t.find? q := by
      intro q hq
      by_cases hroot : q = []
      · rw [hroot]
        rfl
      · rw [hone q hroot, if_neg hq]
    -- The other directories lie beside this one, so nothing of them went with it.
    refine (ih hnodup (ht.mono fun q hq hdir => ?_) fun m hm => ?_).mono ?_ fun _ _ h => h
    · rw [hoff q (hs.avoids n hn q hq)]
      exact hdir
    · obtain ⟨hm', hfits', hdir'⟩ := hrest m hm
      have hmn : n ≠ m := fun hmn => hnotin (hmn ▸ hm)
      have hsame := hoff (s.place ([m] ++ [])) (not_place_first hmn [])
      rw [List.append_nil] at hsame
      exact ⟨hm', hfits', by rw [hsame, hdir']⟩
    · intro _ t' h
      refine ⟨fun m hm r => ?_, fun q hq => ?_⟩
      · by_cases hmn : m = n
        · have hoffn : ∀ k ∈ names, ¬s.place [k] <+: s.place ([n] ++ r) := by
            intro k hk
            exact not_place_first (fun hkn : k = n => hnotin (hkn ▸ hk)) r
          rw [hmn, h.off _ hoffn, hone _ (by simp [Site.place]),
            if_pos (Site.place_prefix.2 (List.prefix_append _ _))]
        · exact h.nothing m ((List.mem_cons.1 hm).resolve_left hmn) r
      · obtain ⟨hqn, hq⟩ := List.forall_mem_cons.1 hq
        rw [h.off q hq, hoff q hqn]

/-! ## Putting back what was taken away -/

/-- `Restoring s names t` — all is as it was before the swap, but for the scratch directory and the
directories that are still to be put back. -/
structure Restoring (s : Site) (names : List String) (t : Tree) : Prop where
  scratch : t.find? (s.place [s.scratch]) = some .directory
  old : t.find? (s.place [s.scratch, oldName]) = some .directory
  off : ∀ q, ¬s.place [s.scratch] <+: q → (∀ n ∈ names, ¬s.place [n] <+: q) →
    t.find? q = s.base.find? q
  member : ∀ n ∈ names, n ∈ s.dirs ∧ n ≠ s.scratch ∧ (s.output.below [n]).Fits
  taken : ∀ n ∈ names, s.base.find? (s.place [n]) ≠ none ∧
    (s.output.below [s.scratch, oldName, n]).Fits ∧
    ∀ r, t.find? (s.place ([s.scratch, oldName, n] ++ r)) = s.base.find? (s.place ([n] ++ r))
  gone : ∀ n ∈ names, ∀ r, t.find? (s.place ([n] ++ r)) = none

theorem Restoring.stands {names : List String} (h : Restoring s names t) (hs : s.Ready) :
    t.Stands s.home s.output := by
  refine hs.stands.mono fun q hq hdir => ?_
  rw [h.off q (hs.closed.avoids hs.stands hs.free q hq)]
  · exact hdir
  · exact fun n hn => hs.avoids n (h.member n hn).1 q hq

/-- After a swap and the removal of what was placed, what was taken away is to be put back. -/
theorem Swapping.restoring (hs : s.Ready) (h : Swapping s done t)
    (hempty : Emptied s done.placed t t') :
    Restoring s done.taken t' := by
  have hin : ∀ r, t'.find? (s.place (s.scratch :: r)) = t.find? (s.place (s.scratch :: r)) := by
    intro r
    refine hempty.off _ fun n hn => ?_
    exact not_place_first (h.member n (List.mem_append_right _ hn)).2.1 r
  refine
    { scratch := (hin []).trans h.scratch, old := (hin [oldName]).trans h.old, off := ?_,
      member := fun n hn => h.member n (List.mem_append_left _ hn), taken := ?_, gone := ?_ }
  · intro q hq hrest
    by_cases hplaced : ∃ n ∈ done.placed, s.place [n] <+: q
    · obtain ⟨n, hn, r, rfl⟩ := hplaced
      have hnt : n ∉ done.taken := fun hnt => hrest n hnt (List.prefix_append _ _)
      rw [Site.place_append, hempty.nothing n hn r, ← Site.place_append,
        hs.closed.nothing_below (h.fresh n hn hnt) r]
    · have hplaced' : ∀ n ∈ done.placed, ¬s.place [n] <+: q :=
        fun n hn hp => hplaced ⟨n, hn, hp⟩
      rw [hempty.off q hplaced']
      exact h.off q hq fun n hn => (List.mem_append.1 hn).elim (hrest n) (hplaced' n)
  · intro n hn
    obtain ⟨hthere, hfits, hview⟩ := h.taken n hn
    exact ⟨hthere, hfits, fun r => (hin _).trans (hview r)⟩
  · intro n hn r
    by_cases hnp : n ∈ done.placed
    · exact hempty.nothing n hnp r
    · have hoffn : ∀ m ∈ done.placed, ¬s.place [m] <+: s.place ([n] ++ r) := by
        intro m hm
        exact not_place_first (fun hmn : m = n => hnp (hmn ▸ hm)) r
      rw [hempty.off _ hoffn]
      exact h.gone n hn hnp r

/-- `Aside s t` — all is as it was before the swap, but for the scratch directory. -/
structure Aside (s : Site) (t : Tree) : Prop where
  scratch : t.find? (s.place [s.scratch]) = some .directory
  off : s.base.SameOff (s.place [s.scratch]) t

/-- What was taken away can be moved back. -/
theorem Restoring.exists_back {names : List String} (hs : s.Ready)
    (h : Restoring s (n :: names) t) :
    ∃ back, t.rename s.home (s.output.below [s.scratch, oldName, n]) (s.output.below [n]) =
      .ok back := by
  obtain ⟨hn, _, hfits⟩ := h.member n List.mem_cons_self
  obtain ⟨hthere, hfits', hview⟩ := h.taken n List.mem_cons_self
  have hdown := hs.downward hn
  have hdown' := hs.downward_scratch (by decide : oldName ≠ upName) hn
  have hstands := h.stands hs
  refine rename_to_nothing hfits' hfits
    (hs.reaches_scratch (by decide) hn hstands h.scratch h.old)
    (reaches_below_one hstands (hs.component n hn).notUp)
    (Path.isNamed_below hdown' (by simp)) (Path.isNamed_below hdown (by simp)) ?_ ?_ ?_
  · have := hview []
    rw [List.append_nil, List.append_nil] at this
    rw [hs.placeOf_below hdown', this]
    exact hthere
  · have := h.gone n List.mem_cons_self []
    rw [List.append_nil] at this
    rw [hs.placeOf_below hdown, this]
  · rw [hs.placeOf_below hdown', hs.placeOf_below hdown, Site.place_prefix]
    exact fun hp => absurd hp.length_le (by simp)

/-- Once one of them is moved back, the others are left. -/
theorem Restoring.back {names : List String} (h : Restoring s (n :: names) t) (hnotin : n ∉ names)
    (hmoved : Moved t (s.place [s.scratch, oldName, n]) (s.place [n]) t') :
    Restoring s names t' := by
  obtain ⟨_, hne, _⟩ := h.member n List.mem_cons_self
  obtain ⟨_, _, hview⟩ := h.taken n List.mem_cons_self
  have hbeside : Beside s oldName n t t' := beside_of_off hne hmoved.off
  have hother : ∀ m ∈ names, m ≠ n := fun m hm hmn => hnotin (hmn ▸ hm)
  refine
    { scratch := ?_, old := ?_, off := ?_,
      member := fun m hm => h.member m (List.mem_cons_of_mem _ hm), taken := ?_, gone := ?_ }
  · rw [hbeside.inside [] (by simp)]
    exact h.scratch
  · rw [hbeside.inside [oldName] (by simp)]
    exact h.old
  · intro q hq hrest
    by_cases hqn : s.place [n] <+: q
    · obtain ⟨r, rfl⟩ := hqn
      rw [hmoved.arrived, Site.place_append, Site.place_append]
      exact hview r
    · rw [hmoved.off q hqn
        fun hp => hq ((Site.place_prefix.2 ⟨[oldName, n], rfl⟩).trans hp)]
      refine h.off q hq fun m hm => ?_
      rcases List.mem_cons.1 hm with rfl | hm
      · exact hqn
      · exact hrest m hm
  · intro m hm
    obtain ⟨hthere', hfits'', hview'⟩ := h.taken m (List.mem_cons_of_mem _ hm)
    refine ⟨hthere', hfits'', fun r => ?_⟩
    rw [List.cons_append, hbeside.inside _ (by simp [(hother m hm).symm]), ← List.cons_append]
    exact hview' r
  · intro m hm r
    have hms := (h.member m (List.mem_cons_of_mem _ hm)).2.1
    rw [hbeside.outside m r (hother m hm) hms]
    exact h.gone m (List.mem_cons_of_mem _ hm) r

theorem steps_restoreEach (hrestore : ∀ n, f.restore n = none) (hs : s.Ready)
    (names : List String) (hnodup : names.Nodup) (h : Restoring s names t) :
    Steps f s.home (restoreEach s.places names) t (fun _ t' => Aside s t') (fun _ _ => False) := by
  induction names generalizing t with
  | nil => exact Steps.pure ⟨h.scratch, fun q hq => h.off q hq fun _ h => (nomatch h)⟩
  | cons n names ih =>
    obtain ⟨hnotin, hnodup⟩ := List.nodup_cons.1 hnodup
    obtain ⟨hn, hne, _⟩ := h.member n List.mem_cons_self
    have hplace := hs.placeOf_below (hs.downward hn)
    have hplace' := hs.placeOf_below (hs.downward_scratch (by decide : oldName ≠ upName) hn)
    obtain ⟨back, hback⟩ := h.exists_back hs
    refine Steps.bind ((steps_restore hrestore _ _).mono (fun _ _ h => h) ?_) ?_
    · rintro e t' ⟨rfl, hrefused⟩
      rw [hs.child_old hn, hs.child_output hn, hback] at hrefused
      nomatch hrefused
    · intro _ t' hmoved
      rw [hs.child_old hn, hs.child_output hn] at hmoved
      obtain ⟨_, _, _, _, hmoved⟩ := moved_of_rename hmoved (by
        rw [hplace, hplace', Site.place_prefix, List.cons_prefix_cons]
        exact fun hp => hne hp.1)
      rw [hplace, hplace'] at hmoved
      exact ih hnodup (h.back hnotin hmoved)

/-- Undoing puts everything back. -/
theorem steps_undo (hrestore : ∀ n, f.restore n = none) (hdiscard : ∀ n, f.discard n = false)
    (hs : s.Ready) (h : Swapping s done t) :
    Steps f s.home (undo s.places done) t (fun _ t' => Aside s t') (fun _ _ => False) := by
  have hplaced : ∀ n ∈ done.placed, n ∈ s.dirs ∧ (s.output.below [n]).Fits ∧
      t.find? (s.place [n]) = some .directory := by
    intro n hn
    obtain ⟨hdirs, _, hfits⟩ := h.member n (List.mem_append_right _ hn)
    have := h.placed n hn []
    rw [if_pos rfl, List.append_nil] at this
    exact ⟨hdirs, hfits, this⟩
  refine Steps.bind
    (steps_discardEach hdiscard hs done.placed h.nodupPlaced (h.stands hs) hplaced) ?_
  intro _ t' hempty
  exact steps_restoreEach hrestore hs done.taken h.nodupTaken (h.restoring hs hempty)

/-! ## The whole swap -/

theorem Site.Ready.downward_old (hs : s.Ready) : Downward [s.scratch, oldName] :=
  List.forall_mem_cons.2 ⟨hs.scratch.notUp, List.forall_mem_singleton.2 (by decide)⟩

/-- Before the first step nothing has been done. -/
theorem swapping_start (hs : s.Ready) (h : Aside s s.staged)
    (hold : ∀ r, s.staged.find? (s.place ([s.scratch, oldName] ++ r)) = none)
    (hmade : s.staged.makeDir s.home s.places.old = .ok t) :
    Swapping s ⟨[], []⟩ t ∧ Ahead s ⟨[], []⟩ t := by
  have hplace : s.places.old.placeOf s.home = s.place [s.scratch, oldName] :=
    hs.placeOf_below hs.downward_old
  obtain ⟨_, _, _, rfl⟩ := makeDir_eq_ok.1 hmade
  rw [hplace]
  have hput : ∀ q, q ≠ s.place [s.scratch, oldName] →
      (s.staged.put (s.place [s.scratch, oldName]) .directory).find? q = s.staged.find? q := by
    intro q hq
    by_cases hroot : q = []
    · rw [hroot]
      rfl
    · rw [find?_put _ _ _ hroot, if_neg hq]
  have hlength : ∀ {front back : List String}, front.length ≠ back.length →
      s.place front ≠ s.place back := by
    intro front back hne heq
    exact hne (congrArg List.length (List.append_cancel_left heq))
  constructor
  · refine
      { scratch := ?_, old := ?_, off := fun q hq _ => ?_, member := fun _ h => (nomatch h),
        taken := fun _ h => (nomatch h), gone := fun _ h => (nomatch h),
        placed := fun _ h => (nomatch h), fresh := fun _ h => (nomatch h),
        nodupTaken := List.nodup_nil, nodupPlaced := List.nodup_nil }
    · rw [hput _ (hlength (by simp))]
      exact h.scratch
    · rw [find?_put _ _ _ (by simp [Site.place]), if_pos rfl]
    · rw [hput q, h.off q hq]
      rintro rfl
      exact hq (Site.place_prefix.2 ⟨[oldName], rfl⟩)
  · refine ⟨fun n _ r => hput _ (hlength (by simp)), Or.inl (hput _ ?_), fun n _ => ?_⟩
    · intro heq
      have := List.append_cancel_left heq
      simp [newName, oldName] at this
    · rw [hput _ (hlength (by simp))]
      exact hold [n]

/-- A swap that is refused ends where its undoing does, or where it began. -/
theorem steps_swap_of_undo (hf : f.OfDisk) (hs : s.Ready) (hnodup : s.dirs.Nodup)
    (h : Aside s s.staged)
    (hold : ∀ r, s.staged.find? (s.place ([s.scratch, oldName] ++ r)) = none) {undone : Tree → Prop}
    (hstart : undone s.staged)
    (hundo : ∀ {done t}, Swapping s done t →
      Steps f s.home (undo s.places done) t (fun _ => undone) (fun _ => undone)) :
    Steps f s.home (swap s.places s.dirs) s.staged
      (fun _ t' => ∃ done, Swapping s done t' ∧ done.placed = s.dirs) (fun _ => undone) := by
  refine Steps.bind ((steps_makeDir _).mono (fun _ _ h => h) ?_) ?_
  · rintro e t' ⟨rfl, _⟩
    exact hstart
  · intro _ t hmade
    obtain ⟨hswapping, hahead⟩ := swapping_start hs h hold hmade
    refine Steps.bind (Steps.lift_run (steps_swapEach hf hs s.dirs hswapping hahead
      (fun _ hn => hn) hnodup fun _ _ => (by simp))) ?_
    rintro (⟨e, done⟩ | done) t' hsettled
    · obtain ⟨hdisk, hswapping⟩ : e.isOfDisk = true ∧ Swapping s done t' := hsettled
      refine Steps.ite (fun _ => ?_) fun hnot => absurd hdisk hnot
      exact Steps.bind (hundo hswapping) fun _ _ hundone => Steps.throw hundone
    · obtain ⟨hswapping, hplaced⟩ : Swapping s done t' ∧ done.placed = [] ++ s.dirs := hsettled
      exact Steps.pure ⟨done, hswapping, hplaced⟩

/-- The directories are swapped, or all is as it was but for the scratch directory. -/
theorem steps_swap (hf : f.OfDisk) (hrestore : ∀ n, f.restore n = none)
    (hdiscard : ∀ n, f.discard n = false) (hs : s.Ready) (hnodup : s.dirs.Nodup)
    (h : Aside s s.staged)
    (hold : ∀ r, s.staged.find? (s.place ([s.scratch, oldName] ++ r)) = none) :
    Steps f s.home (swap s.places s.dirs) s.staged
      (fun _ t' => ∃ done, Swapping s done t' ∧ done.placed = s.dirs)
      (fun _ t' => Aside s t') :=
  steps_swap_of_undo hf hs hnodup h hold h fun hswapping =>
    (steps_undo hrestore hdiscard hs hswapping).mono (fun _ _ h => h) fun _ _ h => h.elim

end Bindery.Delivery
