/-
  AN OUTPUT PATH THROUGH ITS OWN DIRECTORIES: nothing is delivered.

  The path of the output directory may lead down into a directory that is to be swapped and up again.
  Such a directory is taken away like any other, and with it goes the way to all that was staged
  (`through_takeAway`).  So what was staged for it is not seen, and a new one is to be made for it;
  but there it still is, and nothing is made in its place (`through_putInPlace`).  A delivery that
  has files for all of its directories fails of it (`steps_deliver_through`).
-/
import Bindery.Proofs.Job.Whereabouts

namespace Bindery

open Bindery.Tree

/-! ## Ways through a place -/

/-- Names that lead out of a place lead over it. -/
theorem exists_follow_eq {a : Place} {names : List String} {here : Place} (hin : a <+: here)
    (hout : ¬a <+: follow here names) : ∃ front, front <+: names ∧ follow here front = a := by
  induction names generalizing here with
  | nil => exact absurd hin hout
  | cons name names ih =>
    by_cases hhere : here = a
    · exact ⟨[], List.nil_prefix, hhere⟩
    · have hstep : a <+: stepTo here name := by
        unfold stepTo
        split
        · have hne : here ≠ [] := by
            rintro rfl
            exact hhere (List.prefix_nil.1 hin).symm
          exact (prefix_dropLast_iff hne).2 ⟨hin, Ne.symm hhere⟩
        · exact hin.trans (List.prefix_append _ _)
      obtain ⟨front, hfront, ha⟩ := ih hstep hout
      exact ⟨name :: front, (List.prefix_cons_inj name).2 hfront, ha⟩

/-- A path that leads below a directory that is in its own leads through that directory. -/
theorem Path.visits_of_not_avoids {home : Place} {p : Path} {d : String}
    (h : ¬p.Avoids home (p.placeOf home ++ [d])) : p.Visits home (p.placeOf home ++ [d]) := by
  unfold Path.Avoids at h
  push Not at h
  obtain ⟨q, ⟨front, ⟨back, hback⟩, rfl⟩, hin⟩ := h
  have hend : follow (follow (p.start home) front) back = p.placeOf home := by
    rw [← follow_append, hback]
    rfl
  have hout : ¬p.placeOf home ++ [d] <+: follow (follow (p.start home) front) back := by
    rw [hend]
    exact fun hp => absurd hp.length_le (by simp)
  obtain ⟨more, hmore, ha⟩ := exists_follow_eq hin hout
  refine ⟨front ++ more, ?_, by rw [follow_append, ha]⟩
  rw [← hback]
  exact (List.prefix_append_right_inj front).2 hmore

/-- The way to something below a path is open only where the path leads to a directory. -/
theorem Tree.Reaches.stands {t : Tree} {home : Place} {p : Path} {name : String}
    {names : List String} (h : t.Reaches home (p.below (name :: names))) : t.Stands home p := by
  rintro q ⟨front, ⟨back, hback⟩, rfl⟩
  have hnames : (p.below (name :: names)).names = front ++ (back ++ name :: names) := by
    show p.names ++ name :: names = _
    rw [← hback, List.append_assoc]
  cases back with
  | nil => exact h front name ⟨names, by rw [hnames]; simp⟩
  | cons next back => exact h front next ⟨back ++ name :: names, by rw [hnames]; simp⟩

/-- Where something is, no directory is made with those above it. -/
theorem steps_makeDirs_there {f : Failures} {home : Place} {t : Tree} {p : Path} (hf : f.OfDisk)
    {e : Entry} (hthere : t.find? (p.placeOf home) = some e) :
    Steps f home (Disk.makeDirs p) t (fun _ _ => False) (fun _ _ => True) := by
  have hmake : ∀ {t : Tree}, t.find? (p.placeOf home) = some e →
      Steps f home (Disk.makeDir p) t (fun _ _ => False) (fun _ t' => t' = t) := by
    intro t hthere
    refine (steps_makeDir p).mono (fun _ t' hmade => ?_) fun _ _ h => h.1
    obtain ⟨_, _, hnone, _⟩ := makeDir_eq_ok.1 hmade
    rw [hthere] at hnone
    nomatch hnone
  refine Steps.tryCatch (hmake hthere) ?_
  rintro e' t rfl
  refine Steps.ite (fun _ => Steps.throw_bind trivial) fun _ => ?_
  refine Steps.bind ((steps_ensureDirs hf _).mono (fun _ _ h => h) fun _ _ _ => trivial) ?_
  intro _ t' hmade
  exact (hmake (hmade.way.keeps hthere)).mono (fun _ _ h => h) fun _ _ _ => trivial

namespace Delivery

variable {s : Site} {t t' : Tree} {f : Failures} {done : Swapped} {n d : String} {k : Nat}

/-- A name of one thing leads to what it names. -/
theorem lead?_component (hn : IsComponent n) : (Path.ofString n).lead? = some [n] :=
  Path.lead?_of_name hn.ofString hn.notUp

/-! ## What is staged for a directory -/

section

variable (hscratch : s.scratch = scratchName k) (hn : IsComponent n) (hne : n ≠ s.scratch)
include hscratch hn hne

/-- What is staged stays there while a directory is taken away. -/
theorem staged_takeAway {done : Swapped}
    (hstaged : t.find? (s.place [s.scratch, newName, d]) = some .directory) :
    Steps f s.home (takeAway s.places n done) t
      (fun _ t' => t'.find? (s.place [s.scratch, newName, d]) = some .directory ∧
        (t.look s.home (s.output.below [n]) = .ok none ∧ t' = t ∨
          t'.find? (s.place [n]) = none))
      (fun _ _ => True) := by
  have hout : (s.output.below [n]).placeOf s.home = s.place [n] := Path.placeOf_below hn.downward
  refine Steps.adapt ?_
  dsimp only
  rw [show s.places.output.child n = s.output.below [n] from Path.child_component hn]
  refine Steps.bind ((steps_look_map _).mono (fun _ _ h => h) fun _ _ _ => trivial) ?_
  rintro _ t ⟨rfl, r, hlook, rfl⟩
  refine Steps.ite (fun _ => ?_) fun hr => Steps.pure ⟨hstaged, Or.inl ⟨?_, rfl⟩⟩
  · refine Steps.bind ((steps_move _ _).mono (fun _ _ h => h) fun _ _ _ => trivial) ?_
    intro _ t' hmoved
    obtain ⟨_, _, _, _, hmoved⟩ := moved_of_rename hmoved (by
      rw [hout, child_old_lead hscratch (lead?_component hn), Site.place_prefix]
      exact fun hp => absurd hp.length_le (by simp))
    rw [hout, child_old_lead hscratch (lead?_component hn)] at hmoved
    refine Steps.pure ⟨?_, Or.inr ?_⟩
    · rw [hmoved.off, hstaged]
      · rw [Site.place_prefix]
        simp [newName, oldName]
      · rw [Site.place_prefix, List.cons_prefix_cons]
        exact fun hp => hne hp.1
    · have hleft := hmoved.left []
      rw [List.append_nil] at hleft
      exact hleft
  · cases r with
    | none => exact hlook
    | some kind => exact absurd rfl hr

/-- What is staged for one directory stays there while another is put in place. -/
theorem staged_putInPlace {done : Swapped} (hf : f.OfDisk) (hnd : n ≠ d)
    (hstaged : t.find? (s.place [s.scratch, newName, d]) = some .directory) :
    Steps f s.home (putInPlace s.places n done) t
      (fun _ t' => t'.find? (s.place [s.scratch, newName, d]) = some .directory)
      (fun _ _ => True) := by
  have hout : (s.places.output.child n).placeOf s.home = s.place [n] :=
    Path.placeOf_child (lead?_component hn)
  have hnew := child_new_lead hscratch (lead?_component hn)
  have hmove : ∀ {made : Tree}, made.find? (s.place [s.scratch, newName, d]) = some .directory →
      Steps f s.home (do
        Disk.move (s.places.new.child n) (s.places.output.child n)
        return (⟨done.taken, done.placed ++ [n]⟩ : Swapped)) made
        (fun _ t' => t'.find? (s.place [s.scratch, newName, d]) = some .directory)
        (fun _ _ => True) := by
    intro made hstaged
    refine Steps.bind ((steps_move _ _).mono (fun _ _ h => h) fun _ _ _ => trivial) ?_
    intro _ t' hmoved
    have hoff : ¬s.place [n] <+: s.place [s.scratch, newName, d] := by
      rw [Site.place_prefix, List.cons_prefix_cons]
      exact fun hp => hne hp.1
    obtain ⟨_, _, _, _, hmoved⟩ := moved_of_rename hmoved (by
      rw [hout, hnew, Site.place_prefix, List.cons_append, List.cons_prefix_cons]
      exact fun hp => hne hp.1)
    rw [hout, hnew] at hmoved
    refine Steps.pure ?_
    rw [hmoved.off _ hoff, hstaged]
    rw [Site.place_prefix]
    simpa using hnd
  refine Steps.adapt ?_
  dsimp only
  refine Steps.bind ((steps_look_map _).mono (fun _ _ h => h) fun _ _ _ => trivial) ?_
  rintro _ t ⟨rfl, _⟩
  refine Steps.ite (fun _ => ?_) fun _ => hmove hstaged
  refine Steps.bind ((steps_makeDirs hf _).mono (fun _ _ h => h) fun _ _ _ => trivial) ?_
  exact fun _ made hmade => hmove (hmade.way.keeps hstaged)

end

/-! ## A directory that the output path leads through -/

section

variable (hf : f.OfDisk) (husable : s.output.isUsable = true) (hscratch : s.scratch = scratchName k)
  (hd : IsComponent d) (hne : d ≠ s.scratch) (hvisits : s.output.Visits s.home (s.place [d]))
include husable hscratch hd hne hvisits

/-- With the directory the way of the output path is gone. -/
theorem through_takeAway
    (hstaged : t.find? (s.place [s.scratch, newName, d]) = some .directory) :
    Steps f s.home (takeAway s.places d done) t
      (fun _ t' => t'.find? (s.place [s.scratch, newName, d]) = some .directory ∧
        ¬t'.Stands s.home s.output)
      (fun _ _ => True) := by
  refine (staged_takeAway hscratch hd hne hstaged).mono ?_ fun _ _ h => h
  rintro _ t' ⟨hstaged', ⟨hlook, rfl⟩ | hgone⟩
  · refine ⟨hstaged', fun hstands => ?_⟩
    have husable' : (s.output.below [d]).isUsable = true :=
      Path.isUsable_below.2 ⟨husable, List.forall_mem_singleton.2 hd.noNul⟩
    have hnone := look_eq_none husable' (reaches_below_one hstands hd.notUp) hlook
    rw [Path.placeOf_below hd.downward] at hnone
    have hdir := hstands _ hvisits
    exact nomatch hdir.symm.trans hnone
  · exact ⟨hstaged', fun hstands => nomatch (hstands _ hvisits).symm.trans hgone⟩

omit husable hvisits hne in
include hf in
/-- And without it nothing that is staged is seen, and it cannot be made anew. -/
theorem through_putInPlace (hstands : ¬t.Stands s.home s.output)
    (hstaged : t.find? (s.place [s.scratch, newName, d]) = some .directory) :
    Steps f s.home (putInPlace s.places d done) t (fun _ _ => False) (fun _ _ => True) := by
  refine Steps.adapt ?_
  dsimp only
  refine Steps.bind ((steps_look_map _).mono (fun _ _ h => h) fun _ _ _ => trivial) ?_
  rintro _ t ⟨rfl, r, hlook, rfl⟩
  refine Steps.ite (fun _ => ?_) fun hr => ?_
  · refine Steps.bind (steps_makeDirs_there hf (e := .directory) ?_) fun _ _ h => h.elim
    rw [child_new_lead hscratch (lead?_component hd)]
    exact hstaged
  · cases r with
    | none => exact absurd rfl hr
    | some kind =>
      have hopen := (look_eq_some.1 hlook).2.1
      rw [Path.child_component hd] at hopen
      have hbelow : t.Reaches s.home ((s.output.below [s.scratch, newName]).below [d]) := hopen
      rw [Path.below_below] at hbelow
      exact absurd hbelow.stands hstands

include hf

theorem through_swapEach (names : List String) (hmem : d ∈ names)
    (hcomponent : ∀ n ∈ names, IsComponent n) (hapart : ∀ n ∈ names, n ≠ s.scratch)
    (hstaged : t.find? (s.place [s.scratch, newName, d]) = some .directory) :
    Steps f s.home (swapEach s.places names done) t (fun _ _ => False) (fun _ _ => True) := by
  -- On the names up to the directory, before which its staged files wait untouched.
  induction names generalizing t done with
  | nil => nomatch hmem
  | cons n names ih =>
    obtain ⟨hn, hcomponent⟩ := List.forall_mem_cons.1 hcomponent
    obtain ⟨hns, hapart⟩ := List.forall_mem_cons.1 hapart
    by_cases hnd : n = d
    · subst hnd
      refine Steps.bind (through_takeAway husable hscratch hd hne hvisits hstaged) ?_
      rintro taken t₁ ⟨hstaged₁, hstands₁⟩
      exact Steps.bind (through_putInPlace hf hscratch hd hstands₁ hstaged₁) fun _ _ h => h.elim
    · have hmem' : d ∈ names := (List.mem_cons.1 hmem).resolve_left (Ne.symm hnd)
      refine Steps.bind (staged_takeAway hscratch hn hns hstaged) ?_
      rintro taken t₁ ⟨hstaged₁, _⟩
      refine Steps.bind (staged_putInPlace hscratch hn hns hf hnd hstaged₁) ?_
      exact fun _ t₂ hstaged₂ => ih hmem' hcomponent hapart hstaged₂

theorem through_swap (hmem : d ∈ s.dirs) (hcomponent : ∀ n ∈ s.dirs, IsComponent n)
    (hapart : ∀ n ∈ s.dirs, n ≠ s.scratch)
    (hstaged : t.find? (s.place [s.scratch, newName, d]) = some .directory) :
    Steps f s.home (swap s.places s.dirs) t (fun _ _ => False) (fun _ _ => True) := by
  refine Steps.bind ((steps_makeDir _).mono (fun _ _ h => h) fun _ _ _ => trivial) ?_
  intro _ t₁ hmade
  refine Steps.bind (Steps.lift_run (through_swapEach hf husable hscratch hd hne hvisits s.dirs hmem
    hcomponent hapart ((wayMade_makeDir hmade).keeps hstaged))) ?_
  rintro (⟨e, done⟩ | done) t₂ hsettled
  · refine Steps.ite (fun _ => ?_) fun _ => Steps.throw trivial
    exact Steps.bind (steps_undo_some _ _) fun _ _ _ => Steps.throw trivial
  · exact False.elim hsettled

end

/-! ## The whole delivery -/

variable {home : Place} {output : Path} {dirs : List String} {rendered : List Rendered}

/-- Nothing is delivered to directories one of which the output path leads through, where there is a
file for that one. -/
theorem steps_deliver_through (hf : f.OfDisk)
    (hproper : ∀ r ∈ rendered, ∀ file ∈ r.files, file.Proper)
    (hcomponent : ∀ n ∈ dirs, IsComponent n) (hapart : ∀ k, scratchName k ∉ dirs) (hmem : d ∈ dirs)
    (hfile : ∃ file ∈ allFiles rendered, file.names.head? = some d)
    (hthrough : ¬output.Avoids home (output.placeOf home ++ [d])) (hsound : t.Sound home output) :
    Steps f home (deliver output dirs rendered) t (fun _ _ => False) (fun _ _ => True) := by
  refine (steps_deliver_of_write hf hsound (fun _ _ => trivial) ?_).mono
    (fun _ _ (h : _ ∧ False) => h.2) fun _ _ h => h
  intro base t₁ k hmade _ hs
  have hwrite : Steps f home (write output (output.below [scratchName k]) dirs rendered) t₁
      (fun _ _ => False) (fun _ _ => True) := by
    refine steps_write_of_swap hf hproper hs (fun _ _ => trivial) fun staged hstaged _ => ?_
    have hdir : staged.find? (output.placeOf home ++ [scratchName k, newName] ++ [d]) =
        some .directory := by
      obtain ⟨file, hfile, hhead⟩ := hfile
      obtain ⟨r, hr, hfile'⟩ := List.mem_flatMap.1 hfile
      obtain ⟨top, next, rest, hnames⟩ := (hproper r hr file hfile').deep
      rw [hnames] at hhead
      obtain rfl : top = d := Option.some.inj hhead
      exact (hstaged.directory [top]).2 ⟨file, hfile, by rw [hnames]; simp, by rw [hnames]; simp⟩
    rw [List.append_assoc] at hdir
    exact through_swap (s := ⟨home, output, scratchName k, dirs, base, t₁⟩) hf hmade.fits.usable rfl
      (hcomponent d hmem) (ne_of_mem_of_not_mem hmem (hapart k))
      (Path.visits_of_not_avoids hthrough) hmem hcomponent
      (fun _ hn => ne_of_mem_of_not_mem hn (hapart k)) hdir
  exact hwrite.mono (fun _ _ h => h.elim)
    fun _ _ _ => (steps_tryDiscard _).mono (fun _ _ _ => trivial) fun _ _ h => h

end Delivery

end Bindery
