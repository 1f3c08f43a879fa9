/-
  TARGETS TOGETHER, or one after the other: what is left is the same.

  A run replaces the directories of its targets and touches no other, and what it puts there is told
  by the description alone.  So after any runs that succeed the tree can be told from the tree before
  them and from which targets have been run for (`Settled`): not from the order, nor from how often.
  Each run keeps this (`Settled.run`), with the description that it reads; `runs_together` compares
  two series of runs.
-/
import Bindery.Proofs.Job.Passing
import Bindery.Proofs.Job.TargetRun

namespace Bindery

open Bindery.Tree

/-! ## Whose directories there are -/

theorem Target.mem_all (T : Target) : T ∈ all := by
  cases T <;> decide

/-- No directory is that of two targets. -/
theorem Target.eq_of_mem_dirs {T U : Target} {d : String} (hT : d ∈ T.dirs) (hU : d ∈ U.dirs) :
    T = U := by
  have hall : ∀ T ∈ all, ∀ U ∈ all, ∀ d ∈ T.dirs, d ∈ U.dirs → T = U := by decide
  exact hall T T.mem_all U U.mem_all d hT hU

theorem Target.mem_selected {T : Target} {names : List String} (hne : names ≠ []) :
    T ∈ selected names ↔ T.name ∈ names := by
  have hsome : names.isEmpty = false := by simpa using hne
  rw [selected, List.mem_filter, hsome, Bool.false_or, List.contains_iff_mem]
  exact and_iff_right T.mem_all

section

variable {m : Model} {o : Options} {ts : List Target} {files own : List Source.File} {T : Target}
  {d : String}

/-- Below the directories of a target the files of all targets are its own. -/
theorem mem_own_iff (hm : m.WellFormed) (ho : o.Valid)
    (hfiles : Target.emitEach m o .standard ts = .ok files) (hT : T ∈ ts)
    (hown : T.emit m o .standard = .ok own) (hd : d ∈ T.dirs) {f : Source.File}
    (hhead : f.names.head? = some d) : f ∈ files ↔ f ∈ own := by
  obtain ⟨hleft, hright⟩ := mem_emitEach hfiles
  constructor
  · intro hf
    obtain ⟨U, _, others, hothers, hf⟩ := hright f hf
    obtain ⟨top, next, rest, hdeep, htop⟩ := ((Target.emit_tidy hm ho hothers).1 f hf).deep
    rw [hdeep] at hhead
    obtain rfl : top = d := Option.some.inj hhead
    obtain rfl := Target.eq_of_mem_dirs hd htop
    rw [hown] at hothers
    exact Except.ok.inj hothers ▸ hf
  · intro hf
    obtain ⟨files', hfiles', hsub⟩ := hleft T hT
    rw [hown] at hfiles'
    exact hsub (Except.ok.inj hfiles' ▸ hf)

end

namespace Job

variable {description output : Path} {names : List String} {overrides : List (String × Value)}
  {w : World} {p : Progress} {model : Model} {options : Options}

/-! ## One run -/

/-- What is generated for targets is delivered exactly, or not at all.  That the output path leads
through none of their directories need not be asked: there would be a file for that directory, and
nothing would be delivered. -/
theorem steps_deliver_targets [MarkupReader] {rendered : List Rendered} {t : Tree} {home : Place}
    (hsound : t.Sound home output)
    (hsource : (forTargets description output overrides names).sourceAt t home p =
      Description.loadAt t home description overrides)
    (hemit : (forTargets description output overrides names).emitAt t home p = .ok rendered) :
    Steps .none home (Delivery.deliver output (forTargets description output overrides names).dirs
        rendered) t
      (fun paths t' => ∃ model options files,
        Description.loadAt t home description overrides = .ok (model, options) ∧
        Target.emitEach model options .standard (Target.selected names) = .ok files ∧
        Delivery.Exact home output ((Target.selected names).flatMap Target.dirs) files t t' paths)
      (fun _ _ => True) := by
  have hapart := Target.apart_selected names
  have hdirs : (forTargets description output overrides names).dirs =
      (Target.selected names).flatMap Target.dirs := dirs_of_targets
  obtain ⟨⟨model, options⟩, hmeant, _⟩ := bind_eq_ok.1 hemit
  have hmeant := mapError_eq_ok.1 hmeant
  have hloaded := hsource.symm.trans hmeant
  obtain ⟨hm, ho⟩ := Description.valid_of_loadAt hloaded
  have hfiles := emitEach_of_emitAt hmeant hm ho hemit
  obtain ⟨htidy, hnodup⟩ := emitEach_tidy hm ho hapart hfiles
  by_cases havoids : ∀ d ∈ (forTargets description output overrides names).dirs,
      output.Avoids home (output.placeOf home ++ [d])
  · refine (Delivery.steps_deliver ((runnable_forTargets havoids).deliverable hemit)
      hsound).mono ?_ fun _ _ _ => trivial
    rintro _ t' ⟨rfl, base, hmade, hdelivered⟩
    rw [hdirs] at hdelivered havoids
    exact ⟨model, options, _, hloaded, hfiles, Delivery.exact_of_delivered hmade
      (hmade.sound hsound).closed havoids hdelivered htidy hnodup⟩
  · push Not at havoids
    obtain ⟨d, hd, hthrough⟩ := havoids
    rw [hdirs] at hd ⊢
    have hfills : ∃ f ∈ Delivery.allFiles rendered, f.names.head? = some d := by
      obtain ⟨T, hT, hd⟩ := List.mem_flatMap.1 hd
      obtain ⟨own, hown, hsub⟩ := (mem_emitEach hfiles).1 T hT
      obtain ⟨f, hf, hhead⟩ := Target.emit_fills hown hd
      exact ⟨f, hsub hf, hhead⟩
    exact (Delivery.steps_deliver_through (Failures.Quiet.ofDisk fun _ => rfl)
      (proper_of_emitAt hemit) hapart.component (scratchName_not_mem_dirs names) hd hfills hthrough
      hsound).mono (fun _ _ h => h.elim) fun _ _ h => h

/-- A run for targets that succeeds has delivered exactly what they emit. -/
theorem exact_of_run [MarkupReader] {job : Job} {written : List Path}
    (hjob : ofTargets description output names overrides Emitter.standard .standard = .ok job)
    (hfailures : w.failures = .none) (hsound : w.tree.Sound w.home output)
    (hsource : job.sourceAt w.tree w.home p =
      Description.loadAt w.tree w.home description overrides)
    (hrun : (job.runIn p w).1.1 = .ok written) :
    (∃ model options files,
      Description.loadAt w.tree w.home description overrides = .ok (model, options) ∧
      Target.emitEach model options .standard (Target.selected names) = .ok files ∧
      Delivery.Exact w.home output ((Target.selected names).flatMap Target.dirs) files w.tree
        (job.runIn p w).2.tree written) ∧
    (job.runIn p w).2.failures = .none ∧ (job.runIn p w).2.home = w.home := by
  obtain rfl : job = forTargets description output overrides names := ofTargets_standard hjob
  obtain ⟨t', hat, hends⟩ := runs_run (fun _ => steps_deliver_targets hsound hsource) w
    ⟨hfailures, rfl, rfl⟩
  refine ⟨?_, hat.failures, hat.home⟩
  unfold runIn at hrun ⊢
  rcases hpair : ((forTargets description output overrides names).run :
    JobM (StateM World) (List Path)) p w with ⟨⟨r, p'⟩, w'⟩
  rw [hpair] at hrun hat hends
  obtain rfl : r = .ok written := hrun
  obtain ⟨_, _, _, hexact⟩ := hends
  rw [hat.tree]
  exact hexact

/-! ## Runs one after the other -/

/-- `Ran description output overrides runs w w'` — from the world `w` runs for these lists of targets,
one after the other, have all succeeded and come to the world `w'`.  Each of them has read the
description. -/
inductive Ran [MarkupReader] (description output : Path) (overrides : List (String × Value)) :
    List (List String) → World → World → Prop
  | done (w : World) : Ran description output overrides [] w w
  | run {names : List String} {runs : List (List String)} {job : Job} {p : Progress} {w w' : World}
      {written : List Path} (hne : names ≠ [])
      (hjob : ofTargets description output names overrides Emitter.standard .standard = .ok job)
      (hsource : job.sourceAt w.tree w.home p =
        Description.loadAt w.tree w.home description overrides)
      (hrun : (job.runIn p w).1.1 = .ok written)
      (hrest : Ran description output overrides runs (job.runIn p w).2 w') :
      Ran description output overrides (names :: runs) w w'

/-- `Settled home output model options S t₀ t` — after runs for the targets `S`: the output path leads
to a directory, the directories of these targets hold what they emit and nothing else, and all else is
as it was in `t₀`. -/
structure Settled (home : Place) (output : Path) (model : Model) (options : Options)
    (S : Target → Prop) (t₀ t : Tree) : Prop where
  sound : t.Sound home output
  stands : ∀ T, S T → t.Stands home output
  inside : ∀ T, S T → ∃ own, T.emit model options .standard = .ok own ∧ ∀ d ∈ T.dirs, ∀ r,
    (∀ text, t.find? (output.placeOf home ++ d :: r) = some (.file text) ↔
      ∃ f ∈ own, f.names = d :: r ∧ f.text = text) ∧
    (t.find? (output.placeOf home ++ d :: r) = some .directory ↔
      r = [] ∨ ∃ f ∈ own, d :: r <+: f.names ∧ d :: r ≠ f.names)
  outside : ∀ q, (∀ T, S T → ∀ d ∈ T.dirs, ¬output.placeOf home ++ [d] <+: q) →
    ((∃ T, S T) → ¬output.Visits home q) → t.find? q = t₀.find? q

namespace Settled

variable {home : Place} {S S' : Target → Prop} {t₀ t t' : Tree} {files : List Source.File}
  {written : List Path}

/-- Before the first run. -/
theorem start (h : t₀.Sound home output) :
    Settled home output model options (fun _ => False) t₀ t₀ :=
  ⟨h, fun _ h => h.elim, fun _ h => h.elim, fun _ _ _ => rfl⟩

theorem congr (h : Settled home output model options S t₀ t) (hS : ∀ T, S T ↔ S' T) :
    Settled home output model options S' t₀ t := by
  obtain rfl : S = S' := funext fun T => propext (hS T)
  exact h

/-- One more run replaces what is below the directories of its targets, and nothing else. -/
theorem run (h : Settled home output model options S t₀ t) (hm : model.WellFormed)
    (ho : options.Valid) (hsome : ∃ T, T ∈ Target.selected names)
    (hfiles : Target.emitEach model options .standard (Target.selected names) = .ok files)
    (hexact : Delivery.Exact home output ((Target.selected names).flatMap Target.dirs) files t t'
      written) :
    Settled home output model options (fun T => S T ∨ T ∈ Target.selected names) t₀ t' := by
  refine ⟨⟨hexact.closed, hexact.stands _ ⟨[], List.nil_prefix, rfl⟩⟩, fun _ _ => hexact.stands,
    fun T hT => ?_, fun q hq hvisits => ?_⟩
  · by_cases hnow : T ∈ Target.selected names
    · obtain ⟨own, hown, _⟩ := (mem_emitEach hfiles).1 T hnow
      refine ⟨own, hown, fun d hd r => ⟨fun text => ?_, ?_⟩⟩
      · rw [hexact.file d (List.mem_flatMap.2 ⟨T, hnow, hd⟩) r text]
        refine exists_congr fun f => ?_
        rw [and_congr_left_iff]
        rintro ⟨hnames, _⟩
        exact mem_own_iff hm ho hfiles hnow hown hd (by rw [hnames]; rfl)
      · rw [hexact.directory d (List.mem_flatMap.2 ⟨T, hnow, hd⟩) r]
        refine or_congr_right (exists_congr fun f => ?_)
        rw [and_congr_left_iff]
        rintro ⟨⟨back, hnames⟩, _⟩
        exact mem_own_iff hm ho hfiles hnow hown hd (by rw [← hnames]; rfl)
    · -- What an earlier run has put in place is not touched, nor made: it stands already.
      have hS : S T := hT.resolve_right hnow
      obtain ⟨own, hown, hview⟩ := h.inside T hS
      refine ⟨own, hown, fun d hd r => ?_⟩
      have hsame : t'.find? (output.placeOf home ++ d :: r) =
          t.find? (output.placeOf home ++ d :: r) := by
        refine (hexact.elsewhere _ fun e he hp => ?_).resolve_right ?_
        · rw [List.prefix_append_right_inj, List.cons_prefix_cons] at hp
          obtain ⟨U, hU, he⟩ := List.mem_flatMap.1 he
          exact hnow (Target.eq_of_mem_dirs hd (hp.1 ▸ he) ▸ hU)
        · rintro ⟨hq, hnone, _⟩
          exact nomatch (h.stands T hS _ hq).symm.trans hnone
      rw [hsame]
      exact hview d hd r
  · obtain ⟨T, hT⟩ := hsome
    have hoff : ¬output.Visits home q := hvisits ⟨T, Or.inr hT⟩
    have hsame : t'.find? q = t.find? q := by
      refine (hexact.elsewhere q fun d hd => ?_).resolve_right fun h => hoff h.1
      obtain ⟨U, hU, hd⟩ := List.mem_flatMap.1 hd
      exact hq U (Or.inr hU) d hd
    rw [hsame]
    exact h.outside q (fun U hU => hq U (Or.inl hU)) fun _ => hoff

/-- A file outside the directories is the one that was there before. -/
theorem file_before (h : Settled home output model options S t₀ t) {q : Place} {text : String}
    (hq : ∀ T, S T → ∀ d ∈ T.dirs, ¬output.placeOf home ++ [d] <+: q)
    (hfile : t.find? q = some (.file text)) : t₀.find? q = some (.file text) := by
  rw [← hfile]
  refine (h.outside q hq ?_).symm
  rintro ⟨T, hT⟩ hvisits
  exact nomatch (h.stands T hT q hvisits).symm.trans hfile

/-- What is left is told by what was there and by the targets. -/
theorem unique (h : Settled home output model options S t₀ t)
    (h' : Settled home output model options S t₀ t') (q : Place) : t.find? q = t'.find? q := by
  by_cases hin : ∃ T, S T ∧ ∃ d ∈ T.dirs, output.placeOf home ++ [d] <+: q
  · obtain ⟨T, hT, d, hd, r, rfl⟩ := hin
    obtain ⟨own, hown, hview⟩ := h.inside T hT
    obtain ⟨own', hown', hview'⟩ := h'.inside T hT
    obtain rfl : own = own' := Except.ok.inj (hown.symm.trans hown')
    rw [List.append_assoc, List.singleton_append]
    refine Option.ext fun entry => ?_
    cases entry with
    | file text => exact ((hview d hd r).1 text).trans ((hview' d hd r).1 text).symm
    | directory => exact (hview d hd r).2.trans (hview' d hd r).2.symm
  · have hout : ∀ T, S T → ∀ d ∈ T.dirs, ¬output.placeOf home ++ [d] <+: q :=
      fun T hT d hd hp => hin ⟨T, hT, d, hd, hp⟩
    by_cases hmade : (∃ T, S T) ∧ output.Visits home q
    · obtain ⟨⟨T, hT⟩, hvisits⟩ := hmade
      exact (h.stands T hT q hvisits).trans (h'.stands T hT q hvisits).symm
    · rw [h.outside q hout fun hT hq => hmade ⟨hT, hq⟩,
        h'.outside q hout fun hT hq => hmade ⟨hT, hq⟩]

end Settled

/-- Runs keep what is settled, with their targets added. -/
theorem Ran.settled [MarkupReader] {runs : List (List String)} {w' : World} {S : Target → Prop}
    {t₀ : Tree} (hran : Ran description output overrides runs w w') (hfailures : w.failures = .none)
    (hloaded : Description.loadAt t₀ w.home description overrides = .ok (model, options))
    (hS : ∀ T, S T → ∀ d ∈ T.dirs, ¬output.placeOf w.home ++ [d] <+: description.placeOf w.home)
    (hruns : ∀ T : Target, T.name ∈ runs.flatten → ∀ d ∈ T.dirs,
      ¬output.placeOf w.home ++ [d] <+: description.placeOf w.home)
    (h : Settled w.home output model options S t₀ w.tree) :
    Settled w.home output model options (fun T => S T ∨ T.name ∈ runs.flatten) t₀ w'.tree := by
  induction hran generalizing S with
  | done w => exact h.congr fun T => (or_iff_left List.not_mem_nil).symm
  | @run names runs job p w w' written hne hjob hsource hrun hrest ih =>
    obtain ⟨⟨model', options', files, hloaded', hfiles, hexact⟩, hfailures', hhome⟩ :=
      exact_of_run hjob hfailures h.sound hsource hrun
    -- The description is read from the file that was there before the first of the runs.
    have hsame : (model', options') = (model, options) := by
      obtain ⟨text, htext, hmeant⟩ := Description.file_of_loadAt hloaded
      obtain ⟨text', htext', hmeant'⟩ := Description.file_of_loadAt hloaded'
      have hbefore := h.file_before (fun T hT => hS T hT) htext'
      rw [htext] at hbefore
      cases hbefore
      rw [hmeant] at hmeant'
      exact (Except.ok.inj hmeant').symm
    cases hsame
    obtain ⟨hm, ho⟩ := Description.valid_of_loadAt hloaded
    have hselected : ∀ T, T ∈ Target.selected names ↔ T.name ∈ names :=
      fun T => Target.mem_selected hne
    have hsome : ∃ T, T ∈ Target.selected names := by
      obtain ⟨name, hname⟩ := List.exists_mem_of_ne_nil names hne
      obtain ⟨T, hT, _⟩ := selected_of_ofTargets hjob name hname
      exact ⟨T, hT⟩
    rw [← hhome] at hloaded hS hruns
    have hafter : Settled (job.runIn p w).2.home output model options _ t₀ (job.runIn p w).2.tree :=
      hhome.symm ▸ h.run hm ho hsome hfiles hexact
    refine hhome ▸ (ih hfailures' hloaded (fun T hT => ?_) (fun T hT => ?_) hafter).congr fun T => ?_
    · rcases hT with hT | hT
      · exact hS T hT
      · exact hruns T (List.mem_append_left _ ((hselected T).1 hT))
    · exact hruns T (List.mem_append_right _ hT)
    · rw [hselected, List.flatten_cons, List.mem_append, or_assoc]

/-- **It does not matter how targets are put together into runs.**  From any tree, with a description
outside the directories of the targets, any two series of runs that all succeed leave the same tree
as soon as the same targets occur in them, in whatever order, company and number. -/
theorem runs_together [MarkupReader] {runs₁ runs₂ : List (List String)} {w₁ w₂ : World}
    (hfailures : w.failures = .none) (hsound : w.tree.Sound w.home output)
    (houtside : ∀ T : Target, T.name ∈ runs₁.flatten → ∀ d ∈ T.dirs,
      ¬output.placeOf w.home ++ [d] <+: description.placeOf w.home)
    (h₁ : Ran description output overrides runs₁ w w₁)
    (h₂ : Ran description output overrides runs₂ w w₂)
    (hsame : ∀ name, name ∈ runs₁.flatten ↔ name ∈ runs₂.flatten) (q : Place) :
    w₁.tree.find? q = w₂.tree.find? q := by
  have houtside₂ : ∀ T : Target, T.name ∈ runs₂.flatten → ∀ d ∈ T.dirs,
      ¬output.placeOf w.home ++ [d] <+: description.placeOf w.home :=
    fun T hT => houtside T ((hsame T.name).2 hT)
  cases h₁ with
  | done =>
    -- Without a run for any target there was none in the other series either.
    cases h₂ with
    | done => rfl
    | run hne =>
      obtain ⟨name, hname⟩ := List.exists_mem_of_ne_nil _ hne
      exact absurd ((hsame name).2 (List.mem_append_left _ hname)) List.not_mem_nil
  | run hne hjob hsource hrun hrest =>
    obtain ⟨⟨model, options, _, hloaded, _⟩, _⟩ :=
      exact_of_run hjob hfailures hsound hsource hrun
    have hsettled : Settled w.home output model options (fun _ => False) w.tree w.tree :=
      .start hsound
    have hleft := (Ran.run hne hjob hsource hrun hrest).settled hfailures hloaded
      (fun _ h => h.elim) houtside hsettled
    have hright := h₂.settled hfailures hloaded (fun _ h => h.elim) houtside₂ hsettled
    exact hleft.unique (hright.congr fun T => or_congr_right (hsame T.name).symm) q

/-- The empty description, with runs into its own directory. -/
def staleRun (names : List String) (w : World) : (Except JobFault (List Path) × Progress) × World :=
  (forTargets (.ofString "a.idl") (.ofString ".") [] names).runIn .start w

theorem Ran.stale {runs : List (List String)} {w' : World} (hne : names ≠ [])
    (hjob : ofTargets (.ofString "a.idl") (.ofString ".") names [] Emitter.standard .standard =
      .ok (forTargets (.ofString "a.idl") (.ofString ".") [] names))
    (hrun : (staleRun names w).1.1.isOk = true)
    (hrest : Ran (.ofString "a.idl") (.ofString ".") [] runs (staleRun names w).2 w') :
    Ran (.ofString "a.idl") (.ofString ".") [] (names :: runs) w w' := by
  obtain ⟨written, hrun⟩ := exists_eq_ok hrun
  exact .run hne hjob rfl hrun hrest

/-- Two targets one after the other, or both at once with a name said twice. -/
theorem runs_together_stale : ∃ w₁ w₂,
    Ran (.ofString "a.idl") (.ofString ".") [] [["core"], ["swift"]] (.ofTree staleTree ["w"]) w₁ ∧
    Ran (.ofString "a.idl") (.ofString ".") [] [["swift", "core", "swift"]]
      (.ofTree staleTree ["w"]) w₂ ∧
    ∀ q, w₁.tree.find? q = w₂.tree.find? q := by
  have h₁ : Ran (.ofString "a.idl") (.ofString ".") [] [["core"], ["swift"]]
      (.ofTree staleTree ["w"]) _ :=
    .stale (by decide) rfl (by decide +kernel) (.stale (by decide) rfl (by decide +kernel) (.done _))
  have h₂ : Ran (.ofString "a.idl") (.ofString ".") [] [["swift", "core", "swift"]]
      (.ofTree staleTree ["w"]) _ :=
    .stale (by decide) rfl (by decide +kernel) (.done _)
  refine ⟨_, _, h₁, h₂, fun q => runs_together rfl ⟨closed_of_entries (by decide), by decide⟩ ?_ h₁ h₂
    (fun name => ?_) q⟩
  · intro T _
    cases T <;> decide
  · grind

end Job

end Bindery
