/-
  PHASES: how a job stands after any calls.

  A job is loaded, generated and run in any order.  During a call the disk does as it likes, and
  between two calls anything may happen to all there is (`Turn`).

    * `Leaves` — how one call leaves a job: failed with a fault that is reported, and where the call
      leads if it returns (`leaves_load`, `leaves_emit`, `leaves_run`).
    * `StopsAt` — where generating stops, told by the emitters in their order.
    * `Stands` — what holds between any two calls: a job works for one of its own targets, and for
      none before its first call and after a run that is done.

  One thing is not as it should be.  A target without a name is a target as others are, and generating
  says so in its faults.  But a fault in staging its files is reported as one of no target
  (`GenerationFault.target_unwritable`).
-/
import Bindery.Proofs.Job.AnyDisk
import Bindery.Proofs.Job.Custom

namespace Bindery

variable {σ α : Type} [Disk (StateM σ)] [Console (StateM σ)]

/-- Staging a target's files is reported under its name, if it has one. -/
theorem GenerationFault.target_unwritable (target : String) (cause : DiskFault) :
    (unwritable (some target) cause).target = if target = "" then "output" else target := by
  show (if target.isEmpty then "output" else target) = _
  by_cases h : target = ""
  · rw [h]
    rfl
  · rw [if_neg h, if_neg (by rwa [String.isEmpty_iff])]

/-- No emitter gives a fault that a disk gives. -/
theorem Emitter.render_ne_unwritable {e : Emitter} {model : Model} {options : Options}
    {table : ErrorTable} {target : Option String} {cause : DiskFault} :
    e.render model options table ≠ .error (.unwritable target cause) := by
  have hpath : ∀ path, e.checkPath path ≠ .error (.unwritable target cause) := by
    intro path h
    unfold checkPath at h
    dsimp only at h
    split at h
    · split at h
      · nomatch h
      · split at h <;> nomatch h
    · nomatch h
  have hpaths : ∀ files, e.checkPaths files ≠ .error (.unwritable target cause) := by
    intro files
    induction files with
    | nil => exact fun h => (nomatch h)
    | cons file files ih =>
      intro h
      rcases bind_eq_error.1 h with h | ⟨_, _, h⟩
      · exact hpath file.path h
      · exact ih h
  intro h
  rcases bind_eq_error.1 h with h | ⟨files, _, h⟩
  · obtain ⟨fault, _, h⟩ := mapError_eq_error.1 h
    cases fault <;> nomatch h
  · rcases bind_eq_error.1 h with h | ⟨_, _, h⟩
    · exact hpaths files h
    · nomatch h

/-! ## One call -/

/-- `Leaves x p s settled` — a fault that is reported leaves the job failed, and what the operation
returns tells how it leaves the job. -/
def Leaves (x : JobM (StateM σ) α) (p : Progress) (s : σ) (settled : α → Progress) : Prop :=
  (∀ e, (x p s).1.1 = .error e → e.isForeseen = true → (x p s).1.2.phase = .failed) ∧
    ∀ a, (x p s).1.1 = .ok a → (x p s).1.2 = settled a

/-- `Untouched s s'` — from `s` to `s'` disks were looked at, and no more. -/
def Untouched (s s' : σ) : Prop := ∀ P : σ → Prop, Looking P → P s → P s'

/-- `job.StopsAt p s fault p'` — generating stops at an emitter and leaves the job failed, working for
its target: those before it give their files, it gives none or none that may be put in place, and
those behind it have no part in what comes of it. -/
inductive Job.StopsAt [MarkupReader] (job : Job) (p : Progress) (s : σ) (fault : GenerationFault)
    (p' : Progress) : Prop
  | intro {meant : Model × Options} {q : Progress} {s' : σ} {before after : List Emitter} {e : Emitter}
    (hsource : (job.source : JobM (StateM σ) (Model × Options)) p s = ((.ok meant, q), s'))
    (hsplit : job.emitters = before ++ e :: after)
    (hbefore : ∀ b ∈ before, ∃ files, b.render meant.1 meant.2 job.table = .ok files)
    (hstops : e.render meant.1 meant.2 job.table = .error fault)
    (hcurrent : p' = ⟨.failed, some e.target⟩)
    (hothers : ∀ others,
      ({ job with emitters := before ++ e :: others }.emit : JobM (StateM σ) (List Rendered)) p s =
        (job.emit : JobM (StateM σ) (List Rendered)) p s)

namespace Job

variable {job : Job} {p : Progress} {s : σ}

theorem leaves_load [MarkupReader] (job : Job) (p : Progress) (s : σ) :
    Leaves job.load p s fun meant => ⟨.loaded meant.1 meant.2, p.current⟩ := by
  unfold Leaves
  rw [load_eq]
  rcases job.describe s with ⟨cause | meant, s'⟩
  · refine ⟨fun e he hforeseen => ?_, fun _ h => (nomatch h)⟩
    obtain rfl : JobFault.load cause = e := Except.error.inj he
    exact JobFault.leaves_foreseen hforeseen
  · refine ⟨fun _ h => (nomatch h), fun a ha => ?_⟩
    obtain rfl : meant = a := Except.ok.inj ha
    rfl

/-- Generating has its source, or loading has no description for it. -/
theorem source_cases [MarkupReader] (job : Job) (p : Progress) (s : σ) :
    (∃ meant p' s', (job.source : JobM (StateM σ) (Model × Options)) p s = ((.ok meant, p'), s')) ∨
      ∃ cause s', (job.source : JobM (StateM σ) (Model × Options)) p s =
        ((.error (.load cause), ⟨(JobFault.load cause).leaves p.phase, p.current⟩), s') := by
  have hload : (∃ meant p' s', (job.load : JobM (StateM σ) (Model × Options)) p s =
      ((.ok meant, p'), s')) ∨ ∃ cause s', (job.load : JobM (StateM σ) (Model × Options)) p s =
        ((.error (.load cause), ⟨(JobFault.load cause).leaves p.phase, p.current⟩), s') := by
    rw [load_eq]
    rcases job.describe s with ⟨cause | meant, s'⟩
    · exact Or.inr ⟨cause, s', rfl⟩
    · exact Or.inl ⟨meant, _, _, rfl⟩
  obtain ⟨phase, current⟩ := p
  rw [source_eq]
  cases phase with
  | loaded model options => exact Or.inl ⟨(model, options), _, s, rfl⟩
  | _ => exact hload

/-- What generating comes to for a job with emitters: their files, or the fault of the first that gives
none, or no description. -/
theorem emit_cases [MarkupReader] (hsome : job.emitters ≠ []) (p : Progress) (s : σ) :
    (∃ (meant : Model × Options) (rendered : List Rendered) (s' : σ),
      renderAll meant.1 meant.2 job.table job.emitters [] = .ok rendered ∧
      (job.emit : JobM (StateM σ) (List Rendered)) p s = ((.ok rendered, ⟨.emitting, none⟩), s')) ∨
    (∃ (meant : Model × Options) (target : String) (fault : GenerationFault) (p' : Progress)
        (s' s'' : σ),
      (job.source : JobM (StateM σ) (Model × Options)) p s = ((.ok meant, p'), s') ∧
      renderAll meant.1 meant.2 job.table job.emitters [] = .error (target, fault) ∧
      (job.emit : JobM (StateM σ) (List Rendered)) p s =
        ((.error (.generation fault), ⟨.failed, some target⟩), s'')) ∨
    ∃ cause s', (job.emit : JobM (StateM σ) (List Rendered)) p s =
      ((.error (.load cause), ⟨(JobFault.load cause).leaves p.phase, p.current⟩), s') := by
  have hemitters : job.emitters.isEmpty = false :=
    Bool.eq_false_iff.2 fun h => hsome (List.isEmpty_iff.1 h)
  rw [emit_eq]
  rcases source_cases job p s with ⟨meant, p', s', hsource⟩ | ⟨cause, s', hsource⟩ <;> rw [hsource] <;>
    dsimp only
  · rcases hrender : renderAll meant.1 meant.2 job.table job.emitters [] with
      ⟨target, fault⟩ | rendered
    · refine Or.inr (Or.inl ⟨meant, target, fault, p', s',
        (renderNotes meant.1 meant.2 job.table job.emitters).foldl noted s', rfl, hrender, ?_⟩)
      unfold generated
      rw [hrender]
    · refine Or.inl ⟨meant, rendered,
        (renderNotes meant.1 meant.2 job.table job.emitters).foldl noted s', hrender, ?_⟩
      unfold generated
      rw [hrender, hemitters]
      rfl
  · exact Or.inr (Or.inr ⟨cause, s', rfl⟩)

theorem leaves_emit [MarkupReader] (hsome : job.emitters ≠ []) (p : Progress) (s : σ) :
    Leaves job.emit p s fun _ => ⟨.emitting, none⟩ := by
  unfold Leaves
  rcases emit_cases hsome p s with ⟨_, rendered, s', _, hemit⟩ |
    ⟨_, target, fault, _, _, s', _, _, hemit⟩ | ⟨cause, s', hemit⟩ <;> rw [hemit]
  · exact ⟨fun _ h => (nomatch h), fun _ _ => rfl⟩
  · exact ⟨fun _ _ _ => rfl, fun _ h => (nomatch h)⟩
  · refine ⟨fun e he hforeseen => ?_, fun _ h => (nomatch h)⟩
    obtain rfl : JobFault.load cause = e := Except.error.inj he
    exact JobFault.leaves_foreseen hforeseen

/-- A fault of generating is that of the first emitter that gives no files. -/
theorem stopsAt_of_emit [MarkupReader] (hsome : job.emitters ≠ []) {fault : GenerationFault}
    {p' : Progress} {s' : σ} (h : (job.emit : JobM (StateM σ) (List Rendered)) p s =
      ((.error (.generation fault), p'), s')) :
    job.StopsAt p s fault p' := by
  rcases emit_cases hsome p s with ⟨_, rendered, _, _, hemit⟩ |
    ⟨meant, target, fault', q, s₁, s₂, hsource, hrender, hemit⟩ | ⟨cause, _, hemit⟩
  · nomatch hemit.symm.trans h
  · obtain ⟨hend, _⟩ := Prod.mk.inj (hemit.symm.trans h)
    obtain ⟨hfault, hleft⟩ := Prod.mk.inj hend
    obtain rfl : fault' = fault := JobFault.generation.inj (Except.error.inj hfault)
    obtain ⟨before, e, after, hsplit, hbefore, hstops, rfl⟩ := renderAll_eq_error.1 hrender
    exact .intro hsource hsplit hbefore hstops hleft.symm
      (emit_others hsource hsplit hbefore hstops)
  · nomatch hemit.symm.trans h

/-- Where generating fails, nothing was touched. -/
theorem untouched_emit [MarkupReader] (job : Job) (p : Progress) (s : σ) :
    Untouched s ((job.emit : JobM (StateM σ) (List Rendered)) p s).2 :=
  fun _ hP hs => hP.keeps_emit job p s hs

/-- A run that cannot generate has done nothing else. -/
theorem run_of_emit_error [MarkupReader] {e : JobFault} {p' : Progress} {s' : σ}
    (h : (job.emit : JobM (StateM σ) (List Rendered)) p ((Console.now : StateM σ Nat) s).2 =
      ((.error e, p'), s')) :
    (job.run : JobM (StateM σ) (List Path)) p s = ((.error e, p'), s') := by
  rw [run_eq, run_bind, h]

/-- What a run comes to for a job with emitters: it is done, or generating has failed, or the disk
refuses the files, or what fails is no matter of the disk or of the files. -/
theorem run_cases [MarkupReader] (hsome : job.emitters ≠ []) (p : Progress) (s : σ) :
    (∃ files, ((job.run : JobM (StateM σ) (List Path)) p s).1 = (.ok files, ⟨.done, none⟩)) ∨
    (∃ e p' s', (job.emit : JobM (StateM σ) (List Rendered)) p
        ((Console.now : StateM σ Nat) s).2 = ((.error e, p'), s') ∧
      ((job.run : JobM (StateM σ) (List Path)) p s).1 = (.error e, p')) ∨
    ∃ (meant : Model × Options) (rendered : List Rendered) (s' : σ),
      renderAll meant.1 meant.2 job.table job.emitters [] = .ok rendered ∧
      (job.emit : JobM (StateM σ) (List Rendered)) p ((Console.now : StateM σ Nat) s).2 =
        ((.ok rendered, ⟨.emitting, none⟩), s') ∧
      ((∃ target cause, Delivery.Refused job.output job.dirs rendered s' target cause ∧
          cause.isOfDisk = true ∧ ((job.run : JobM (StateM σ) (List Path)) p s).1 =
            (.error (.generation (.unwritable target cause)), ⟨.failed, target⟩)) ∨
        ∃ cause current, ((job.run : JobM (StateM σ) (List Path)) p s).1 =
            (.error (.disk cause), ⟨.emitting, current⟩) ∧
          ∀ target, current = some target →
            Delivery.Refused job.output job.dirs rendered s' current cause) := by
  rw [run_ends_eq]
  rcases emit_cases hsome p ((Console.now : StateM σ Nat) s).2 with
    ⟨meant, rendered, s', hrender, hemit⟩ | ⟨_, target, fault, _, _, s', _, _, hemit⟩ |
    ⟨cause, s', hemit⟩ <;> rw [hemit]
  · dsimp only
    rcases hdeliver : ((Delivery.deliver job.output job.dirs rendered : ExceptT _ (StateM σ) _) s').1
      with (cause | ⟨target, cause⟩) | files
    · exact Or.inr (Or.inr ⟨meant, rendered, s', hrender, rfl, Or.inr ⟨cause, none, rfl,
        fun _ h => (nomatch h)⟩⟩)
    · have hrefused := Delivery.deliver_unwritten.1 hdeliver
      refine Or.inr (Or.inr ⟨meant, rendered, s', hrender, rfl, ?_⟩)
      unfold delivered
      cases hdisk : cause.isOfDisk with
      | true =>
        refine Or.inl ⟨target, cause, hrefused, hdisk, ?_⟩
        dsimp only
        rw [hdisk]
        rfl
      | false =>
        refine Or.inr ⟨cause, target, ?_, fun _ _ => hrefused⟩
        dsimp only
        rw [hdisk]
        rfl
    · exact Or.inl ⟨files, rfl⟩
  · exact Or.inr (Or.inl ⟨_, _, s', rfl, rfl⟩)
  · exact Or.inr (Or.inl ⟨_, _, s', rfl, rfl⟩)

theorem leaves_run [MarkupReader] (hsome : job.emitters ≠ []) (p : Progress) (s : σ) :
    Leaves job.run p s fun _ => ⟨.done, none⟩ := by
  have hleaves := leaves_emit hsome p ((Console.now : StateM σ Nat) s).2
  unfold Leaves at hleaves ⊢
  rcases run_cases hsome p s with ⟨files, hend⟩ | ⟨e, p', s', hemit, hend⟩ |
    ⟨_, _, _, _, _, ⟨target, cause, _, _, hend⟩ | ⟨cause, current, hend, _⟩⟩ <;> rw [hend]
  · exact ⟨fun _ h => (nomatch h), fun _ _ => rfl⟩
  · rw [hemit] at hleaves
    exact ⟨fun e' he => hleaves.1 e' (congrArg _ (Except.error.inj he)), fun _ h => (nomatch h)⟩
  · exact ⟨fun _ _ _ => rfl, fun _ h => (nomatch h)⟩
  · refine ⟨fun e he hforeseen => ?_, fun _ h => (nomatch h)⟩
    obtain rfl : JobFault.disk cause = e := Except.error.inj he
    nomatch hforeseen

end Job

/-! ## Calls in a row -/

/-- A call of a job, or anything else that happens to all there is. -/
inductive Turn (σ : Type) where
  | load
  | emit
  | run
  | change (s : σ)

/-- `job.Stands p` — between two calls a job works for one of its own targets, if for any; before
its first call and after a run that is done it works for none. -/
structure Job.Stands (job : Job) (p : Progress) : Prop where
  current : ∀ target, p.current = some target → ∃ e ∈ job.emitters, e.target = target
  rest : p.phase = .idle ∨ p.phase = .done → p.current = none

namespace Job

/-- How far a job has come, and all there is, after one more turn. -/
def turn [MarkupReader] (job : Job) (stand : Progress × σ) : Turn σ → Progress × σ
  | .load =>
    let ended := (job.load : JobM (StateM σ) (Model × Options)) stand.1 stand.2
    (ended.1.2, ended.2)
  | .emit =>
    let ended := (job.emit : JobM (StateM σ) (List Rendered)) stand.1 stand.2
    (ended.1.2, ended.2)
  | .run =>
    let ended := (job.run : JobM (StateM σ) (List Path)) stand.1 stand.2
    (ended.1.2, ended.2)
  | .change s => (stand.1, s)

/-- How far a job has come, and all there is, after turns from the start. -/
def turns [MarkupReader] (job : Job) (s : σ) (ts : List (Turn σ)) :
    Progress × σ := ts.foldl job.turn (.start, s)

variable {job : Job} {p : Progress} {s : σ}

/-- A loading that fails changes for whom the job works as little as one that returns. -/
theorem Stands.leaves (h : job.Stands p) (e : JobFault) :
    job.Stands ⟨e.leaves p.phase, p.current⟩ where
  current := h.current
  rest := by
    intro hrest
    unfold JobFault.leaves at hrest
    split at hrest
    · rcases hrest with hrest | hrest <;> nomatch hrest
    · exact h.rest hrest

/-- A job that works for nobody stands well. -/
theorem Stands.ofNone (job : Job) (phase : Phase) : job.Stands ⟨phase, none⟩ where
  current _ h := nomatch h
  rest _ := rfl

theorem stands_load [MarkupReader] (h : job.Stands p) (s : σ) :
    job.Stands ((job.load : JobM (StateM σ) (Model × Options)) p s).1.2 := by
  rw [load_eq]
  rcases job.describe s with ⟨cause | meant, s'⟩
  · exact h.leaves _
  · exact ⟨h.current, fun hrest => by rcases hrest with hrest | hrest <;> nomatch hrest⟩

theorem stands_emit [MarkupReader] (hsome : job.emitters ≠ []) (h : job.Stands p) (s : σ) :
    job.Stands ((job.emit : JobM (StateM σ) (List Rendered)) p s).1.2 := by
  rcases emit_cases hsome p s with ⟨_, rendered, s', _, hemit⟩ |
    ⟨meant, target, fault, _, _, s', _, hrender, hemit⟩ | ⟨cause, s', hemit⟩ <;> rw [hemit]
  · exact Stands.ofNone job _
  · obtain ⟨before, e, after, hsplit, _, _, htarget⟩ := renderAll_eq_error.1 hrender
    refine ⟨fun target' h => ?_, fun hrest => by rcases hrest with hrest | hrest <;> nomatch hrest⟩
    obtain rfl := Option.some.inj h
    exact ⟨e, by rw [hsplit]; simp, htarget⟩
  · exact h.leaves _

omit [Console (StateM σ)] in
/-- The files that a target is refused for are those of an emitter of the job. -/
theorem emitter_of_refused {meant : Model × Options} {rendered : List Rendered} {s : σ}
    {target : String} {cause : DiskFault}
    (hrender : renderAll meant.1 meant.2 job.table job.emitters [] = .ok rendered)
    (h : Delivery.Refused job.output job.dirs rendered s (some target) cause) :
    ∃ e ∈ job.emitters, e.target = target := by
  cases h with
  | @staging _ _ _ _ _ before after r _ _ _ hsplit _ _ =>
    have hr : r ∈ rendered := by
      rw [hsplit]
      simp
    rcases (mem_renderAll hrender List.nodup_nil).1 hr with ⟨e, back, ⟨⟨front, hfront⟩, _⟩, rfl⟩ |
      ⟨hnone, _⟩
    · exact ⟨e, by rw [hfront]; simp, rfl⟩
    · nomatch hnone

theorem stands_run [MarkupReader] (hsome : job.emitters ≠ []) (h : job.Stands p) (s : σ) :
    job.Stands ((job.run : JobM (StateM σ) (List Path)) p s).1.2 := by
  have hstands := stands_emit hsome h ((Console.now : StateM σ Nat) s).2
  rcases run_cases hsome p s with ⟨files, hend⟩ | ⟨e, p', s', hemit, hend⟩ |
    ⟨_, _, _, hrender, _, ⟨target, cause, hrefused, _, hend⟩ | ⟨cause, current, hend, hrefused⟩⟩ <;>
    rw [hend]
  · exact Stands.ofNone job _
  · rw [hemit] at hstands
    exact hstands
  · refine ⟨fun target' h => ?_, fun hrest => by rcases hrest with hrest | hrest <;> nomatch hrest⟩
    obtain rfl : target = some target' := h
    exact emitter_of_refused hrender hrefused
  · refine ⟨fun target' h => ?_, fun hrest => by rcases hrest with hrest | hrest <;> nomatch hrest⟩
    obtain rfl : current = some target' := h
    exact emitter_of_refused hrender (hrefused target' rfl)

/-- Each turn keeps how a job stands. -/
theorem stands_turn [MarkupReader] (hsome : job.emitters ≠ []) {stand : Progress × σ}
    (h : job.Stands stand.1) (t : Turn σ) : job.Stands (job.turn stand t).1 := by
  cases t with
  | load => exact stands_load h stand.2
  | emit => exact stands_emit hsome h stand.2
  | run => exact stands_run hsome h stand.2
  | change s => exact h

/-- After any turns a job stands so. -/
theorem stands_turns [MarkupReader] (hsome : job.emitters ≠ []) (s : σ) (ts : List (Turn σ)) :
    job.Stands (job.turns s ts).1 := by
  -- The induction is on the turns, for a job that has seen others before.
  have hturns : ∀ (ts : List (Turn σ)) (stand : Progress × σ), job.Stands stand.1 →
      job.Stands (ts.foldl job.turn stand).1 := by
    intro ts
    induction ts with
    | nil => exact fun _ h => h
    | cons t ts ih => exact fun stand h => ih _ (stands_turn hsome h t)
  exact hturns ts _ (Stands.ofNone job .idle)

/-- How a run fails that reports a fault of generating or writing. -/
theorem run_fails [MarkupReader] (hsome : job.emitters ≠ []) {fault : GenerationFault}
    {p' : Progress} {s' : σ}
    (h : (job.run : JobM (StateM σ) (List Path)) p s = ((.error (.generation fault), p'), s')) :
    (job.StopsAt p ((Console.now : StateM σ Nat) s).2 fault p' ∧ Untouched s s') ∨
      ∃ rendered s₁ target cause, (job.emit : JobM (StateM σ) (List Rendered)) p
          ((Console.now : StateM σ Nat) s).2 = ((.ok rendered, ⟨.emitting, none⟩), s₁) ∧
        Delivery.Refused job.output job.dirs rendered s₁ target cause ∧ cause.isOfDisk = true ∧
        fault = .unwritable target cause ∧ p' = ⟨.failed, target⟩ := by
  rcases run_cases hsome p s with ⟨files, hend⟩ | ⟨e, q, s₁, hemit, hend⟩ |
    ⟨_, rendered, s₁, _, hemit, ⟨target, cause, hrefused, hdisk, hend⟩ | ⟨cause, current, hend, _⟩⟩ <;>
    rw [h] at hend <;> obtain ⟨hfault, hleft⟩ := Prod.mk.inj hend
  · nomatch hfault
  · have hrun := h.symm.trans (run_of_emit_error hemit)
    obtain ⟨_, rfl⟩ := Prod.mk.inj hrun
    obtain rfl := Except.error.inj hfault
    obtain rfl : p' = q := hleft
    refine Or.inl ⟨stopsAt_of_emit hsome hemit, fun P hP hs => ?_⟩
    have huntouched := untouched_emit job p ((Console.now : StateM σ Nat) s).2 P hP (hP.now s hs)
    rw [hemit] at huntouched
    exact huntouched
  · obtain rfl := JobFault.generation.inj (Except.error.inj hfault)
    exact Or.inr ⟨rendered, s₁, target, cause, hemit, hrefused, hdisk, rfl, hleft⟩
  · nomatch hfault

/-- A run whose files the disk refuses reports it, and leaves the job working for their target. -/
theorem run_refused [MarkupReader] {rendered : List Rendered} {p' : Progress} {s₁ : σ}
    {target : Option String} {cause : DiskFault}
    (hemit : (job.emit : JobM (StateM σ) (List Rendered)) p ((Console.now : StateM σ Nat) s).2 =
      ((.ok rendered, p'), s₁))
    (hrefused : Delivery.Refused job.output job.dirs rendered s₁ target cause)
    (hdisk : cause.isOfDisk = true) :
    ((job.run : JobM (StateM σ) (List Path)) p s).1 =
      (.error (.generation (.unwritable target cause)), ⟨.failed, target⟩) := by
  rw [run_ends_eq, hemit]
  dsimp only
  rw [Delivery.deliver_unwritten.2 hrefused]
  unfold delivered
  dsimp only
  rw [hdisk]
  rfl

/-- Who runs without being loaded loads first. -/
theorem run_unloaded [MarkupReader] (h : ∀ model options, p.phase ≠ .loaded model options) (s : σ) :
    (job.run : JobM (StateM σ) (List Path)) p s =
      (job.load >>= fun _ => job.emit >>= job.finish ((Console.now : StateM σ Nat) s).1 :
        JobM (StateM σ) (List Path)) p ((Console.now : StateM σ Nat) s).2 := by
  rw [run_eq, run_bind, emit_unloaded h, run_bind, run_bind]
  rcases (job.load : JobM (StateM σ) (Model × Options)) p ((Console.now : StateM σ Nat) s).2 with
    ⟨⟨e | meant, p'⟩, s'⟩
  · rfl
  · dsimp only
    rw [run_bind]

end Job

/-- The emitters of a job stand in the order they are given in, however it asks for their targets. -/
theorem Job.sublist_of_ofTargets {description output : Path} {targets : List String}
    {overrides : List (String × Value)} {emitters : List Emitter} {table : ErrorTable} {job : Job}
    (h : Job.ofTargets description output targets overrides emitters table = .ok job) :
    job.emitters.Sublist emitters := by
  unfold Job.ofTargets at h
  dsimp only at h
  generalize (if targets.isEmpty then emitters.map (·.target) else targets) = wanted at h
  split at h
  · nomatch h
  · rw [← Except.ok.inj h]
    exact List.filter_sublist

/-! ## The theorem -/

/-- **How a job stands after any calls, and how the next call leaves it.**  Whatever has happened, its
emitters stand in their fixed order, and it works for one of them or for none.  A call that reports a
fault leaves it failed; loading leaves it loaded, generating and a run leave it working for none.
Generating stops at the first emitter that gives no files, with nothing touched and nobody behind it
asked, also in a run.  A run that the disk refuses while the files of a target are staged leaves the
job working for that target and reports it, unless it has no name; one that is refused while the files
are put in place works for none and reports the output.  Whoever generates or runs without being
loaded loads the description first, and loading reads it. -/
theorem Job.phases_after [MarkupReader] {description output : Path} {targets : List String}
    {overrides : List (String × Value)} {emitters : List Emitter} {table : ErrorTable} {job : Job}
    (hjob : Job.ofTargets description output targets overrides emitters table = .ok job)
    (hsome : job.emitters ≠ []) (start : σ) (ts : List (Turn σ)) {p : Progress} {s : σ}
    (hts : job.turns start ts = (p, s)) :
    (job.emitters.Sublist emitters ∧ job.Stands p) ∧
    (Leaves job.load p s (fun meant => ⟨.loaded meant.1 meant.2, p.current⟩) ∧
      Leaves job.emit p s (fun _ => ⟨.emitting, none⟩) ∧
      Leaves job.run p s fun _ => ⟨.done, none⟩) ∧
    (∀ fault p' s', (job.emit : JobM (StateM σ) (List Rendered)) p s =
        ((.error (.generation fault), p'), s') →
      job.StopsAt p s fault p' ∧ Untouched s s') ∧
    (∀ fault p' s', (job.run : JobM (StateM σ) (List Path)) p s =
        ((.error (.generation fault), p'), s') →
      (job.StopsAt p ((Console.now : StateM σ Nat) s).2 fault p' ∧ Untouched s s') ∨
      ∃ rendered s₁ target cause, (job.emit : JobM (StateM σ) (List Rendered)) p
          ((Console.now : StateM σ Nat) s).2 = ((.ok rendered, ⟨.emitting, none⟩), s₁) ∧
        Delivery.Refused job.output job.dirs rendered s₁ target cause ∧ cause.isOfDisk = true ∧
        fault = .unwritable target cause ∧ p' = ⟨.failed, target⟩) ∧
    (∀ rendered p' s₁ target cause, (job.emit : JobM (StateM σ) (List Rendered)) p
        ((Console.now : StateM σ Nat) s).2 = ((.ok rendered, p'), s₁) →
      Delivery.Refused job.output job.dirs rendered s₁ target cause → cause.isOfDisk = true →
      ((job.run : JobM (StateM σ) (List Path)) p s).1 =
          (.error (.generation (.unwritable target cause)), ⟨.failed, target⟩) ∧
        (GenerationFault.unwritable target cause).target = match target with
          | none => "output"
          | some name => if name = "" then "output" else name) ∧
    ((∀ model options, p.phase ≠ .loaded model options) →
      (job.emit : JobM (StateM σ) (List Rendered)) p s = (job.load >>= fun _ => job.emit :
        JobM (StateM σ) (List Rendered)) p s ∧
      (job.run : JobM (StateM σ) (List Path)) p s =
        (job.load >>= fun _ => job.emit >>= job.finish ((Console.now : StateM σ Nat) s).1 :
          JobM (StateM σ) (List Path)) p ((Console.now : StateM σ Nat) s).2) ∧
    ((job.load : JobM (StateM σ) (Model × Options)) p s).1.1 =
      (job.describe s).1.mapError .load := by
  have hstands : job.Stands p := by
    have h := Job.stands_turns hsome start ts
    rw [hts] at h
    exact h
  refine ⟨⟨Job.sublist_of_ofTargets hjob, hstands⟩, ⟨Job.leaves_load job p s, Job.leaves_emit hsome p s,
    Job.leaves_run hsome p s⟩, ?_, fun _ _ _ hrun => Job.run_fails hsome hrun, ?_, ?_, ?_⟩
  · intro fault p' s' hemit
    have huntouched := Job.untouched_emit job p s
    rw [hemit] at huntouched
    exact ⟨Job.stopsAt_of_emit hsome hemit, huntouched⟩
  · intro rendered p' s₁ target cause hemit hrefused hdisk
    refine ⟨Job.run_refused hemit hrefused hdisk, ?_⟩
    cases target with
    | none => rfl
    | some name => exact GenerationFault.target_unwritable name cause
  · exact fun hphase => ⟨Job.emit_unloaded hphase s, Job.run_unloaded hphase s⟩
  · rw [Job.load_eq]
    rcases job.describe s with ⟨cause | meant, s'⟩ <;> rfl

/-- A job for a target without a name, whose second file cannot stand below its first. -/
def Job.namelessJob : Job where
  description := .ofString "a.idl"
  output := .ofString "out"
  overrides := []
  emitters := [⟨"", ["a"], fun _ _ _ => .ok [⟨"a/x", "1", true⟩, ⟨"a/x/y", "2", true⟩]⟩]
  table := .standard

/-- Whether a run is refused by the disk for a target without a name. -/
def Job.refusedNameless {α : Type} : Except JobFault α → Bool
  | .error (.generation (.unwritable (some target) _)) => target == ""
  | _ => false

/-- It is left working for its target, and the fault is reported for the output. -/
theorem Job.phases_after_nameless :
    Job.ofTargets (.ofString "a.idl") (.ofString "out") [""] [] Job.namelessJob.emitters .standard =
        .ok Job.namelessJob ∧
      ∃ cause, (Job.namelessJob.runIn .start (.ofTree Job.sampleTree ["w"])).1 =
          (.error (.generation (.unwritable (some "") cause)), ⟨.failed, some ""⟩) ∧
        (GenerationFault.unwritable (some "") cause).target = "output" := by
  have hjob : Job.ofTargets (.ofString "a.idl") (.ofString "out") [""] []
      Job.namelessJob.emitters .standard = .ok Job.namelessJob := rfl
  have hrefused : Job.refusedNameless
      (Job.namelessJob.runIn .start (.ofTree Job.sampleTree ["w"])).1.1 = true := by decide +kernel
  have hphases := Job.phases_after hjob (by decide) (World.ofTree Job.sampleTree ["w"]) []
    (p := .start) rfl
  refine ⟨hjob, ?_⟩
  rcases hrun : Job.namelessJob.runIn .start (.ofTree Job.sampleTree ["w"]) with ⟨⟨r, p'⟩, w'⟩
  rw [hrun] at hrefused
  unfold Job.refusedNameless at hrefused
  dsimp only at hrefused
  split at hrefused
  · rename_i target cause
    obtain rfl := eq_of_beq hrefused
    rcases hphases.2.2.2.1 _ _ _ hrun with ⟨hstops, _⟩ |
      ⟨rendered, w₁, target, cause', hemit, hrefused, hdisk, hfault, rfl⟩
    · cases hstops with
      | intro _ _ _ hrender _ _ => exact absurd hrender Emitter.render_ne_unwritable
    · obtain ⟨rfl, rfl⟩ := GenerationFault.unwritable.inj hfault
      have hreported := hphases.2.2.2.2.1 rendered _ w₁ _ _ hemit hrefused hdisk
      exact ⟨_, rfl, hreported.2⟩
  · cases hrefused

end Bindery
