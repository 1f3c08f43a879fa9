/-
  THE COURSE of a run: load, generate, deliver.

  `Runs` says of an operation on a job what holds of the progress and the tree after it.  Loading and
  generating leave the tree as it is (`emitAt` is what they come to), and what has been generated may
  be put in place (`proper_of_emitAt`).  So all that a run does to a tree is its delivery
  (`runs_run`).  A fault that is foreseen leaves the job failed, any other where it was (`leaves`).
-/
import Bindery.Proofs.Job.Delivering
import Bindery.Proofs.Job.Loading
import Bindery.Job.Run

namespace Bindery

open Bindery.Tree

variable {α β : Type} {f : Failures} {home : Place} {t : Tree}

/-! ## Operations on a job -/

/-- One operation after another, whatever the disk is: a fault of the first is the outcome of
both. -/
theorem run_bind {σ : Type} {x : JobM (StateM σ) α} {k : α → JobM (StateM σ) β} {p : Progress}
    {w : σ} : (x >>= k) p w = match x p w with
      | ((.ok a, p'), w') => k a p' w'
      | ((.error e, p'), w') => ((.error e, p'), w') := by
  show (ExceptT.bindCont k (x p w).1.1) (x p w).1.2 (x p w).2 = _
  rcases x p w with ⟨⟨e | a, p'⟩, w'⟩ <;> rfl

/-- An operation outside the job leaves alone how far the job has come. -/
theorem run_outcome {σ ε : Type} (x : ExceptT ε (StateM σ) α) (p : Progress) (s : σ) :
    (Job.outcome x : JobM (StateM σ) (Except ε α)) p s = ((.ok (x s).1, p), (x s).2) := rfl

/-- What holds of an outcome, with the progress and the tree that it comes with. -/
def Ends (good : α → Progress → Tree → Prop) (bad : JobFault → Progress → Tree → Prop) :
    Except JobFault α × Progress → Tree → Prop
  | (.ok a, p) => good a p
  | (.error e, p) => bad e p

/-- `Runs f home x p t good bad` — from the progress `p` and the tree `t` the operation succeeds
with `good` or fails with `bad`. -/
def Runs (f : Failures) (home : Place) (x : JobM (StateM World) α) (p : Progress) (t : Tree)
    (good : α → Progress → Tree → Prop) (bad : JobFault → Progress → Tree → Prop) : Prop :=
  ∀ w : World, w.At f home t → ∃ t', (x p w).2.At f home t' ∧ Ends good bad (x p w).1 t'

namespace Runs

variable {x : JobM (StateM World) α} {p : Progress} {good good' : α → Progress → Tree → Prop}
  {bad bad' : JobFault → Progress → Tree → Prop}

theorem mono (h : Runs f home x p t good bad) (hgood : ∀ a p' t', good a p' t' → good' a p' t')
    (hbad : ∀ e p' t', bad e p' t' → bad' e p' t') : Runs f home x p t good' bad' := by
  intro w hw
  obtain ⟨t', ht', hends⟩ := h w hw
  refine ⟨t', ht', ?_⟩
  rcases hx : (x p w).1 with ⟨e | a, p'⟩ <;> rw [hx] at hends
  · exact hbad e p' t' hends
  · exact hgood a p' t' hends

theorem pure {a : α} (h : good a p t) :
    Runs f home (Pure.pure a : JobM (StateM World) α) p t good bad :=
  fun _ hw => ⟨t, hw, h⟩

theorem throw {e : JobFault} (h : bad e p t) :
    Runs f home (MonadExcept.throw e : JobM (StateM World) α) p t good bad :=
  fun _ hw => ⟨t, hw, h⟩

theorem bind {k : α → JobM (StateM World) β} {goodk : β → Progress → Tree → Prop}
    (h : Runs f home x p t good bad)
    (hk : ∀ a p' t', good a p' t' → Runs f home (k a) p' t' goodk bad) :
    Runs f home (x >>= k) p t goodk bad := by
  intro w hw
  obtain ⟨t', ht', hends⟩ := h w hw
  rw [run_bind]
  rcases hx : x p w with ⟨⟨e | a, p'⟩, w'⟩ <;> rw [hx] at ht' hends
  · exact ⟨t', ht', hends⟩
  · exact hk a p' t' hends w' ht'

/-- What stands behind a fault is not reached. -/
theorem throw_bind {e : JobFault} {k : α → JobM (StateM World) β}
    {goodk : β → Progress → Tree → Prop} (h : bad e p t) :
    Runs f home ((MonadExcept.throw e : JobM (StateM World) α) >>= k) p t goodk bad :=
  fun _ hw => ⟨t, hw, h⟩

theorem ite {c : Prop} [Decidable c] {y : JobM (StateM World) α}
    (hx : c → Runs f home x p t good bad) (hy : ¬c → Runs f home y p t good bad) :
    Runs f home (if c then x else y) p t good bad := by
  by_cases h : c
  · rw [if_pos h]
    exact hx h
  · rw [if_neg h]
    exact hy h

/-- An operation outside the job. -/
theorem outcome {ε : Type} {y : ExceptT ε (StateM World) α} {goody : α → Tree → Prop}
    {bady : ε → Tree → Prop} (h : Steps f home y t goody bady) :
    Runs f home (Job.outcome y) p t (fun r p' t' => p' = p ∧ Settles goody bady r t') bad := by
  intro w hw
  obtain ⟨t', ht', hs⟩ := h w hw
  exact ⟨t', ht', rfl, hs⟩

/-- What is said, and the time, change neither progress nor tree. -/
theorem note (e : Event) :
    Runs f home (Job.note e) p t (fun _ p' t' => p' = p ∧ t' = t) bad := by
  rintro w ⟨hf, hhome, ht⟩
  exact ⟨t, ⟨hf, hhome, ht⟩, rfl, rfl⟩

theorem now : Runs f home (ExceptT.lift (StateT.lift Console.now)) p t
    (fun _ p' t' => p' = p ∧ t' = t) bad :=
  fun _ hw => ⟨t, hw, rfl, rfl⟩

theorem become (phase : Phase) :
    Runs f home (Job.become phase) p t (fun _ p' t' => p' = { p with phase } ∧ t' = t) bad :=
  fun _ hw => ⟨t, hw, rfl, rfl⟩

theorem workFor (target : Option String) :
    Runs f home (Job.workFor target) p t
      (fun _ p' t' => p' = { p with current := target } ∧ t' = t) bad :=
  fun _ hw => ⟨t, hw, rfl, rfl⟩

/-- What runs mean for one run. -/
theorem elim {w : World} (h : Runs f home x p t good bad) (hw : w.At f home t) :
    Ends good bad (x p w).1 (x p w).2.tree := by
  obtain ⟨t', ht', hends⟩ := h w hw
  rw [ht'.tree]
  exact hends

end Runs

/-! ## Loading -/

namespace JobFault

variable {e : JobFault} {phase : Phase}

/-- The phase that a fault leaves: one that is foreseen leaves a job failed, any other where it
was. -/
def leaves (e : JobFault) (phase : Phase) : Phase := if e.isForeseen then .failed else phase

theorem leaves_foreseen (h : e.isForeseen = true) : e.leaves phase = .failed := if_pos h

theorem leaves_unforeseen (h : ¬e.isForeseen = true) : e.leaves phase = phase := if_neg h

end JobFault

namespace Job

variable {p : Progress}

/-- What the description is taken to mean: what was loaded last, or else what is loaded now. -/
def sourceAt [MarkupReader] (job : Job) (t : Tree) (home : Place) (p : Progress) :
    Except LoadFault (Model × Options) :=
  match p.phase with
  | .loaded model options => .ok (model, options)
  | _ => Description.loadAt t home job.description job.overrides

theorem runs_load [MarkupReader] (job : Job) :
    Runs f home job.load p t
      (fun a p' t' => t' = t ∧ p'.phase = .loaded a.1 a.2 ∧
        Description.loadAt t home job.description job.overrides = .ok a)
      (fun e p' t' => t' = t ∧ p'.phase = e.leaves p.phase ∧ ∃ cause, e = .load cause ∧
        Description.loadAt t home job.description job.overrides = .error cause) := by
  refine Runs.bind (Runs.outcome (Description.answers_load _ _)) ?_
  rintro (cause | ⟨model, options⟩) p' t' ⟨rfl, hsettled⟩
  · obtain ⟨rfl, hload⟩ : t' = t ∧ _ := hsettled
    refine Runs.ite (fun hforeseen => ?_) fun hforeseen => ?_
    · refine Runs.bind (Runs.become _) ?_
      rintro _ p'' t'' ⟨rfl, rfl⟩
      exact Runs.throw ⟨rfl, (JobFault.leaves_foreseen (e := .load cause) hforeseen).symm, cause,
        rfl, hload⟩
    · exact Runs.throw ⟨rfl, (JobFault.leaves_unforeseen (e := .load cause) hforeseen).symm, cause,
        rfl, hload⟩
  · obtain ⟨rfl, hload⟩ : t' = t ∧ _ := hsettled
    refine Runs.bind (Runs.become _) ?_
    rintro _ p'' t'' ⟨rfl, rfl⟩
    refine Runs.bind (Runs.note _) ?_
    rintro _ p'' t'' ⟨rfl, rfl⟩
    exact Runs.pure ⟨rfl, rfl, hload⟩

theorem runs_source [MarkupReader] (job : Job) :
    Runs f home job.source p t
      (fun a p' t' => t' = t ∧ p'.phase = .loaded a.1 a.2 ∧ job.sourceAt t home p = .ok a)
      (fun e p' t' => t' = t ∧ p'.phase = e.leaves p.phase ∧ ∃ cause, e = .load cause ∧
        job.sourceAt t home p = .error cause) := by
  have hget : Runs f home (get : JobM (StateM World) Progress) p t
      (fun a p' t' => a = p ∧ p' = p ∧ t' = t)
      (fun e p' t' => t' = t ∧ p'.phase = e.leaves p.phase ∧ ∃ cause, e = .load cause ∧
        job.sourceAt t home p = .error cause) := fun _ hw => ⟨t, hw, rfl, rfl, rfl⟩
  refine Runs.bind hget ?_
  rintro _ p t ⟨rfl, rfl, rfl⟩
  obtain ⟨phase, current⟩ := p
  unfold sourceAt
  cases phase with
  | loaded model options => exact Runs.pure ⟨rfl, rfl, rfl⟩
  | idle => exact runs_load job
  | emitting => exact runs_load job
  | done => exact runs_load job
  | failed => exact runs_load job

end Job

/-! ## Generating -/

/-- The files of all emitters; a fault comes with the target of its emitter. -/
def renderAll (model : Model) (options : Options) (table : ErrorTable) :
    List Emitter → List Rendered → Except (String × GenerationFault) (List Rendered)
  | [], done => .ok done
  | e :: es, done =>
    match e.render model options table with
    | .error fault => .error (e.target, fault)
    | .ok files => renderAll model options table es (Rendered.put ⟨e.target, files⟩ done)

theorem answers_renderEach (model : Model) (options : Options) (table : ErrorTable)
    (es : List Emitter) (done : List Rendered) :
    Answers f home (Job.renderEach model options table es done) t
      (renderAll model options table es done) := by
  induction es generalizing done with
  | nil => exact Answers.pure done
  | cons e es ih =>
    refine Answers.after (Answers.note _) ?_
    unfold renderAll
    cases e.render model options table with
    | error fault => exact Answers.throw _
    | ok files => exact Answers.after (Answers.note _) (ih _)

theorem mem_put {r g : Rendered} {rs : List Rendered} (h : g ∈ Rendered.put r rs) :
    g = r ∨ g ∈ rs := by
  induction rs with
  | nil => exact Or.inl (List.mem_singleton.1 h)
  | cons s rs ih =>
    unfold Rendered.put at h
    split at h
    · rcases List.mem_cons.1 h with rfl | h
      · exact Or.inl rfl
      · exact Or.inr (List.mem_cons_of_mem _ h)
    · rcases List.mem_cons.1 h with rfl | h
      · exact Or.inr List.mem_cons_self
      · exact (ih h).imp_right (List.mem_cons_of_mem _)

/-- A path that is let through leads down from one of the directories to something below it. -/
theorem proper_of_checkPath {e : Emitter} {file : Source.File}
    (h : e.checkPath file.path = .ok ()) : file.Proper ∧ file.names.head? ∈ e.dirs.map some := by
  unfold Emitter.checkPath at h
  dsimp only at h
  split at h
  · rename_i top next rest hnames
    split at h
    · nomatch h
    · rename_i hgood
      simp only [Bool.or_eq_true, not_or, Bool.not_eq_true] at hgood
      split at h
      · rename_i htop
        refine ⟨⟨hgood.1, fun name hname hup => ?_, top, next, rest, hnames⟩, ?_⟩
        · have hcontains : file.names.contains upName = false := hgood.2
          rw [hup] at hname
          rw [List.contains_iff_mem.2 hname] at hcontains
          nomatch hcontains
        · rw [Source.File.names, hnames, List.mem_map]
          exact ⟨top, List.contains_iff_mem.1 htop, rfl⟩
      · nomatch h
  · nomatch h

theorem proper_of_checkPaths {e : Emitter} {files : List Source.File}
    (h : e.checkPaths files = .ok ()) :
    ∀ file ∈ files, file.Proper ∧ file.names.head? ∈ e.dirs.map some := by
  induction files with
  | nil => exact fun _ h => (nomatch h)
  | cons file files ih =>
    obtain ⟨_, hfile, hfiles⟩ := bind_eq_ok.1 h
    exact List.forall_mem_cons.2 ⟨proper_of_checkPath hfile, ih hfiles⟩

theorem render_eq_ok {e : Emitter} {model : Model} {options : Options} {table : ErrorTable}
    {files : List Source.File} :
    e.render model options table = .ok files ↔
      e.emit model options table = .ok files ∧ e.checkPaths files = .ok () := by
  unfold Emitter.render
  rw [bind_eq_ok]
  constructor
  · rintro ⟨emitted, hemit, h⟩
    obtain ⟨_, hcheck, h⟩ := bind_eq_ok.1 h
    cases Except.ok.inj h
    refine ⟨?_, hcheck⟩
    cases hx : e.emit model options table with
    | error fault =>
      rw [hx] at hemit
      nomatch hemit
    | ok given =>
      rw [hx] at hemit
      exact congrArg _ (Except.ok.inj hemit)
  · rintro ⟨hemit, hcheck⟩
    refine ⟨files, by rw [hemit]; rfl, ?_⟩
    rw [hcheck]
    rfl

/-- What has been generated may be put in place. -/
theorem proper_of_renderAll {model : Model} {options : Options} {table : ErrorTable}
    {es : List Emitter} {done rendered : List Rendered}
    (h : renderAll model options table es done = .ok rendered)
    (hdone : ∀ r ∈ done, ∀ file ∈ r.files, file.Proper) :
    ∀ r ∈ rendered, ∀ file ∈ r.files, file.Proper := by
  induction es generalizing done with
  | nil =>
    cases h
    exact hdone
  | cons e es ih =>
    unfold renderAll at h
    cases hrender : e.render model options table with
    | error fault =>
      rw [hrender] at h
      nomatch h
    | ok files =>
      rw [hrender] at h
      refine ih h fun r hr file hfile => ?_
      rcases mem_put hr with rfl | hr
      · exact (proper_of_checkPaths (render_eq_ok.1 hrender).2 file hfile).1
      · exact hdone r hr file hfile

namespace Job

variable {p : Progress}

/-- What loading and generating come to. -/
def emitAt [MarkupReader] (job : Job) (t : Tree) (home : Place) (p : Progress) :
    Except JobFault (List Rendered) := do
  let (model, options) ← (job.sourceAt t home p).mapError .load
  (renderAll model options job.table job.emitters []).mapError fun e => .generation e.2

/-- How far a job is when its files are generated. -/
def emitted (job : Job) (meant : Model × Options) : Phase :=
  if job.emitters.isEmpty then .loaded meant.1 meant.2 else .emitting

theorem runs_emit [MarkupReader] (job : Job) :
    Runs f home job.emit p t
      (fun rendered p' t' => t' = t ∧ job.emitAt t home p = .ok rendered ∧
        ∃ meant, job.sourceAt t home p = .ok meant ∧ p'.phase = job.emitted meant)
      (fun e p' t' => t' = t ∧ job.emitAt t home p = .error e ∧ p'.phase = e.leaves p.phase) := by
  refine Runs.bind ((runs_source job).mono (fun _ _ _ h => h) ?_) ?_
  · rintro e p' t' ⟨rfl, hphase, cause, rfl, hsource⟩
    refine ⟨rfl, ?_, hphase⟩
    unfold emitAt
    rw [hsource]
    rfl
  · rintro ⟨model, options⟩ p' t' ⟨rfl, hphase, hsource⟩
    refine Runs.bind (Runs.outcome (answers_renderEach _ _ _ _ _)) ?_
    rintro (⟨target, fault⟩ | rendered) p'' t'' ⟨rfl, hsettled⟩
    · obtain ⟨rfl, hrender⟩ : t'' = t' ∧ _ := hsettled
      refine Runs.bind (Runs.become _) ?_
      rintro _ p₁ t₁ ⟨rfl, rfl⟩
      refine Runs.bind (Runs.workFor _) ?_
      rintro _ p₂ t₂ ⟨rfl, rfl⟩
      refine Runs.throw ⟨rfl, ?_, rfl⟩
      unfold emitAt
      rw [hsource]
      show (renderAll _ _ _ _ _).mapError _ = _
      rw [hrender]
      rfl
    · obtain ⟨rfl, hrender⟩ : t'' = t' ∧ _ := hsettled
      have hemit : job.emitAt t'' home p = .ok rendered := by
        unfold emitAt
        rw [hsource]
        show (renderAll _ _ _ _ _).mapError _ = _
        rw [hrender]
        rfl
      have hend : ∀ q : Progress, q.phase = job.emitted (model, options) → Runs f home (do
          Job.workFor none
          return rendered) q t''
          (fun rendered p' t' => t' = t'' ∧ job.emitAt t'' home p = .ok rendered ∧
            ∃ meant, job.sourceAt t'' home p = .ok meant ∧ p'.phase = job.emitted meant)
          (fun e p' t' => t' = t'' ∧ job.emitAt t'' home p = .error e ∧
            p'.phase = e.leaves p.phase) := by
        intro q hq
        refine Runs.bind (Runs.workFor _) ?_
        rintro _ p₂ t₂ ⟨rfl, rfl⟩
        exact Runs.pure ⟨rfl, hemit, _, hsource, hq⟩
      refine Runs.ite (fun hsome => ?_) fun hnone => hend _ ?_
      · refine Runs.bind (Runs.become _) ?_
        rintro _ p₁ t₁ ⟨rfl, rfl⟩
        exact hend _ (if_neg fun h => by rw [h] at hsome; nomatch hsome).symm
      · refine hphase.trans (if_pos ?_).symm
        simpa using hnone

theorem proper_of_emitAt [MarkupReader] {job : Job} {rendered : List Rendered}
    (h : job.emitAt t home p = .ok rendered) : ∀ r ∈ rendered, ∀ file ∈ r.files, file.Proper := by
  obtain ⟨⟨model, options⟩, _, h⟩ := bind_eq_ok.1 h
  cases hrender : renderAll model options job.table job.emitters [] with
  | error fault =>
    dsimp only at h
    rw [hrender] at h
    nomatch h
  | ok all =>
    dsimp only at h
    rw [hrender] at h
    cases h
    exact proper_of_renderAll hrender fun _ h => (nomatch h)

/-! ## Running -/

theorem runs_noteEach (files : List Path) {bad : JobFault → Progress → Tree → Prop} :
    Runs f home (noteEach files) p t (fun _ _ t' => t' = t) bad := by
  induction files with
  | nil => exact Runs.pure rfl
  | cons file files ih =>
    refine Runs.bind (Runs.note _) ?_
    rintro _ p' t' ⟨rfl, rfl⟩
    exact ih

end Job

/-- Whether a fault is one of putting files in place, and not of loading or generating. -/
def JobFault.isOfWriting : JobFault → Bool
  | .disk _ | .generation (.unwritable _ _) => true
  | _ => false

/-- What a run has to know about its job and the disk. -/
structure Job.Runnable (job : Job) (f : Failures) (home : Place) : Prop where
  ofDisk : f.OfDisk
  restore : ∀ n, f.restore n = none
  discard : ∀ n, f.discard n = false
  nodup : job.dirs.Nodup
  component : ∀ d ∈ job.dirs, IsComponent d
  avoids : ∀ d ∈ job.dirs, job.output.Avoids home (job.output.placeOf home ++ [d])

theorem Job.Runnable.deliverable [MarkupReader] {job : Job} {p : Progress} {rendered : List Rendered}
    (h : job.Runnable f home) (hemit : job.emitAt t home p = .ok rendered) :
    Delivery.Deliverable f home job.output job.dirs rendered where
  ofDisk := h.ofDisk
  restore := h.restore
  discard := h.discard
  nodup := h.nodup
  component := h.component
  avoids := h.avoids
  proper := proper_of_emitAt hemit

/-- The fault of a job that a fault of its delivery is. -/
def JobFault.ofDelivery : DeliveryFault → JobFault
  | .unprepared cause => .disk cause
  | .unwritten target cause =>
    if cause.isOfDisk then .generation (.unwritable target cause) else .disk cause

theorem JobFault.isOfWriting_ofDelivery (fault : DeliveryFault) :
    (ofDelivery fault).isOfWriting = true := by
  cases fault with
  | unprepared cause => rfl
  | unwritten target cause =>
    show (if cause.isOfDisk then _ else _ : JobFault).isOfWriting = true
    split
    · rfl
    · rfl

/-- All that a run does to a tree is its delivery. -/
theorem Job.runs_run [MarkupReader] {job : Job} {p : Progress}
    {good : List Rendered → List Path → Tree → Prop}
    {bad : List Rendered → DeliveryFault → Tree → Prop}
    (h : ∀ rendered, job.emitAt t home p = .ok rendered →
      Steps f home (Delivery.deliver job.output job.dirs rendered) t (good rendered)
        (bad rendered)) :
    Runs f home job.run p t
      (fun files p' t' => p'.phase = .done ∧
        ∃ rendered, job.emitAt t home p = .ok rendered ∧ good rendered files t')
      (fun e p' t' => job.emitAt t home p = .error e ∧ t' = t ∧ p'.phase = e.leaves p.phase ∨
        ∃ rendered fault, job.emitAt t home p = .ok rendered ∧ e = .ofDelivery fault ∧
          bad rendered fault t' ∧
          ∃ meant, job.sourceAt t home p = .ok meant ∧ p'.phase = e.leaves (job.emitted meant)) := by
  refine Runs.bind Runs.now ?_
  rintro start p₁ t ⟨rfl, rfl⟩
  refine Runs.bind ((runs_emit job).mono (fun _ _ _ h => h) ?_) ?_
  · rintro e _ t' ⟨rfl, hemit, hphase⟩
    exact Or.inl ⟨hemit, rfl, hphase⟩
  · rintro rendered p₂ t ⟨rfl, hemit, meant, hsource, hphase⟩
    refine Runs.bind (Runs.outcome (h rendered hemit)) ?_
    rintro (fault | files) p₃ t' ⟨rfl, hsettled⟩
    · have hbad : bad rendered fault t' := hsettled
      cases fault with
      | unprepared cause => exact Runs.throw (Or.inr ⟨rendered, _, hemit, rfl, hbad, meant, hsource, hphase⟩)
      | unwritten target cause =>
        refine Runs.bind (Runs.workFor _) ?_
        rintro _ p₄ t' ⟨rfl, rfl⟩
        refine Runs.ite (fun hdisk => ?_) fun hdisk => ?_
        · refine Runs.bind (Runs.become _) ?_
          rintro _ p₅ t' ⟨rfl, rfl⟩
          refine Runs.throw_bind (Or.inr ⟨rendered, _, hemit, ?_, hbad, meant, hsource, rfl⟩)
          rw [JobFault.ofDelivery, if_pos hdisk]
        · refine Runs.throw (Or.inr ⟨rendered, _, hemit, ?_, hbad, meant, hsource, hphase⟩)
          rw [JobFault.ofDelivery, if_neg hdisk]
    · have hgood : good rendered files t' := hsettled
      refine Runs.bind (runs_noteEach files) ?_
      rintro _ p₄ t' rfl
      refine Runs.bind (Runs.become _) ?_
      rintro _ p₅ t' ⟨rfl, rfl⟩
      refine Runs.bind Runs.now ?_
      rintro stop p₆ t' ⟨rfl, rfl⟩
      refine Runs.bind (Runs.note _) ?_
      rintro _ p₇ t' ⟨rfl, rfl⟩
      exact Runs.pure ⟨rfl, rendered, hemit, hgood⟩

end Bindery
