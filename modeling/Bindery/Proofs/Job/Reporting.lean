/-
  WHICH FAULTS ARE REPORTED, and what breaks a run off.

  A run that is done and a run that reports its fault say so by their phase.  Besides these two there
  is a third way to end: a fault that nothing foresees leaves the job where it was (`Breaks`).  Such a
  fault comes from a description that cannot be read to its end, from a place that cannot be made for
  the outputs, or from a text or a path that no disk can have.  A file that stands in the place of the
  output directory is enough (`run_reports`).
-/
import Bindery.Proofs.Job.Checking

namespace Bindery

variable {f : Failures} {home : Place} {t : Tree} {p : Progress} {w : World}

/-! ## A file in the place of a directory -/

namespace Tree

/-- Where a file stands no directory is made. -/
theorem makeDir_over_file {path : Path} (h : t.look home path = .ok (some .file)) :
    t.makeDir home path = .error .alreadyThere := by
  obtain ⟨hfits, hopen, hkind⟩ := look_eq_some.1 h
  obtain ⟨entry, hentry, _⟩ := Option.map_eq_some_iff.1 hkind
  refine bind_eq_error.2 (Or.inr ⟨_, locate_eq_place hfits hopen, ?_⟩)
  rw [hentry]

end Tree

section

variable {path : Path} (hf : f.Quiet) (h : t.look home path = .ok (some .file))
include hf h

theorem steps_ensureDir_over_file :
    Steps f home (Disk.ensureDir path) t (fun _ _ => False) (fun e _ => e = .alreadyThere) := by
  refine Steps.tryCatch ((steps_makeDir path).mono (fun _ t' hmade => ?_) fun _ _ h => h) ?_
  · have hrefused := Tree.makeDir_over_file h
    rw [hmade] at hrefused
    nomatch hrefused
  · rintro e t ⟨rfl, hrefused⟩
    obtain rfl : e = .alreadyThere :=
      (Except.error.inj ((Tree.makeDir_over_file h).symm.trans (hrefused.eq_error hf))).symm
    refine Steps.bind ((steps_look_map path).mono (fun _ _ h => h) ?_) ?_
    · rintro e t' ⟨rfl, hlook⟩
      rw [h] at hlook
      nomatch hlook
    · rintro b t' ⟨rfl, k, hlook, rfl⟩
      obtain rfl := Except.ok.inj (h.symm.trans hlook)
      exact Steps.throw rfl

/-- Where a file stands, there will be no directory. -/
theorem steps_ensureDirs_over_file :
    Steps f home (Disk.ensureDirs path) t (fun _ _ => False) (fun e _ => e = .alreadyThere) := by
  have hpath : (⟨path.anchor, path.names.reverse.reverse⟩ : Path) = path := by
    rw [List.reverse_reverse]
  have hfirst := steps_ensureDir_over_file hf h
  unfold Disk.ensureDirs
  cases hnames : path.names.reverse with
  | nil =>
    rw [hnames] at hpath
    unfold Disk.ensureDirsAt
    rw [show (⟨path.anchor, []⟩ : Path) = path from hpath]
    exact hfirst
  | cons name above =>
    rw [hnames] at hpath
    unfold Disk.ensureDirsAt
    dsimp only
    rw [hpath]
    refine Steps.tryCatch hfirst ?_
    rintro _ t' rfl
    exact Steps.throw_bind rfl

/-- Nothing is delivered to where a file stands. -/
theorem steps_deliver_over_file (dirs : List String) (rendered : List Rendered) :
    Steps f home (Delivery.deliver path dirs rendered) t (fun _ _ => False)
      (fun e _ => e = .unprepared .alreadyThere) := by
  refine Steps.bind (Steps.adapt ((steps_ensureDirs_over_file hf h).mono (fun _ _ h => h) ?_)) ?_
  · rintro _ _ rfl
    rfl
  · exact fun _ _ hnone => hnone.elim

end

/-! ## Ways to end -/

/-- `Breaks job t home p e phase` — a fault that is not foreseen breaks a run off in a phase: loading
stops and the job is where it was, or the generated files cannot be put anywhere. -/
inductive Breaks [MarkupReader] (job : Job) (t : Tree) (home : Place) (p : Progress) :
    JobFault → Phase → Prop
  | loading {cause : LoadFault} (hsource : job.sourceAt t home p = .error cause)
    (hcause : cause.isForeseen = false) : Breaks job t home p (.load cause) p.phase
  | placing {cause : DiskFault} {rendered : List Rendered} {meant : Model × Options}
    (hemit : job.emitAt t home p = .ok rendered) (hsource : job.sourceAt t home p = .ok meant) :
    Breaks job t home p (.disk cause) (job.emitted meant)

namespace Job

/-- How a run ends behind its delivery. -/
def delivered (p : Progress) : Except DeliveryFault (List Path) → Except JobFault (List Path) × Progress
  | .ok written => (.ok written, { p with phase := .done })
  | .error (.unprepared cause) => (.error (.disk cause), p)
  | .error (.unwritten target cause) =>
    if cause.isOfDisk then (.error (.generation (.unwritable target cause)), ⟨.failed, target⟩)
    else (.error (.disk cause), { p with current := target })

/-- What a run does once its files are generated. -/
def finish {m : Type → Type} [Monad m] [Disk m] [Console m] (job : Job) (start : Nat)
    (rendered : List Rendered) : JobM m (List Path) := do
  match ← outcome (Delivery.deliver job.output job.dirs rendered) with
  | .ok written =>
    noteEach written
    become .done
    let stop ← ExceptT.lift (StateT.lift (Console.now (m := m)))
    note (.completed (stop - start))
    return written
  | .error (.unprepared cause) => throw (.disk cause)
  | .error (.unwritten target cause) =>
    workFor target
    if cause.isOfDisk then
      become .failed
      throw (.generation (.unwritable target cause))
    throw (.disk cause)

section

variable {σ : Type} [Disk (StateM σ)] [Console (StateM σ)]

omit [Disk (StateM σ)] in
theorem noteEach_eq (files : List Path) (p : Progress) (s : σ) :
    ((noteEach files : JobM (StateM σ) Unit) p s).1 = (.ok (), p) := by
  induction files generalizing s with
  | nil => rfl
  | cons file files ih =>
    unfold noteEach
    rw [run_bind]
    exact ih _

/-- A run asks for the time, generates the files and finishes. -/
theorem run_eq [MarkupReader] (job : Job) (p : Progress) (s : σ) :
    (job.run : JobM (StateM σ) (List Path)) p s =
      (job.emit >>= job.finish ((Console.now : StateM σ Nat) s).1 : JobM (StateM σ) (List Path)) p
        ((Console.now : StateM σ Nat) s).2 := by
  have hstart : (ExceptT.lift (StateT.lift Console.now) : JobM (StateM σ) Nat) p s =
      ((.ok ((Console.now : StateM σ Nat) s).1, p), ((Console.now : StateM σ Nat) s).2) := rfl
  unfold run
  rw [run_bind, hstart]
  rfl

/-- Whatever the disk is, how a run finishes is told by its delivery. -/
theorem finish_eq (job : Job) (start : Nat) (rendered : List Rendered) (p : Progress) (s : σ) :
    ((job.finish start rendered : JobM (StateM σ) (List Path)) p s).1 = delivered p
      ((Delivery.deliver job.output job.dirs rendered : ExceptT _ (StateM σ) _) s).1 := by
  unfold finish
  rw [run_bind, run_outcome]
  rcases (Delivery.deliver job.output job.dirs rendered : ExceptT _ (StateM σ) _) s with
    ⟨(cause | ⟨target, cause⟩) | written, s'⟩
  · rfl
  · unfold delivered
    cases hdisk : cause.isOfDisk with
    | true =>
      dsimp only
      rw [hdisk]
      rfl
    | false =>
      dsimp only
      rw [hdisk]
      rfl
  · -- The notes on the files come before the end, and change nothing of how the job stands.
    have hnotes : (noteEach written : JobM (StateM σ) Unit) p s' =
        ((.ok (), p), ((noteEach written : JobM (StateM σ) Unit) p s').2) :=
      Prod.ext (noteEach_eq written p s') rfl
    unfold delivered
    dsimp only
    rw [run_bind, hnotes]
    rfl

/-- How a run ends is told by how generating ends, and then by the delivery. -/
theorem run_ends_eq [MarkupReader] (job : Job) (p : Progress) (s : σ) :
    ((job.run : JobM (StateM σ) (List Path)) p s).1 =
      match (job.emit : JobM (StateM σ) (List Rendered)) p ((Console.now : StateM σ Nat) s).2 with
      | ((.error e, p'), _) => (.error e, p')
      | ((.ok rendered, p'), s') => delivered p'
        ((Delivery.deliver job.output job.dirs rendered : ExceptT _ (StateM σ) _) s').1 := by
  rw [run_eq, run_bind]
  rcases (job.emit : JobM (StateM σ) (List Rendered)) p ((Console.now : StateM σ Nat) s).2 with
    ⟨⟨e | rendered, p'⟩, s'⟩
  · rfl
  · exact finish_eq job _ rendered p' s'

end

/-- A run is its emission and then its delivery. -/
theorem runIn_eq [MarkupReader] (job : Job) (p : Progress) (w : World) :
    (job.runIn p w).1 = match job.emitIn p w with
      | ((.error e, p'), _) => (.error e, p')
      | ((.ok rendered, p'), w') => delivered p'
        ((Delivery.deliver job.output job.dirs rendered : ExceptT _ (StateM World) _) w').1 := by
  have hnow : (Console.now : StateM World Nat) w = (0, w) := rfl
  unfold runIn emitIn
  rw [run_ends_eq, hnow]
  rcases (job.emit : JobM (StateM World) (List Rendered)) p w with ⟨⟨e | rendered, p'⟩, w'⟩ <;> rfl

/-- How loading and generating end, and what is left for a delivery. -/
theorem emitIn_ends [MarkupReader] (job : Job) (p : Progress) (w : World) :
    (∃ rendered p' w', job.emitIn p w = ((.ok rendered, p'), w') ∧
      w'.At w.failures w.home w.tree ∧ job.emitAt w.tree w.home p = .ok rendered ∧
      ∃ meant, job.sourceAt w.tree w.home p = .ok meant ∧ p'.phase = job.emitted meant) ∨
    ∃ e p' w', job.emitIn p w = ((.error e, p'), w') ∧
      job.emitAt w.tree w.home p = .error e ∧ p'.phase = e.leaves p.phase := by
  obtain ⟨t', hat, hends⟩ := runs_emit job w ⟨rfl, rfl, rfl⟩
  change (job.emitIn p w).2.At _ _ _ at hat
  change Ends _ _ (job.emitIn p w).1 _ at hends
  rcases hemit : job.emitIn p w with ⟨⟨e | rendered, p'⟩, w'⟩ <;> rw [hemit] at hat hends
  · obtain ⟨_, he, hphase⟩ := hends
    exact Or.inr ⟨e, p', w', rfl, he, hphase⟩
  · obtain ⟨rfl, hrendered, hphase⟩ := hends
    exact Or.inl ⟨rendered, p', w', rfl, hat, hrendered, hphase⟩

theorem emitAt_of_sourceAt [MarkupReader] {job : Job} {cause : LoadFault}
    (h : job.sourceAt t home p = .error cause) : job.emitAt t home p = .error (.load cause) := by
  unfold emitAt
  rw [h]
  rfl

/-- Generating reports its faults, so only loading breaks off. -/
theorem sourceAt_of_emitAt [MarkupReader] {job : Job} {e : JobFault}
    (h : job.emitAt t home p = .error e)
    (he : e.isForeseen = false) : ∃ cause, e = .load cause ∧ job.sourceAt t home p = .error cause := by
  cases hsource : job.sourceAt t home p with
  | error cause =>
    rw [emitAt_of_sourceAt hsource] at h
    exact ⟨cause, (Except.error.inj h).symm, rfl⟩
  | ok meant =>
    unfold emitAt at h
    rw [hsource] at h
    obtain ⟨fault, _, rfl⟩ := mapError_eq_error.1 h
    nomatch he

/-- A run that fails reports it, or breaks off. -/
theorem runIn_ends [MarkupReader] (job : Job) (p : Progress) (w : World) :
    (∃ files, (job.runIn p w).1.1 = .ok files ∧ (job.runIn p w).1.2.phase = .done) ∨
      ∃ e, (job.runIn p w).1.1 = .error e ∧
        (e.isForeseen = true ∧ (job.runIn p w).1.2.phase = .failed ∨
          Breaks job w.tree w.home p e (job.runIn p w).1.2.phase) := by
  rw [runIn_eq]
  rcases emitIn_ends job p w with ⟨rendered, p', w', hemit, _, hrendered, meant, hsource, hphase⟩ |
    ⟨e, p', w', hemit, he, hphase⟩ <;> rw [hemit] <;> dsimp only
  · have hbreaks : ∀ cause, Breaks job w.tree w.home p (.disk cause) p'.phase := fun cause =>
      hphase ▸ .placing hrendered hsource
    rcases ((Delivery.deliver job.output job.dirs rendered : ExceptT _ (StateM World) _) w').1 with
      (cause | ⟨target, cause⟩) | written
    · exact Or.inr ⟨_, rfl, Or.inr (hbreaks cause)⟩
    · unfold delivered
      dsimp only
      split
      · exact Or.inr ⟨_, rfl, Or.inl ⟨rfl, rfl⟩⟩
      · exact Or.inr ⟨_, rfl, Or.inr (hbreaks cause)⟩
    · exact Or.inl ⟨written, rfl, rfl⟩
  · refine Or.inr ⟨e, rfl, ?_⟩
    rw [hphase]
    by_cases hforeseen : e.isForeseen = true
    · exact Or.inl ⟨hforeseen, JobFault.leaves_foreseen hforeseen⟩
    · have hunforeseen := Bool.eq_false_iff.2 hforeseen
      obtain ⟨cause, rfl, hsource⟩ := sourceAt_of_emitAt he hunforeseen
      rw [JobFault.leaves_unforeseen hforeseen]
      exact Or.inr (.loading hsource hunforeseen)

/-- With a fault that is not foreseen a run breaks off. -/
theorem breaks_of_runIn [MarkupReader] {job : Job} {e : JobFault} (h : (job.runIn p w).1.1 = .error e)
    (he : e.isForeseen = false) : Breaks job w.tree w.home p e (job.runIn p w).1.2.phase := by
  rcases runIn_ends job p w with ⟨files, hfiles, _⟩ | ⟨e', he', hends⟩
  · rw [h] at hfiles
    nomatch hfiles
  · rw [h] at he'
    obtain rfl := Except.error.inj he'
    exact hends.resolve_left fun hforeseen => absurd (hforeseen.1.symm.trans he) (by decide)

theorem runIn_of_emitAt [MarkupReader] {job : Job} {e : JobFault}
    (h : job.emitAt w.tree w.home p = .error e) :
    (job.runIn p w).1.1 = .error e := by
  rw [runIn_eq]
  rcases emitIn_ends job p w with ⟨_, _, _, _, _, hrendered, _⟩ | ⟨e', p', w', hemit, he, _⟩
  · rw [h] at hrendered
    nomatch hrendered
  · rw [h] at he
    rw [hemit, Except.error.inj he]

/-- A file in the place of the output directory breaks a run off. -/
theorem runIn_over_file [MarkupReader] {job : Job} {rendered : List Rendered} (hf : w.failures.Quiet)
    (hfile : w.tree.look w.home job.output = .ok (some .file))
    (hemit : job.emitAt w.tree w.home p = .ok rendered) :
    (job.runIn p w).1.1 = .error (.disk .alreadyThere) := by
  rw [runIn_eq]
  rcases emitIn_ends job p w with ⟨rendered', p', w', hemitted, hat, _⟩ | ⟨e', p', w', _, he, _⟩
  · rw [hemitted]
    dsimp only
    obtain ⟨t', _, hsettled⟩ := steps_deliver_over_file hf hfile job.dirs rendered' w' hat
    generalize ((Delivery.deliver job.output job.dirs rendered' : ExceptT _ (StateM World) _) w').1 =
      delivery at hsettled
    rcases delivery with e | written
    · obtain rfl : e = .unprepared .alreadyThere := hsettled
      rfl
    · exact absurd hsettled not_false
  · rw [hemit] at he
    nomatch he

end Job

/-- In a world that lets it deliver, a run for targets breaks off only of an output path that is too
long, or of a text that cannot be encoded. -/
theorem Job.runIn_free [MarkupReader] {description output : Path} {names : List String}
    {overrides : List (String × Value)} {model : Model} {options : Options} {e : JobFault}
    (hw : w.Free (forTargets description output overrides names))
    (hsource : (forTargets description output overrides names).sourceAt w.tree w.home p =
      .ok (model, options)) (hm : model.WellFormed) (ho : options.Valid)
    (he : ((forTargets description output overrides names).runIn p w).1.1 = .error e)
    (hbroken : e.isForeseen = false) :
    e = .disk .nameTooLong ∨ e = .disk .unencodable ∧
      ∃ files, Target.emitEach model options .standard (Target.selected names) = .ok files ∧
        ∃ file ∈ files, file.encodable = false := by
  have hends := run_ends hw hsource hm ho
  rcases hrun : ((forTargets description output overrides names).runIn p w).1 with ⟨r, p'⟩
  rw [hrun] at he hends
  obtain rfl : r = .error e := he
  obtain ⟨_, hhindered⟩ := hends
  cases hhindered with
  | generating => nomatch hbroken
  | writing hfiles hfault =>
    rename_i files fault
    cases fault with
    | unprepared cause =>
      obtain rfl : cause = .nameTooLong := hfault
      exact Or.inl rfl
    | unwritten target cause =>
      rcases hfault with rfl | ⟨rfl, hfile⟩
      · nomatch hbroken
      · exact Or.inr ⟨rfl, files, hfiles, hfile⟩

/-- A command breaks off with a fault of its work that is not foreseen. -/
theorem Command.run_broken [MarkupReader] {c : Command} {cause : JobFault} :
    ((c.run : StateM World Ending) w).1 = .broken cause ↔ cause.isForeseen = false ∧
      ∃ job, c.job = .ok job ∧
        ((c.work job : JobM (StateM World) Unit) .start w).1.1 = .error cause := by
  have hend : ∀ (e : JobFault) (w : World), ((endWith e : StateM World Ending) w).1 = .broken cause ↔
      e.isForeseen = false ∧ e = cause := by
    intro e w
    unfold endWith
    cases e.isForeseen with
    | true => exact ⟨fun h => (nomatch h), fun h => (nomatch h.1)⟩
    | false =>
      show Ending.broken e = .broken cause ↔ _
      simp
  cases hjob : c.job with
  | error e =>
    have hrun : ((c.run : StateM World Ending) w).1 =
        ((endWith (.generation e) : StateM World Ending) w).1 := by
      unfold run
      rw [hjob]
    rw [hrun, hend]
    exact ⟨fun h => (nomatch h.1), fun ⟨_, _, h, _⟩ => (nomatch h)⟩
  | ok job =>
    rw [run_of_job hjob]
    rcases hwork : (c.work job : JobM (StateM World) Unit) .start w with ⟨⟨e | _, p⟩, w'⟩
    · dsimp only
      rw [hend]
      constructor
      · rintro ⟨he, rfl⟩
        exact ⟨he, job, rfl, by rw [hwork]⟩
      · rintro ⟨hcause, job', hjob', h⟩
        cases hjob'
        rw [hwork] at h
        cases h
        exact ⟨hcause, rfl⟩
    · refine ⟨fun h => (nomatch h), fun ⟨_, job', hjob', h⟩ => ?_⟩
      cases hjob'
      rw [hwork] at h
      nomatch h

/-! ## The theorem -/

/-- **A run is done, reports its fault, or breaks off.**  Done or failed, it says so by its phase; a
fault that is not reported leaves it where it was.  So it is with each fault of loading that is not
foreseen, and with a file in the place of the output directory.  In a world that lets it deliver, an
accepted description comes to no such end but for an output path that is too long or a text that
cannot be encoded.  A command breaks off where its work does, and only there. -/
theorem run_reports [MarkupReader] (job : Job) (p : Progress) (w : World) :
    ((∃ files, (job.runIn p w).1.1 = .ok files ∧ (job.runIn p w).1.2.phase = .done) ∨
      ∃ e, (job.runIn p w).1.1 = .error e ∧
        (e.isForeseen = true ∧ (job.runIn p w).1.2.phase = .failed ∨
          Breaks job w.tree w.home p e (job.runIn p w).1.2.phase)) ∧
    (∀ cause, job.sourceAt w.tree w.home p = .error cause →
      (job.runIn p w).1.1 = .error (.load cause)) ∧
    (∀ rendered, w.failures.Quiet → w.tree.look w.home job.output = .ok (some .file) →
      job.emitAt w.tree w.home p = .ok rendered →
      (job.runIn p w).1.1 = .error (.disk .alreadyThere)) ∧
    (∀ description output names overrides model options e,
      Job.ofTargets description output names overrides Emitter.standard .standard = .ok job →
      w.Free job →
      job.sourceAt w.tree w.home p = Description.loadAt w.tree w.home description overrides →
      Description.loadAt w.tree w.home description overrides = .ok (model, options) →
      (job.runIn p w).1.1 = .error e → e.isForeseen = false →
      e = .disk .nameTooLong ∨ e = .disk .unencodable ∧
        ∃ files, Target.emitEach model options .standard (Target.selected names) = .ok files ∧
          ∃ file ∈ files, file.encodable = false) ∧
    ∀ (c : Command) cause, ((c.run : StateM World Ending) w).1 = .broken cause ↔
      cause.isForeseen = false ∧ ∃ job, c.job = .ok job ∧
        ((c.work job : JobM (StateM World) Unit) .start w).1.1 = .error cause := by
  refine ⟨Job.runIn_ends job p w, fun cause hsource =>
    Job.runIn_of_emitAt (Job.emitAt_of_sourceAt hsource), fun rendered hf hfile hemit =>
    Job.runIn_over_file hf hfile hemit, ?_, fun c cause => Command.run_broken⟩
  intro description output names overrides model options e hjob hw hsource haccepted he hbroken
  obtain rfl : job = Job.forTargets description output overrides names := Job.ofTargets_standard hjob
  obtain ⟨hm, ho⟩ := Description.valid_of_loadAt haccepted
  exact Job.runIn_free hw (hsource.trans haccepted) hm ho he hbroken

/-- A description with options that are no pairs. -/
def unpairedTree : Tree := ⟨[(["w"], .directory), (["w", "a.idl"], .file ""),
  (["w", "a.yaml"], .file "options: [[1]]")]⟩

/-- The job for the Swift side of that description. -/
def unpairedJob : Job := Job.forTargets (.ofString "a.yaml") (.ofString ".") [] ["swift"]

theorem run_reports_broken :
    (((Job.swiftJob "swift" []).runIn .start (.ofTree Job.staleTree ["w"])).1.1 =
        .error (.disk .alreadyThere) ∧
      ((Job.swiftJob "swift" []).runIn .start (.ofTree Job.staleTree ["w"])).1.2.phase = .emitting) ∧
    ∃ cause, cause.isForeseen = false ∧
      (unpairedJob.runIn .start (.ofTree unpairedTree ["w"])).1.1 = .error (.load cause) ∧
      (unpairedJob.runIn .start (.ofTree unpairedTree ["w"])).1.2.phase = .idle := by
  have hgenerated : ((Job.swiftJob "swift" []).emitAt Job.staleTree ["w"] .start).isOk = true := by
    decide +kernel
  have hunforeseen : (match unpairedJob.sourceAt unpairedTree ["w"] .start with
      | .error cause => cause.isForeseen
      | .ok _ => true) = false := by decide +kernel
  obtain ⟨rendered, hemit⟩ := exists_eq_ok hgenerated
  have hfile := (run_reports (Job.swiftJob "swift" []) .start (.ofTree Job.staleTree ["w"])).2.2.1
    rendered (fun _ => rfl) (by decide) hemit
  refine ⟨⟨hfile, ?_⟩, ?_⟩
  · -- Of the two ways to break off, the fault tells which it was, and so where the run is left.
    have hbreaks := Job.breaks_of_runIn hfile rfl
    generalize ((Job.swiftJob "swift" []).runIn .start (.ofTree Job.staleTree ["w"])).1.2.phase =
      phase at hbreaks
    cases hbreaks with
    | placing => rfl
  · cases hsource : unpairedJob.sourceAt unpairedTree ["w"] .start with
    | ok meant =>
      rw [hsource] at hunforeseen
      nomatch hunforeseen
    | error cause =>
      rw [hsource] at hunforeseen
      have hload := (run_reports unpairedJob .start (.ofTree unpairedTree ["w"])).2.1 cause hsource
      refine ⟨cause, hunforeseen, hload, ?_⟩
      have hbreaks := Job.breaks_of_runIn hload hunforeseen
      generalize (unpairedJob.runIn .start (.ofTree unpairedTree ["w"])).1.2.phase = phase at hbreaks
      cases hbreaks with
      | loading => rfl

end Bindery
