/-
  ANY DISK: what loading, generating and writing come to, whatever the disk does.

  The disk is left open here.  `σ` is all that there is besides the job, and a disk on `σ` answers,
  changes and refuses as it likes.

    * Loading and generating are told by their parts (`load_eq`, `emit_eq`).  They only look at the
      disk: what looking, reading and saying leave as it is, they leave as it is (`Looking`).
    * Where generating stops is told by the emitters alone (`renderAll_eq_error`), and nothing behind
      that emitter has a part in it (`emit_others`).
    * Where writing stops is told by the steps of the delivery (`Delivery.Refused`).
-/
import Bindery.Proofs.Job.Reporting

namespace Bindery

variable {σ α β ε : Type} [Disk (StateM σ)] [Console (StateM σ)]

/-! ## Loading -/

/-- All there is after something was said. -/
def noted (s : σ) (e : Event) : σ := ((Console.note e : StateM σ Unit) s).2

namespace Job

/-- What reading the description comes to, and all there is afterwards. -/
def describe [MarkupReader] (job : Job) (s : σ) : Except LoadFault (Model × Options) × σ :=
  (Description.load job.description job.overrides : ExceptT LoadFault (StateM σ) _) s

/-- Loading reads the description.  It leaves alone for whom the job works. -/
theorem load_eq [MarkupReader] (job : Job) (p : Progress) (s : σ) :
    (job.load : JobM (StateM σ) (Model × Options)) p s = match job.describe s with
      | (.ok meant, s') =>
        ((.ok meant, ⟨.loaded meant.1 meant.2, p.current⟩), noted s' (.loaded job.description))
      | (.error cause, s') =>
        ((.error (.load cause), ⟨(JobFault.load cause).leaves p.phase, p.current⟩), s') := by
  unfold load describe
  rw [run_bind, run_outcome]
  rcases (Description.load job.description job.overrides :
    ExceptT LoadFault (StateM σ) (Model × Options)) s with ⟨cause | meant, s'⟩
  · dsimp only
    by_cases hforeseen : cause.isForeseen = true
    · rw [if_pos hforeseen, JobFault.leaves_foreseen (e := .load cause) hforeseen]
      rfl
    · rw [if_neg hforeseen, JobFault.leaves_unforeseen (e := .load cause) hforeseen]
      rfl
  · rfl

/-- A job is loaded by now, or it is loaded first. -/
theorem source_eq [MarkupReader] (job : Job) (p : Progress) (s : σ) :
    (job.source : JobM (StateM σ) (Model × Options)) p s = match p.phase with
      | .loaded model options => ((.ok (model, options), p), s)
      | _ => (job.load : JobM (StateM σ) (Model × Options)) p s := by
  obtain ⟨phase, current⟩ := p
  cases phase <;> rfl

end Job

/-! ## Generating -/

/-- What is said while the files of emitters are generated. -/
def renderNotes (model : Model) (options : Options) (table : ErrorTable) : List Emitter → List Event
  | [] => []
  | e :: es => .emitting e.target ::
    match e.render model options table with
    | .error _ => []
    | .ok files => .emitted e.target files.length :: renderNotes model options table es

section

variable {model : Model} {options : Options} {table : ErrorTable}

/-- The first emitter that gives no files is the one that generating stops at. -/
theorem renderAll_eq_error {es : List Emitter} {done : List Rendered} {target : String}
    {fault : GenerationFault} :
    renderAll model options table es done = .error (target, fault) ↔
      ∃ before e after, es = before ++ e :: after ∧
        (∀ b ∈ before, ∃ files, b.render model options table = .ok files) ∧
        e.render model options table = .error fault ∧ e.target = target := by
  induction es generalizing done with
  | nil =>
    constructor
    · intro h
      cases h
    · rintro ⟨before, e, after, hes, _⟩
      exact absurd hes (by simp)
  | cons e es ih =>
    unfold renderAll
    cases hrender : e.render model options table with
    | error fault' =>
      constructor
      · intro h
        obtain ⟨rfl, rfl⟩ := Prod.mk.inj (Except.error.inj h)
        exact ⟨[], e, es, rfl, List.forall_mem_nil _, hrender, rfl⟩
      · rintro ⟨before, e', after, hes, hbefore, hfault, rfl⟩
        cases before with
        | nil =>
          obtain ⟨rfl, _⟩ := List.cons.inj hes
          rw [hrender] at hfault
          rw [Except.error.inj hfault]
        | cons b before =>
          obtain ⟨rfl, _⟩ := List.cons.inj hes
          obtain ⟨files, hfiles⟩ := hbefore e List.mem_cons_self
          rw [hrender] at hfiles
          cases hfiles
    | ok files =>
      show renderAll model options table es _ = _ ↔ _
      rw [ih]
      constructor
      · rintro ⟨before, e', after, rfl, hbefore, hfault, rfl⟩
        exact ⟨e :: before, e', after, rfl,
          List.forall_mem_cons.2 ⟨⟨files, hrender⟩, hbefore⟩, hfault, rfl⟩
      · rintro ⟨before, e', after, hes, hbefore, hfault, rfl⟩
        cases before with
        | nil =>
          obtain ⟨rfl, _⟩ := List.cons.inj hes
          rw [hrender] at hfault
          cases hfault
        | cons b before =>
          obtain ⟨_, rfl⟩ := List.cons.inj hes
          exact ⟨before, e', after, rfl, (List.forall_mem_cons.1 hbefore).2, hfault, rfl⟩

/-- Where generating stops, nothing is said of the emitters behind. -/
theorem renderNotes_others {before after others : List Emitter} {e : Emitter}
    {fault : GenerationFault} (hfault : e.render model options table = .error fault) :
    renderNotes model options table (before ++ e :: after) =
      renderNotes model options table (before ++ e :: others) := by
  induction before with
  | nil =>
    show renderNotes model options table (e :: after) = renderNotes model options table (e :: others)
    unfold renderNotes
    rw [hfault]
  | cons b before ih =>
    show renderNotes model options table (b :: (before ++ e :: after)) =
      renderNotes model options table (b :: (before ++ e :: others))
    unfold renderNotes
    rw [ih]

omit [Disk (StateM σ)] in
/-- Generating touches nothing: besides its files there is what it says. -/
theorem renderEach_eq (es : List Emitter) (done : List Rendered) (s : σ) :
    (Job.renderEach model options table es done : ExceptT _ (StateM σ) _) s =
      (renderAll model options table es done,
        (renderNotes model options table es).foldl noted s) := by
  induction es generalizing done s with
  | nil => rfl
  | cons e es ih =>
    have hsay : ∀ (event : Event) (s : σ), (ExceptT.lift (Console.note event) :
        ExceptT (String × GenerationFault) (StateM σ) Unit) s = (.ok (), noted s event) :=
      fun _ _ => rfl
    unfold Job.renderEach renderAll renderNotes
    rw [step_bind, hsay, List.foldl_cons]
    cases e.render model options table with
    | error fault => rfl
    | ok files =>
      dsimp only
      rw [step_bind, hsay, List.foldl_cons]
      exact ih _ _

end

namespace Job

/-- How generating ends, once it is known what the description says. -/
def generated (job : Job) (meant : Model × Options) (p : Progress) :
    Except JobFault (List Rendered) × Progress :=
  match renderAll meant.1 meant.2 job.table job.emitters [] with
  | .ok rendered =>
    (.ok rendered, ⟨if job.emitters.isEmpty then p.phase else .emitting, none⟩)
  | .error (target, fault) => (.error (.generation fault), ⟨.failed, some target⟩)

/-- Generating has its source first, and then the files of all emitters. -/
theorem emit_eq [MarkupReader] (job : Job) (p : Progress) (s : σ) :
    (job.emit : JobM (StateM σ) (List Rendered)) p s =
      match (job.source : JobM (StateM σ) (Model × Options)) p s with
      | ((.error e, p'), s') => ((.error e, p'), s')
      | ((.ok meant, p'), s') => (job.generated meant p',
        (renderNotes meant.1 meant.2 job.table job.emitters).foldl noted s') := by
  unfold emit
  rw [run_bind]
  rcases (job.source : JobM (StateM σ) (Model × Options)) p s with ⟨⟨e | ⟨model, options⟩, p'⟩, s'⟩
  · rfl
  · dsimp only
    rw [run_bind, run_outcome, renderEach_eq]
    unfold generated
    rcases renderAll model options job.table job.emitters [] with ⟨target, fault⟩ | rendered
    · rfl
    · cases job.emitters.isEmpty <;> rfl

/-- Whoever generates without being loaded loads first. -/
theorem emit_unloaded [MarkupReader] {job : Job} {p : Progress}
    (h : ∀ model options, p.phase ≠ .loaded model options) (s : σ) :
    (job.emit : JobM (StateM σ) (List Rendered)) p s =
      (job.load >>= fun _ => job.emit : JobM (StateM σ) (List Rendered)) p s := by
  have hsource : (job.source : JobM (StateM σ) (Model × Options)) p s =
      (job.load : JobM (StateM σ) (Model × Options)) p s := by
    rw [source_eq]
    cases hphase : p.phase with
    | loaded model options => exact absurd hphase (h model options)
    | _ => rfl
  rw [emit_eq, hsource, run_bind, load_eq]
  rcases job.describe s with ⟨cause | meant, s'⟩
  · rfl
  · dsimp only
    rw [emit_eq, source_eq]

/-- What is generated, and what is said of it, does not depend on those behind the emitter that
generating stops at. -/
theorem emit_others [MarkupReader] {job : Job} {p p' : Progress} {s s' : σ} {meant : Model × Options}
    {before after : List Emitter} {e : Emitter} {fault : GenerationFault}
    (hsource : (job.source : JobM (StateM σ) (Model × Options)) p s = ((.ok meant, p'), s'))
    (hsplit : job.emitters = before ++ e :: after)
    (hbefore : ∀ b ∈ before, ∃ files, b.render meant.1 meant.2 job.table = .ok files)
    (hfault : e.render meant.1 meant.2 job.table = .error fault) (others : List Emitter) :
    ({ job with emitters := before ++ e :: others }.emit : JobM (StateM σ) (List Rendered)) p s =
      (job.emit : JobM (StateM σ) (List Rendered)) p s := by
  have hstops : ∀ others, renderAll meant.1 meant.2 job.table (before ++ e :: others) [] =
      .error (e.target, fault) :=
    fun others => renderAll_eq_error.2 ⟨before, e, others, rfl, hbefore, hfault, rfl⟩
  have hsource' : ({ job with emitters := before ++ e :: others }.source :
      JobM (StateM σ) (Model × Options)) p s = ((.ok meant, p'), s') := hsource
  rw [emit_eq, emit_eq, hsource, hsource']
  unfold generated
  dsimp only
  rw [hsplit, hstops, hstops, renderNotes_others hfault]

end Job

/-! ## What only looks -/

/-- `Looking P` — what `P` says of all there is stays true while the disk is only looked at. -/
structure Looking (P : σ → Prop) : Prop where
  look : ∀ path s, P s → P ((Disk.look path : ExceptT DiskFault (StateM σ) (Option EntryKind)) s).2
  read : ∀ path s, P s → P ((Disk.read path : ExceptT DiskFault (StateM σ) String) s).2
  note : ∀ e s, P s → P (noted s e)
  now : ∀ s, P s → P ((Console.now : StateM σ Nat) s).2

/-- `Keeps P x` — what `P` says of all there is stays true under an operation. -/
def Keeps (P : σ → Prop) (x : ExceptT ε (StateM σ) α) : Prop := ∀ s, P s → P (x s).2

section

variable {P : σ → Prop}

omit [Disk (StateM σ)] [Console (StateM σ)] in
theorem Keeps.bind {x : ExceptT ε (StateM σ) α} {k : α → ExceptT ε (StateM σ) β}
    (hx : Keeps P x) (hk : ∀ a, Keeps P (k a)) : Keeps P (x >>= k) := by
  intro s hs
  have hnext := hx s hs
  rw [step_bind]
  rcases hend : x s with ⟨e | a, s'⟩ <;> rw [hend] at hnext
  · exact hnext
  · exact hk a s' hnext

namespace Looking

variable (hP : Looking P)
include hP

theorem keeps_note (e : Event) : Keeps P (Description.note e : ExceptT LoadFault (StateM σ) Unit) :=
  fun s hs => hP.note e s hs

theorem keeps_notes (es : List Event) (s : σ) (hs : P s) : P (es.foldl noted s) := by
  induction es generalizing s with
  | nil => exact hs
  | cons e es ih => exact ih _ (hP.note e s hs)

theorem keeps_read [MarkupReader] (path : Path) :
    Keeps P (Description.read path : ExceptT LoadFault (StateM σ) (List (Value × Value))) := by
  have hisFile : Keeps P (ExceptT.adapt LoadFault.disk (Disk.isFile path) :
      ExceptT LoadFault (StateM σ) Bool) := by
    have hlook : Keeps P (Disk.isFile path : ExceptT DiskFault (StateM σ) Bool) :=
      Keeps.bind (hP.look path) fun _ _ hs => hs
    exact hlook
  refine Keeps.bind hisFile fun there => ?_
  cases there with
  | false => exact fun _ hs => hs
  | true =>
    have hread : Keeps P (ExceptT.adapt LoadFault.disk (Disk.read path) :
        ExceptT LoadFault (StateM σ) String) := hP.read path
    refine Keeps.bind hread fun text => Keeps.bind (fun _ hs => hs) fun es => ?_
    exact Keeps.bind (hP.keeps_note _) fun _ _ hs => hs

/-- Reading a description looks at the disk, and no more. -/
theorem keeps_describe [MarkupReader] (job : Job) (s : σ) (hs : P s) : P (job.describe s).2 := by
  have hload : Keeps P (Description.load job.description job.overrides :
      ExceptT LoadFault (StateM σ) (Model × Options)) := by
    unfold Description.load
    split
    · exact fun _ hs => hs
    · refine Keeps.bind (hP.keeps_read _) fun es => Keeps.bind (fun _ hs => hs) fun model => ?_
      refine Keeps.bind (hP.keeps_note _) fun _ => Keeps.bind (fun _ hs => hs) fun options => ?_
      have hend : Keeps P (do
          let options ← Description.settle .options (options.merged job.overrides)
          return (model, options) : ExceptT LoadFault (StateM σ) (Model × Options)) :=
        Keeps.bind (fun _ hs => hs) fun _ _ hs => hs
      dsimp only
      split
      · exact Keeps.bind (hP.keeps_note _) fun _ => hend
      · exact hend
  exact hload s hs

theorem keeps_load [MarkupReader] (job : Job) (p : Progress) (s : σ) (hs : P s) :
    P ((job.load : JobM (StateM σ) (Model × Options)) p s).2 := by
  have hread := hP.keeps_describe job s hs
  rw [Job.load_eq]
  rcases hend : job.describe s with ⟨cause | meant, s'⟩ <;> rw [hend] at hread
  · exact hread
  · exact hP.note _ _ hread

/-- Generating looks at the disk, and no more. -/
theorem keeps_emit [MarkupReader] (job : Job) (p : Progress) (s : σ) (hs : P s) :
    P ((job.emit : JobM (StateM σ) (List Rendered)) p s).2 := by
  have hsource : P ((job.source : JobM (StateM σ) (Model × Options)) p s).2 := by
    rw [Job.source_eq]
    cases p.phase with
    | loaded model options => exact hs
    | _ => exact hP.keeps_load job p s hs
  rw [Job.emit_eq]
  rcases hend : (job.source : JobM (StateM σ) (Model × Options)) p s with ⟨⟨e | meant, p'⟩, s'⟩ <;>
    rw [hend] at hsource
  · exact hsource
  · exact hP.keeps_notes _ s' hsource

end Looking

end

/-! ## Writing -/

omit [Disk (StateM σ)] [Console (StateM σ)] in
/-- Two steps fail when the first does, or the second behind it. -/
theorem step_eq_error {x : ExceptT ε (StateM σ) α} {k : α → ExceptT ε (StateM σ) β} {s : σ} {e : ε} :
    ((x >>= k) s).1 = .error e ↔
      (x s).1 = .error e ∨ ∃ a s', x s = (.ok a, s') ∧ (k a s').1 = .error e := by
  rw [step_bind]
  rcases x s with ⟨e' | a, s'⟩
  · constructor
    · exact fun h => Or.inl (congrArg _ (Except.error.inj h))
    · rintro (h | ⟨a, s'', h, _⟩)
      · exact congrArg _ (Except.error.inj h)
      · nomatch h
  · constructor
    · exact fun h => Or.inr ⟨a, s', rfl, h⟩
    · rintro (h | ⟨a', s'', h, hk⟩)
      · nomatch h
      · obtain ⟨ha, rfl⟩ := Prod.mk.inj h
        obtain rfl := Except.ok.inj ha
        exact hk

omit [Disk (StateM σ)] [Console (StateM σ)] in
/-- To name a fault anew changes no success. -/
theorem adapt_eq_ok {ε' : Type} {g : ε → ε'} {x : ExceptT ε (StateM σ) α} {a : α} {s s' : σ} :
    (ExceptT.adapt g x) s = (.ok a, s') ↔ x s = (.ok a, s') := by
  have hadapt : (ExceptT.adapt g x) s = ((x s).1.mapError g, (x s).2) := rfl
  rw [hadapt]
  rcases x s with ⟨e | b, s''⟩
  · exact ⟨fun h => (nomatch h), fun h => (nomatch h)⟩
  · constructor
    · intro h
      obtain ⟨hb, rfl⟩ := Prod.mk.inj h
      rw [Except.ok.inj hb]
    · intro h
      obtain ⟨hb, rfl⟩ := Prod.mk.inj h
      rw [Except.ok.inj hb]
      rfl

namespace Delivery

/-- `Refused output dirs rendered s target cause` — there is a place for the files, and then the disk
refuses.  It does so while the files of the target are staged, those of all targets before it being
staged already; or, without a target, when all are staged and are put in place. -/
inductive Refused (output : Path) (dirs : List String) (rendered : List Rendered) (s : σ) :
    Option String → DiskFault → Prop
  | staging {scratch : Path} {s₁ s₂ s₃ s₄ : σ} {before after : List Rendered} {r : Rendered}
    {cause : DiskFault}
    (houtput : (Disk.ensureDirs output : ExceptT DiskFault (StateM σ) Unit) s = (.ok (), s₁))
    (hscratch : (Disk.makeScratch output : ExceptT DiskFault (StateM σ) Path) s₁ =
      (.ok scratch, s₂))
    (hsplit : rendered = before ++ r :: after)
    (hbefore : (stage (scratch.child "new") before : ExceptT DeliveryFault (StateM σ) Unit) s₂ =
      (.ok (), s₃))
    (hrefused : (stageFiles (scratch.child "new") r.files : ExceptT DiskFault (StateM σ) Unit) s₃ =
      (.error cause, s₄)) : Refused output dirs rendered s (some r.target) cause
  | swapping {scratch : Path} {s₁ s₂ s₃ s₄ : σ} {cause : DiskFault}
    (houtput : (Disk.ensureDirs output : ExceptT DiskFault (StateM σ) Unit) s = (.ok (), s₁))
    (hscratch : (Disk.makeScratch output : ExceptT DiskFault (StateM σ) Path) s₁ =
      (.ok scratch, s₂))
    (hstaged : (stage (scratch.child "new") rendered : ExceptT DeliveryFault (StateM σ) Unit) s₂ =
      (.ok (), s₃))
    (hrefused : (swap ⟨output, scratch.child "old", scratch.child "new"⟩ dirs :
      ExceptT DiskFault (StateM σ) Unit) s₃ = (.error cause, s₄)) :
    Refused output dirs rendered s none cause

omit [Console (StateM σ)] in
theorem stage_cons (root : Path) (r : Rendered) (rs : List Rendered) (s : σ) :
    (stage root (r :: rs) : ExceptT DeliveryFault (StateM σ) Unit) s =
      match (stageFiles root r.files : ExceptT DiskFault (StateM σ) Unit) s with
      | (.error cause, s') => (.error (.unwritten (some r.target) cause), s')
      | (.ok _, s') => (stage root rs : ExceptT DeliveryFault (StateM σ) Unit) s' := by
  have hfiles : (ExceptT.adapt (.unwritten (some r.target)) (stageFiles root r.files) :
      ExceptT DeliveryFault (StateM σ) Unit) s =
        (((stageFiles root r.files : ExceptT DiskFault (StateM σ) Unit) s).1.mapError
          (.unwritten (some r.target)),
        ((stageFiles root r.files : ExceptT DiskFault (StateM σ) Unit) s).2) := rfl
  rw [stage, step_bind, hfiles]
  rcases (stageFiles root r.files : ExceptT DiskFault (StateM σ) Unit) s with ⟨cause | _, s'⟩ <;> rfl

omit [Console (StateM σ)] in
/-- Staging stops at the first target whose files are refused. -/
theorem stage_eq_error {root : Path} {rs : List Rendered} {s : σ} {fault : DeliveryFault} :
    ((stage root rs : ExceptT DeliveryFault (StateM σ) Unit) s).1 = .error fault ↔
      ∃ before r after s₁ s₂ cause, rs = before ++ r :: after ∧
        (stage root before : ExceptT DeliveryFault (StateM σ) Unit) s = (.ok (), s₁) ∧
        (stageFiles root r.files : ExceptT DiskFault (StateM σ) Unit) s₁ = (.error cause, s₂) ∧
        fault = .unwritten (some r.target) cause := by
  induction rs generalizing s with
  | nil =>
    constructor
    · intro h
      nomatch h
    · rintro ⟨before, r, after, _, _, _, h, _⟩
      exact absurd h (by simp)
  | cons r rs ih =>
    rw [stage_cons]
    rcases hfiles : (stageFiles root r.files : ExceptT DiskFault (StateM σ) Unit) s with
      ⟨cause | _, s'⟩
    · show Except.error (DeliveryFault.unwritten (some r.target) cause) = .error fault ↔ _
      constructor
      · intro h
        exact ⟨[], r, rs, s, s', cause, rfl, rfl, hfiles, (Except.error.inj h).symm⟩
      · rintro ⟨before, r', after, s₁, s₂, cause', hsplit, hbefore, hr', rfl⟩
        cases before with
        | nil =>
          obtain ⟨rfl, _⟩ := List.cons.inj hsplit
          obtain rfl : s = s₁ := (Prod.mk.inj hbefore).2
          rw [hfiles] at hr'
          obtain ⟨hcause, _⟩ := Prod.mk.inj hr'
          rw [Except.error.inj hcause]
        | cons b before =>
          obtain ⟨rfl, _⟩ := List.cons.inj hsplit
          rw [stage_cons, hfiles] at hbefore
          nomatch hbefore
    · show ((stage root rs : ExceptT DeliveryFault (StateM σ) Unit) s').1 = _ ↔ _
      rw [ih]
      constructor
      · rintro ⟨before, r', after, s₁, s₂, cause, rfl, hbefore, hr', rfl⟩
        refine ⟨r :: before, r', after, s₁, s₂, cause, rfl, ?_, hr', rfl⟩
        rw [stage_cons, hfiles]
        exact hbefore
      · rintro ⟨before, r', after, s₁, s₂, cause, hsplit, hbefore, hr', rfl⟩
        cases before with
        | nil =>
          obtain ⟨rfl, _⟩ := List.cons.inj hsplit
          obtain rfl : s = s₁ := (Prod.mk.inj hbefore).2
          rw [hfiles] at hr'
          nomatch hr'
        | cons b before =>
          obtain ⟨rfl, rfl⟩ := List.cons.inj hsplit
          rw [stage_cons, hfiles] at hbefore
          exact ⟨before, r', after, s₁, s₂, cause, rfl, hbefore, hr', rfl⟩

/-- The end of a delivery: where the files are, or what came of writing them. -/
def answerOf (output : Path) (rendered : List Rendered) :
    Except DeliveryFault Unit → ExceptT DeliveryFault (StateM σ) (List Path)
  | .ok () => return written output rendered
  | .error e => throw e

omit [Console (StateM σ)] in
/-- A delivery that has a place fails just where the disk refuses the files. -/
theorem deliver_unwritten {output : Path} {dirs : List String} {rendered : List Rendered} {s : σ}
    {target : Option String} {cause : DiskFault} :
    ((deliver output dirs rendered : ExceptT DeliveryFault (StateM σ) (List Path)) s).1 =
      .error (.unwritten target cause) ↔ Refused output dirs rendered s target cause := by
  -- The scratch directory is removed whatever comes of the writing, whose outcome is the outcome.
  have hwrite : ∀ (scratch : Path) (s : σ), (((do
      let result ← ExceptT.lift (write (m := StateM σ) output scratch dirs rendered).run
      ExceptT.lift (Disk.discard scratch)
      answerOf output rendered result) : ExceptT DeliveryFault (StateM σ) (List Path)) s).1 =
        .error (.unwritten target cause) ↔
      ((write output scratch dirs rendered : ExceptT DeliveryFault (StateM σ) Unit) s).1 =
        .error (.unwritten target cause) := by
    intro scratch s
    have hlift : (ExceptT.lift (write (m := StateM σ) output scratch dirs rendered).run :
        ExceptT DeliveryFault (StateM σ) _) s = (.ok (write (m := StateM σ) output scratch dirs
          rendered s).1, (write (m := StateM σ) output scratch dirs rendered s).2) := rfl
    rw [step_bind, hlift]
    rcases (write (m := StateM σ) output scratch dirs rendered) s with ⟨e | _, s'⟩
    · exact ⟨fun h => congrArg _ (Except.error.inj h), fun h => congrArg _ (Except.error.inj h)⟩
    · constructor <;> intro h <;> cases h
  unfold deliver
  constructor
  · intro h
    rcases step_eq_error.1 h with h | ⟨_, s₁, houtput, h⟩
    · obtain ⟨_, _, h⟩ := mapError_eq_error.1 h
      cases h
    rcases step_eq_error.1 h with h | ⟨scratch, s₂, hscratch, h⟩
    · obtain ⟨_, _, h⟩ := mapError_eq_error.1 h
      cases h
    rw [adapt_eq_ok] at houtput hscratch
    rcases step_eq_error.1 ((hwrite scratch s₂).1 h) with h | ⟨_, s₃, hstaged, h⟩
    · obtain ⟨before, r, after, s₃, s₄, cause, hsplit, hbefore, hrefused, hfault⟩ :=
        stage_eq_error.1 h
      obtain ⟨rfl, rfl⟩ := DeliveryFault.unwritten.inj hfault
      exact .staging houtput hscratch hsplit hbefore hrefused
    · obtain ⟨cause, hrefused, hfault⟩ := mapError_eq_error.1 h
      obtain ⟨rfl, rfl⟩ := DeliveryFault.unwritten.inj hfault
      exact .swapping houtput hscratch hstaged (Prod.ext hrefused rfl)
  · rintro (⟨houtput, hscratch, hsplit, hbefore, hrefused⟩ |
      ⟨houtput, hscratch, hstaged, hrefused⟩)
    all_goals
      refine step_eq_error.2 (Or.inr ⟨_, _, adapt_eq_ok.2 houtput, ?_⟩)
      refine step_eq_error.2 (Or.inr ⟨_, _, adapt_eq_ok.2 hscratch, (hwrite _ _).2 ?_⟩)
    · exact step_eq_error.2 (Or.inl (stage_eq_error.2
        ⟨_, _, _, _, _, _, hsplit, hbefore, hrefused, rfl⟩))
    · exact step_eq_error.2 (Or.inr ⟨_, _, hstaged,
        mapError_eq_error.2 ⟨cause, congrArg Prod.fst hrefused, rfl⟩⟩)

end Delivery

end Bindery
