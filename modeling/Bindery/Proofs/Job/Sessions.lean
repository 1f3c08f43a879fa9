/-
  CALLS IN A ROW: what is generated is what was loaded last.

  A job is loaded, generated and run in any order, and between two calls anything may happen to the
  world.  What is loaded is used again until it is used up, and loading once more replaces it.  So a
  job that is `loaded` keeps what its last loading gave (`Session.Fresh`): each call preserves this
  (`fresh_call`), and from it every sequence of calls does (`fresh_after`).

  One kind of loading is no part of it.  A fault that is not foreseen breaks a loading off and leaves
  the job as loaded as it was; what is generated then is what the loading before gave
  (`call_load_broken`).  Without such a fault nothing that is out of date is ever generated.
-/
import Bindery.Proofs.Job.Reporting

namespace Bindery

variable {p : Progress} {w : World} {job : Job}

/-! ## Sessions -/

/-- What loading comes to. -/
abbrev Loading := Except JobFault (Model × Options)

/-- A job between two calls. -/
structure Session where
  progress : Progress
  world : World
  /-- What all loadings came to, the last one first. -/
  loadings : List Loading

/-- A call of a job, or a change of the world between two calls. -/
inductive Call where
  | load
  | emit
  | run
  | change (w : World)

namespace Job

/-- How loading ends in a world. -/
def loadIn [MarkupReader] (job : Job) (p : Progress) (w : World) : (Loading × Progress) × World :=
  (job.load : JobM (StateM World) (Model × Options)) p w

/-- What a call that needs the description loads: nothing, if it is loaded. -/
def loadings [MarkupReader] (job : Job) (s : Session) : List Loading :=
  match s.progress.phase with
  | .loaded _ _ => []
  | _ => [(job.loadIn s.progress s.world).1.1]

/-- A session after a call. -/
def call [MarkupReader] (job : Job) (s : Session) : Call → Session
  | .load =>
    let ended := job.loadIn s.progress s.world
    ⟨ended.1.2, ended.2, ended.1.1 :: s.loadings⟩
  | .emit =>
    let ended := job.emitIn s.progress s.world
    ⟨ended.1.2, ended.2, job.loadings s ++ s.loadings⟩
  | .run =>
    let ended := job.runIn s.progress s.world
    ⟨ended.1.2, ended.2, job.loadings s ++ s.loadings⟩
  | .change w => { s with world := w }

/-- A session after calls, from the start in a world. -/
def after [MarkupReader] (job : Job) (w : World) (calls : List Call) : Session :=
  calls.foldl job.call ⟨.start, w, []⟩

theorem after_append [MarkupReader] (job : Job) (w : World) (calls : List Call) (c : Call) :
    job.after w (calls ++ [c]) = job.call (job.after w calls) c := List.foldl_append

end Job

/-- What the last loading gave, but for loadings that broke off behind it. -/
def given : List Loading → Option (Model × Options)
  | [] => none
  | .ok meant :: _ => some meant
  | .error e :: rs => if e.isForeseen then none else given rs

/-- `s.Fresh` — what is kept as loaded is what the last loading gave. -/
def Session.Fresh (s : Session) : Prop :=
  ∀ model options, s.progress.phase = .loaded model options → given s.loadings = some (model, options)

theorem given_broken {e : JobFault} (h : e.isForeseen = false) (rs : List Loading) :
    given (.error e :: rs) = given rs := by
  rw [given, h]
  rfl

/-- The last loading gave it, or broke off. -/
theorem head_of_given {rs : List Loading} {meant : Model × Options} (h : given rs = some meant) :
    rs.head? = some (.ok meant) ∨ ∃ e, rs.head? = some (.error e) ∧ e.isForeseen = false := by
  match rs, h with
  | .ok _ :: _, h => exact Or.inl (congrArg (some ∘ Except.ok) (Option.some.inj h))
  | .error e :: rs, h =>
    refine Or.inr ⟨e, rfl, ?_⟩
    cases he : e.isForeseen with
    | false => rfl
    | true =>
      rw [given, he] at h
      nomatch h

/-! ## One call -/

namespace Job

/-- How loading ends: with what the description says, and the job loaded, failed or where it was. -/
theorem loadIn_ends [MarkupReader] (job : Job) (p : Progress) (w : World) :
    (∃ meant, (job.loadIn p w).1.1 = .ok meant ∧
      (job.loadIn p w).1.2.phase = .loaded meant.1 meant.2 ∧
      Description.loadAt w.tree w.home job.description job.overrides = .ok meant) ∨
    ∃ cause, (job.loadIn p w).1.1 = .error (.load cause) ∧
      (job.loadIn p w).1.2.phase = (JobFault.load cause).leaves p.phase ∧
      Description.loadAt w.tree w.home job.description job.overrides = .error cause := by
  have hends : Ends _ _ (job.loadIn p w).1 (job.loadIn p w).2.tree :=
    (runs_load job).elim ⟨rfl, rfl, rfl⟩
  rcases hload : (job.loadIn p w).1 with ⟨e | meant, p'⟩ <;> rw [hload] at hends
  · obtain ⟨_, hphase, cause, rfl, hcause⟩ := hends
    exact Or.inr ⟨cause, rfl, hphase, hcause⟩
  · obtain ⟨_, hphase, hmeant⟩ := hends
    exact Or.inl ⟨meant, rfl, hphase, hmeant⟩

theorem loadIn_ok [MarkupReader] {meant : Model × Options}
    (h : Description.loadAt w.tree w.home job.description job.overrides = .ok meant) :
    (job.loadIn p w).1.1 = .ok meant ∧ (job.loadIn p w).1.2.phase = .loaded meant.1 meant.2 := by
  rcases loadIn_ends job p w with ⟨meant', hload, hphase, hmeant⟩ | ⟨cause, _, _, hcause⟩
  · obtain rfl := Except.ok.inj (hmeant.symm.trans h)
    exact ⟨hload, hphase⟩
  · exact nomatch hcause.symm.trans h

theorem loadIn_error [MarkupReader] {cause : LoadFault}
    (h : Description.loadAt w.tree w.home job.description job.overrides = .error cause) :
    (job.loadIn p w).1.1 = .error (.load cause) ∧
      (job.loadIn p w).1.2.phase = (JobFault.load cause).leaves p.phase := by
  rcases loadIn_ends job p w with ⟨meant, _, _, hmeant⟩ | ⟨cause', hload, hphase, hcause⟩
  · exact nomatch hmeant.symm.trans h
  · obtain rfl := Except.error.inj (hcause.symm.trans h)
    exact ⟨hload, hphase⟩

/-- A fault leaves a job loaded only where it broke off and the job was loaded already. -/
theorem leaves_loaded {e : JobFault} {phase : Phase} {model : Model} {options : Options}
    (h : e.leaves phase = .loaded model options) :
    e.isForeseen = false ∧ phase = .loaded model options := by
  cases he : e.isForeseen with
  | true =>
    rw [JobFault.leaves_foreseen he] at h
    nomatch h
  | false =>
    rw [JobFault.leaves_unforeseen (by rw [he]; decide)] at h
    exact ⟨rfl, h⟩

theorem loadings_of_loaded [MarkupReader] {s : Session} {model : Model} {options : Options}
    (h : s.progress.phase = .loaded model options) : job.loadings s = [] := by
  unfold loadings
  rw [h]

/-- What a call generates from is what is kept, or what the call loads itself. -/
theorem given_of_sourceAt [MarkupReader] {s : Session} {meant : Model × Options} (hs : s.Fresh)
    (h : job.sourceAt s.world.tree s.world.home s.progress = .ok meant) :
    given (job.loadings s ++ s.loadings) = some meant := by
  have hloading : ∀ h : Description.loadAt s.world.tree s.world.home job.description
      job.overrides = .ok meant, given ((job.loadIn s.progress s.world).1.1 :: s.loadings) =
        some meant := by
    intro h
    rw [(loadIn_ok h).1]
    rfl
  unfold sourceAt at h
  cases hphase : s.progress.phase with
  | loaded model options =>
    rw [hphase] at h
    rw [loadings_of_loaded hphase, ← Except.ok.inj h]
    exact hs model options hphase
  | _ =>
    rw [hphase] at h
    unfold loadings
    rw [hphase]
    exact hloading h

/-- A call that leaves the job loaded generated from what is kept. -/
theorem sourceAt_of_emitIn [MarkupReader] {model : Model} {options : Options}
    (h : (job.emitIn p w).1.2.phase = .loaded model options) :
    job.sourceAt w.tree w.home p = .ok (model, options) := by
  rcases emitIn_ends job p w with ⟨rendered, p', w', hemit, _, _, meant, hsource, hphase⟩ |
    ⟨e, p', w', hemit, _, hphase⟩ <;> rw [hemit] at h
  · rw [hphase] at h
    unfold emitted at h
    split at h
    · obtain ⟨rfl, rfl⟩ := Phase.loaded.inj h
      exact hsource
    · nomatch h
  · rw [hphase] at h
    unfold sourceAt
    rw [(leaves_loaded h).2]

/-- A run leaves the job loaded only if generating did. -/
theorem phase_emitIn_of_runIn [MarkupReader] {model : Model} {options : Options}
    (h : (job.runIn p w).1.2.phase = .loaded model options) :
    (job.emitIn p w).1.2.phase = .loaded model options := by
  rw [runIn_eq] at h
  rcases hemit : job.emitIn p w with ⟨⟨e | rendered, p'⟩, w'⟩ <;> rw [hemit] at h
  · exact h
  · dsimp only at h ⊢
    unfold delivered at h
    split at h
    · nomatch h
    · exact h
    · split at h
      · nomatch h
      · exact h

/-- Each call keeps what is loaded up to date. -/
theorem fresh_call [MarkupReader] {s : Session} (hs : s.Fresh) (c : Call) : (job.call s c).Fresh := by
  intro model options hphase
  cases c with
  | load =>
    show given ((job.loadIn s.progress s.world).1.1 :: s.loadings) = _
    change (job.loadIn s.progress s.world).1.2.phase = _ at hphase
    rcases loadIn_ends job s.progress s.world with ⟨meant, hload, hended, _⟩ |
      ⟨cause, hload, hended, _⟩ <;> rw [hended] at hphase <;> rw [hload]
    · obtain ⟨rfl, rfl⟩ := Phase.loaded.inj hphase
      rfl
    · obtain ⟨hbroken, hloaded⟩ := leaves_loaded hphase
      rw [given_broken hbroken]
      exact hs model options hloaded
  | emit => exact given_of_sourceAt hs (sourceAt_of_emitIn hphase)
  | run => exact given_of_sourceAt hs (sourceAt_of_emitIn (phase_emitIn_of_runIn hphase))
  | change w => exact hs model options hphase

/-- Every sequence of calls keeps what is loaded up to date. -/
theorem fresh_after [MarkupReader] (job : Job) (w : World) (calls : List Call) :
    (job.after w calls).Fresh := by
  -- The induction is on the calls, for a session that has made others before.
  have hrun : ∀ (calls : List Call) (s : Session), s.Fresh → (calls.foldl job.call s).Fresh := by
    intro calls
    induction calls with
    | nil => exact fun _ hs => hs
    | cons c calls ih => exact fun s hs => ih _ (fresh_call hs c)
  exact hrun calls _ fun model options h => (nomatch h)

/-! ## What is generated -/

theorem renderAll_of_emitIn [MarkupReader] {rendered : List Rendered}
    (h : (job.emitIn p w).1.1 = .ok rendered) :
    ∃ meant, job.sourceAt w.tree w.home p = .ok meant ∧
      renderAll meant.1 meant.2 job.table job.emitters [] = .ok rendered := by
  rw [emitIn_eq] at h
  obtain ⟨meant, hsource, hrender⟩ := bind_eq_ok.1 h
  exact ⟨meant, mapError_eq_ok.1 hsource, mapError_eq_ok.1 hrender⟩

/-- Where one operation after another succeeds, the second does. -/
theorem ok_of_bind {ε α β : Type} {x : ExceptT ε (StateM World) α}
    {k : α → ExceptT ε (StateM World) β} {b : β} (h : ((x >>= k) w).1 = .ok b) :
    ∃ a w', (k a w').1 = .ok b := by
  change (ExceptT.bindCont k (x w).1 (x w).2).1 = _ at h
  rcases hx : x w with ⟨e | a, w'⟩ <;> rw [hx] at h
  · nomatch h
  · exact ⟨a, w', h⟩

/-- A delivery that succeeds answers with the paths of what it was given. -/
theorem written_of_deliver {output : Path} {dirs : List String} {rendered : List Rendered}
    {files : List Path} (h : ((Delivery.deliver output dirs rendered :
      ExceptT _ (StateM World) (List Path)) w).1 = .ok files) :
    files = Delivery.written output rendered := by
  obtain ⟨_, _, h⟩ := ok_of_bind h
  obtain ⟨_, _, h⟩ := ok_of_bind h
  obtain ⟨result, _, h⟩ := ok_of_bind h
  obtain ⟨_, _, h⟩ := ok_of_bind h
  cases result with
  | ok _ => exact (Except.ok.inj h).symm
  | error _ => nomatch h

theorem ok_of_delivered {r : Except DeliveryFault (List Path)} {files : List Path}
    (h : (delivered p r).1 = .ok files) : r = .ok files := by
  unfold delivered at h
  split at h
  · exact congrArg _ (Except.ok.inj h)
  · nomatch h
  · split at h <;> nomatch h

/-- A run that succeeds has written what generating gave. -/
theorem emitIn_of_runIn [MarkupReader] {files : List Path} (h : (job.runIn p w).1.1 = .ok files) :
    ∃ rendered, (job.emitIn p w).1.1 = .ok rendered ∧
      files = Delivery.written job.output rendered := by
  rw [runIn_eq] at h
  rcases hemit : job.emitIn p w with ⟨⟨e | rendered, p'⟩, w'⟩ <;> rw [hemit] at h
  · nomatch h
  · have hdelivered := ok_of_delivered h
    exact ⟨rendered, rfl, written_of_deliver hdelivered⟩

/-- A loading that breaks off leaves the job loaded with what it had. -/
theorem call_load_broken [MarkupReader] {s : Session} {model : Model} {options : Options}
    {cause : LoadFault} (hphase : s.progress.phase = .loaded model options)
    (hload : Description.loadAt s.world.tree s.world.home job.description job.overrides =
      .error cause) (hbroken : cause.isForeseen = false) :
    (job.call s .load).progress.phase = .loaded model options ∧
      (job.call s .load).loadings = .error (.load cause) :: s.loadings := by
  obtain ⟨hended, hleft⟩ := loadIn_error (p := s.progress) hload
  refine ⟨?_, congrArg (· :: s.loadings) hended⟩
  show (job.loadIn s.progress s.world).1.2.phase = _
  rw [hleft, ← hphase]
  exact JobFault.leaves_unforeseen (e := .load cause) (Bool.eq_false_iff.1 hbroken)

/-- What is kept is what is generated. -/
theorem emitIn_of_loaded [MarkupReader] {model : Model} {options : Options}
    (h : p.phase = .loaded model options) :
    (job.emitIn p w).1.1 =
      (renderAll model options job.table job.emitters []).mapError fun e => .generation e.2 := by
  rw [emitIn_eq]
  unfold emitAt sourceAt
  rw [h]
  rfl

end Job

/-! ## The theorem -/

/-- **What is generated is what was loaded last.**  After any calls, in a world that changes between
them as it likes, a job that is loaded keeps what its last loading gave; and what generating or
running comes to was made from what the last loading gave, be it that of the call itself.  Loadings
that broke off do not count: the last one gave it, or broke off.  One that breaks off leaves a loaded
job as it was, so that what is generated next comes from the loading before. -/
theorem generated_is_last_loaded [MarkupReader] (job : Job) (w : World) (calls : List Call) :
    (∀ model options, (job.after w calls).progress.phase = .loaded model options →
      given (job.after w calls).loadings = some (model, options)) ∧
    (∀ rendered, (job.emitIn (job.after w calls).progress (job.after w calls).world).1.1 =
        .ok rendered →
      ∃ model options, given (job.after w (calls ++ [.emit])).loadings = some (model, options) ∧
        renderAll model options job.table job.emitters [] = .ok rendered) ∧
    (∀ files, (job.runIn (job.after w calls).progress (job.after w calls).world).1.1 = .ok files →
      ∃ model options rendered,
        given (job.after w (calls ++ [.run])).loadings = some (model, options) ∧
        renderAll model options job.table job.emitters [] = .ok rendered ∧
        files = Delivery.written job.output rendered) ∧
    (∀ meant, given (job.after w calls).loadings = some meant →
      (job.after w calls).loadings.head? = some (.ok meant) ∨
        ∃ e, (job.after w calls).loadings.head? = some (.error e) ∧ e.isForeseen = false) ∧
    ∀ model options cause, (job.after w calls).progress.phase = .loaded model options →
      Description.loadAt (job.after w calls).world.tree (job.after w calls).world.home
        job.description job.overrides = .error cause → cause.isForeseen = false →
      (job.after w (calls ++ [.load])).loadings =
          .error (.load cause) :: (job.after w calls).loadings ∧
        (job.after w (calls ++ [.load])).progress.phase = .loaded model options ∧
        ∀ rendered, renderAll model options job.table job.emitters [] = .ok rendered →
          (job.emitIn (job.after w (calls ++ [.load])).progress
            (job.after w (calls ++ [.load])).world).1.1 = .ok rendered := by
  have hfresh := Job.fresh_after job w calls
  refine ⟨hfresh, ?_, ?_, fun meant => head_of_given, ?_⟩
  · intro rendered hemit
    obtain ⟨⟨model, options⟩, hsource, hrender⟩ := Job.renderAll_of_emitIn hemit
    refine ⟨model, options, ?_, hrender⟩
    rw [Job.after_append]
    exact Job.given_of_sourceAt hfresh hsource
  · intro files hrun
    obtain ⟨rendered, hemit, hfiles⟩ := Job.emitIn_of_runIn hrun
    obtain ⟨⟨model, options⟩, hsource, hrender⟩ := Job.renderAll_of_emitIn hemit
    refine ⟨model, options, rendered, ?_, hrender, hfiles⟩
    rw [Job.after_append]
    exact Job.given_of_sourceAt hfresh hsource
  · intro model options cause hphase hload hbroken
    rw [Job.after_append]
    obtain ⟨hkept, hloadings⟩ := Job.call_load_broken hphase hload hbroken
    refine ⟨hloadings, hkept, fun rendered hrender => ?_⟩
    rw [Job.emitIn_of_loaded hkept, hrender]
    rfl

/-- A world in which the description says something. -/
def pairedTree : Tree := ⟨[(["w"], .directory), (["w", "a.yaml"], .file "options: {}")]⟩

/-- The calls that load a description, change it to one that cannot be read to its end, and load it
again. -/
def brokenCalls : List Call := [.load, .change (.ofTree unpairedTree ["w"])]

theorem generated_is_last_loaded_stale :
    ∃ model options rendered cause,
      (unpairedJob.after (.ofTree pairedTree ["w"]) (brokenCalls ++ [.load])).loadings =
        [.error (.load cause), .ok (model, options)] ∧
      (unpairedJob.emitIn
        (unpairedJob.after (.ofTree pairedTree ["w"]) (brokenCalls ++ [.load])).progress
        (unpairedJob.after (.ofTree pairedTree ["w"]) (brokenCalls ++ [.load])).world).1.1 =
          .ok rendered := by
  -- What is loaded need not be written out: it is enough that there is something to generate from.
  have hgiven : (match Description.loadAt pairedTree ["w"] unpairedJob.description [] with
      | .error _ => false
      | .ok (model, options) =>
        (renderAll model options unpairedJob.table unpairedJob.emitters []).isOk) = true := by
    decide +kernel
  have hbroken : (match Description.loadAt unpairedTree ["w"] unpairedJob.description [] with
      | .error cause => cause.isForeseen
      | .ok _ => true) = false := by decide +kernel
  cases hload : Description.loadAt pairedTree ["w"] unpairedJob.description [] with
  | error _ =>
    rw [hload] at hgiven
    nomatch hgiven
  | ok meant =>
    obtain ⟨model, options⟩ := meant
    rw [hload] at hgiven
    obtain ⟨rendered, hrendered⟩ := exists_eq_ok hgiven
    cases hfail : Description.loadAt unpairedTree ["w"] unpairedJob.description [] with
    | ok _ =>
      rw [hfail] at hbroken
      nomatch hbroken
    | error cause =>
      rw [hfail] at hbroken
      have hloaded := Job.loadIn_ok (p := .start) (w := .ofTree pairedTree ["w"])
        (show _ = Except.ok (model, options) from hload)
      have hstale := (generated_is_last_loaded unpairedJob (.ofTree pairedTree ["w"])
        brokenCalls).2.2.2.2 model options cause hloaded.2 hfail hbroken
      refine ⟨model, options, rendered, cause, hstale.1.trans ?_, hstale.2.2 rendered hrendered⟩
      exact congrArg (fun r => [.error (.load cause), r]) hloaded.1

end Bindery
