/-
  WHAT HAS BEEN CHECKED IS GENERATED, and only the disk can refuse it.

  A run fails before its files are written exactly where loading or generating does
  (`isOfWriting_or_emitAt`).  Of an accepted API with sizes that can be written, and options with
  texts, every target is generated (`Target.generates`); so a description that has been looked at
  and found good leaves only faults of writing to a run.
-/
import Bindery.Program
import Bindery.Proofs.Job.TargetRun
import Bindery.Proofs.Target.Generation

namespace Bindery

variable {α β : Type}

/-! ## Faults of operations -/

/-- `FaultsOnly why x` — wherever the operation starts, it fails only with such faults. -/
def FaultsOnly (why : JobFault → Prop) (x : JobM (StateM World) α) : Prop :=
  ∀ p w e, (x p w).1.1 = .error e → why e

namespace FaultsOnly

variable {why : JobFault → Prop} {x y : JobM (StateM World) α}

theorem pure (a : α) : FaultsOnly why (Pure.pure a) :=
  fun _ _ _ h => (nomatch h)

theorem throw {e : JobFault} (h : why e) :
    FaultsOnly why (MonadExcept.throw e : JobM (StateM World) α) := by
  intro p w e' he
  cases he
  exact h

theorem lift (x : StateT Progress (StateM World) α) : FaultsOnly why (ExceptT.lift x) :=
  fun _ _ _ h => (nomatch h)

theorem become (phase : Phase) : FaultsOnly why (Job.become phase) :=
  fun _ _ _ h => (nomatch h)

theorem workFor (target : Option String) : FaultsOnly why (Job.workFor target) :=
  fun _ _ _ h => (nomatch h)

/-- A fault of two steps is one of the first, or one of the second with what the first gives. -/
theorem error_bind {k : α → JobM (StateM World) β} {p : Progress} {w : World} {e : JobFault}
    (h : ((x >>= k) p w).1.1 = .error e) :
    (x p w).1.1 = .error e ∨
      ∃ a, (x p w).1.1 = .ok a ∧ (k a (x p w).1.2 (x p w).2).1.1 = .error e := by
  rw [run_bind] at h
  rcases hx : x p w with ⟨⟨e' | a, p'⟩, w'⟩
  · rw [hx] at h
    exact Or.inl (congrArg Except.error (Except.error.inj h))
  · rw [hx] at h
    exact Or.inr ⟨a, rfl, h⟩

theorem bind {k : α → JobM (StateM World) β} (hx : FaultsOnly why x)
    (hk : ∀ a, FaultsOnly why (k a)) : FaultsOnly why (x >>= k) := by
  intro p w e h
  rcases error_bind h with h | ⟨a, _, h⟩
  · exact hx p w e h
  · exact hk a _ _ e h

theorem ite {c : Prop} [Decidable c] (hx : FaultsOnly why x) (hy : FaultsOnly why y) :
    FaultsOnly why (if c then x else y) := by
  split
  · exact hx
  · exact hy

end FaultsOnly

namespace Job

variable {p : Progress} {w : World}

theorem faultsOnly_noteEach {why : JobFault → Prop} (files : List Path) :
    FaultsOnly why (noteEach files) := by
  induction files with
  | nil => exact FaultsOnly.pure ()
  | cons file files ih => exact (FaultsOnly.lift _).bind fun _ => ih

/-- How loading and generating end in a world. -/
def emitIn [MarkupReader] (job : Job) (p : Progress) (w : World) :
    (Except JobFault (List Rendered) × Progress) × World :=
  (job.emit : JobM (StateM World) (List Rendered)) p w

/-- Loading and generating come to the same from every world with this tree. -/
theorem emitIn_eq [MarkupReader] (job : Job) (p : Progress) (w : World) :
    (job.emitIn p w).1.1 = job.emitAt w.tree w.home p := by
  have hends : Ends _ _ (job.emitIn p w).1 (job.emitIn p w).2.tree :=
    (runs_emit job).elim ⟨rfl, rfl, rfl⟩
  rcases hemit : (job.emitIn p w).1 with ⟨e | rendered, p'⟩ <;> rw [hemit] at hends
  · exact hends.2.1.symm
  · exact hends.2.1.symm

/-- A run fails as loading and generating do, or of writing. -/
theorem isOfWriting_or_emitAt [MarkupReader] {job : Job} {e : JobFault}
    (h : (job.runIn p w).1.1 = .error e) :
    e.isOfWriting = true ∨ job.emitAt w.tree w.home p = .error e := by
  rcases FaultsOnly.error_bind h with h | ⟨start, _, h⟩
  · nomatch h
  · rcases FaultsOnly.error_bind h with h | ⟨rendered, _, h⟩
    · exact Or.inr ((emitIn_eq job p w).symm.trans h)
    · refine Or.inl ((?_ : FaultsOnly (fun e => e.isOfWriting = true) _) _ _ e h)
      refine FaultsOnly.bind (FaultsOnly.lift _) fun r => ?_
      rcases r with (cause | ⟨target, cause⟩) | written
      · exact FaultsOnly.throw rfl
      · refine FaultsOnly.bind (FaultsOnly.workFor _) fun _ => ?_
        refine FaultsOnly.ite ?_ (FaultsOnly.throw rfl)
        refine FaultsOnly.bind (FaultsOnly.become _) fun _ => ?_
        exact FaultsOnly.bind (FaultsOnly.throw rfl) fun _ => FaultsOnly.throw rfl
      · refine FaultsOnly.bind (faultsOnly_noteEach written) fun _ => ?_
        refine FaultsOnly.bind (FaultsOnly.become _) fun _ => ?_
        refine FaultsOnly.bind (FaultsOnly.lift _) fun _ => ?_
        exact FaultsOnly.bind (FaultsOnly.lift _) fun _ => FaultsOnly.pure _

end Job

/-! ## Everything accepted is generated -/

theorem Target.exists_emitEach {m : Model} {o : Options} {ts : List Target}
    (h : ∀ t ∈ ts, ∃ files, t.emit m o .standard = .ok files) :
    ∃ files, emitEach m o .standard ts = .ok files := by
  induction ts with
  | nil => exact ⟨[], rfl⟩
  | cons t ts ih =>
    obtain ⟨⟨own, hown⟩, hts⟩ := List.forall_mem_cons.1 h
    obtain ⟨others, hothers⟩ := ih hts
    exact ⟨own ++ others, bind_eq_ok.2 ⟨own, hown, bind_eq_ok.2 ⟨others, hothers, rfl⟩⟩⟩

/-- What is loaded has its texts where the overrides have theirs. -/
theorem Description.shown_of_loadAt [MarkupReader] {t : Tree} {home : Place} {path : Path}
    {overrides : List (String × Value)} {model : Model} {options : Options}
    (h : loadAt t home path overrides = .ok (model, options))
    (hsaid : ∀ e ∈ Options.present overrides, Options.ShownOverride e) : options.Shown := by
  unfold loadAt at h
  split at h
  · nomatch h
  · obtain ⟨es, _, h⟩ := bind_eq_ok.1 h
    obtain ⟨_, _, h⟩ := bind_eq_ok.1 h
    obtain ⟨o, ho, h⟩ := bind_eq_ok.1 h
    obtain ⟨o', ho', h⟩ := bind_eq_ok.1 h
    cases h
    exact Options.shown_of_merged (Options.shown_of_ofValue (mapError_eq_ok.1 ho)) hsaid
      (mapError_eq_ok.1 ho')

/-- A job for targets has everything generated. -/
theorem Job.exists_emitAt [MarkupReader] {description output : Path} {names : List String}
    {overrides : List (String × Value)} {t : Tree} {home : Place} {p : Progress} {m : Model}
    {o : Options} (hsource : (forTargets description output overrides names).sourceAt t home p =
      .ok (m, o)) (hm : m.WellFormed) (ho : o.Valid) (hsizes : m.Short) (hshown : o.Shown) :
    ∃ rendered, (forTargets description output overrides names).emitAt t home p =
      .ok rendered := by
  have hall : ∀ t ∈ Target.selected names, ∃ files, t.emit m o .standard = .ok files := by
    intro t _
    obtain ⟨files, hfiles, _⟩ := Target.generates (t := t) hm ho hsizes hshown
    exact ⟨files, hfiles⟩
  obtain ⟨files, hfiles⟩ := Target.exists_emitEach hall
  rcases emitAt_forTargets hsource hm ho rfl with ⟨_, rendered, _, _, hr⟩ | ⟨_, _, hobstacle, _⟩
  · exact ⟨rendered, hr⟩
  · rw [hfiles] at hobstacle
    nomatch hobstacle

/-! ## Commands -/

namespace Command

/-- What a command overrides are texts. -/
theorem shownOverride_of_overrides (c : Command) :
    ∀ e ∈ Options.present c.overrides, Options.ShownOverride e := by
  intro e he
  have hmem : e ∈ c.overrides := (List.mem_filter.1 he).1
  have htext : ∃ s, e.2 = .str s := by
    simp only [overrides, List.mem_cons, List.not_mem_nil, or_false] at hmem
    rcases hmem with rfl | rfl | rfl
    · exact ⟨_, rfl⟩
    · exact ⟨_, rfl⟩
    · exact ⟨_, rfl⟩
  have hkey : e.1 ≠ OptionDraft.headerKey := by
    simp only [overrides, List.mem_cons, List.not_mem_nil, or_false] at hmem
    rcases hmem with rfl | rfl | rfl <;> dsimp only <;> decide
  obtain ⟨s, hs⟩ := htext
  exact ⟨fun h => absurd h hkey, fun _ => by rw [hs]; rfl⟩

theorem status_endWith (e : JobFault) (w : World) :
    ((endWith e : StateM World Ending) w).1.status = 1 := by
  unfold endWith
  cases e.isForeseen <;> rfl

/-- How a command with a job ends. -/
theorem run_of_job [MarkupReader] {c : Command} {job : Job} (h : c.job = .ok job) (w : World) :
    (c.run : StateM World Ending) w =
      match (c.work job : JobM (StateM World) Unit) .start w with
      | ((.ok _, _), w') => (.finished, w')
      | ((.error e, _), w') => (endWith e : StateM World Ending) w' := by
  have hbind : ∀ {α : Type} (x : StateM World α) (k : α → StateM World Ending),
      (x >>= k) w = k (x w).1 (x w).2 := fun _ _ => rfl
  have hwork : (c.work job : JobM (StateM World) Unit) .start w =
      ((c.work job).run.run .start : StateM World _) w := rfl
  unfold run
  rw [h, hwork]
  dsimp only
  rw [hbind]
  generalize ((c.work job).run.run .start : StateM World _) w = ending
  rcases ending with ⟨⟨e | _, _⟩, _⟩ <;> rfl

/-- A command ends well if there is a job for it and the work is done. -/
theorem status_run [MarkupReader] {c : Command} {w : World} :
    ((c.run : StateM World Ending) w).1.status = 0 ↔
      ∃ job, c.job = .ok job ∧ ((c.work job : JobM (StateM World) Unit) .start w).1.1 = .ok () := by
  cases hjob : c.job with
  | error e =>
    have hstatus : ((c.run : StateM World Ending) w).1.status = 1 := by
      unfold run
      rw [hjob]
      exact status_endWith (.generation e) w
    exact ⟨fun h => absurd (hstatus.symm.trans h) (by decide), fun ⟨_, h, _⟩ => (nomatch h)⟩
  | ok job =>
    rw [run_of_job hjob]
    rcases hwork : (c.work job : JobM (StateM World) Unit) .start w with ⟨⟨e | _, p⟩, w'⟩
    · have hstatus := status_endWith e w'
      refine ⟨fun h => absurd (hstatus.symm.trans h) (by decide), fun ⟨job', hjob', h⟩ => ?_⟩
      cases hjob'
      rw [hwork] at h
      nomatch h
    · exact ⟨fun _ => ⟨job, rfl, by rw [hwork]⟩, fun _ => rfl⟩

theorem eq_forTargets {c : Command} {job : Job} (h : c.job = .ok job) :
    job = Job.forTargets (.ofString c.description) (.ofString c.output) c.overrides
      (c.targets.map Target.name) := Job.ofTargets_standard h

/-- A command that only looks and ends well has a description that loads. -/
theorem loadAt_of_checked [MarkupReader] {c : Command} {job : Job} {w : World}
    (hcheck : c.checkOnly = true)
    (h : ((c.work job : JobM (StateM World) Unit) .start w).1.1 = .ok ()) :
    ∃ meant, Description.loadAt w.tree w.home job.description job.overrides = .ok meant := by
  have hruns : Runs w.failures w.home (c.work job) .start w.tree
      (fun _ _ _ => ∃ meant,
        Description.loadAt w.tree w.home job.description job.overrides = .ok meant)
      (fun _ _ _ => True) := by
    unfold work
    rw [if_pos hcheck]
    refine Runs.bind ((Job.runs_load job).mono (fun _ _ _ h => h) fun _ _ _ _ => trivial) ?_
    rintro ⟨model, options⟩ p t ⟨_, _, hload⟩
    exact (Runs.note _).mono (fun _ _ _ _ => ⟨_, hload⟩) fun _ _ _ h => h
  have hends := hruns.elim (w := w) ⟨rfl, rfl, rfl⟩
  rcases hwork : ((c.work job : JobM (StateM World) Unit) .start w).1 with ⟨r, p⟩
  rw [hwork] at h hends
  obtain rfl : r = .ok () := h
  exact hends

/-- A command for a whole run fails as its job does. -/
theorem runIn_of_work [MarkupReader] {c : Command} {job : Job} {w : World} {e : JobFault}
    (hcheck : c.checkOnly = false)
    (h : ((c.work job : JobM (StateM World) Unit) .start w).1.1 = .error e) :
    (job.runIn .start w).1.1 = .error e := by
  unfold work at h
  rw [hcheck, if_neg (by decide)] at h
  rcases FaultsOnly.error_bind h with h | ⟨_, _, h⟩
  · exact h
  · nomatch h

end Command

/-! ## The theorem -/

/-- **A description that is accepted is generated.**  Of an accepted API with accepted options
every target is generated and its files are let through, so that a job for any targets never fails
before it writes; the sizes have to be short enough to be written, and an override that is no text
has to have one.  And where a command that only looks at a description ends well, a whole run in a
world with the same files fails of nothing but writing. -/
theorem accepted_generates [MarkupReader] {es : List (Value × Value)}
    {overrides : List (String × Value)}
    {m : Model} {declared o : Options} (hmodel : Model.ofDescription es = .ok m)
    (hdeclared : Options.ofValue (Description.optionSection es) = .ok declared)
    (hoptions : declared.merged overrides = .ok o) (hsizes : m.Short)
    (hsaid : ∀ e ∈ Options.present overrides, Options.ShownOverride e) :
    (∀ t : Target, ∃ files, t.emit m o .standard = .ok files ∧
      t.emitter.checkPaths files = .ok ()) ∧
    (∀ description output names job p w,
      Job.ofTargets description output names overrides Emitter.standard .standard = .ok job →
      job.sourceAt w.tree w.home p = .ok (m, o) →
      ∃ rendered, (job.emitIn p w).1.1 = .ok rendered) ∧
    ∀ (c : Command) (w : World), c.checkOnly = true →
      ((c.run : StateM World Ending) w).1.status = 0 →
      (∀ model options, Description.loadAt w.tree w.home (.ofString c.description) c.overrides =
        .ok (model, options) → model.Short) →
      ∃ job, c.job = .ok job ∧ ∀ w' : World, w'.tree = w.tree → w'.home = w.home → ∀ e,
        (({ c with checkOnly := false }.work job : JobM (StateM World) Unit) .start w').1.1 =
          .error e → e.isOfWriting = true := by
  have hm : m.WellFormed := (ofDescription_eq_ok.1 hmodel).2
  have ho : o.Valid := Options.valid_of_merged hoptions
  have hshown : o.Shown :=
    Options.shown_of_merged (Options.shown_of_ofValue hdeclared) hsaid hoptions
  refine ⟨fun t => Target.generates hm ho hsizes hshown, ?_, ?_⟩
  · intro description output names job p w hjob hsource
    obtain rfl : job = Job.forTargets description output overrides names :=
      Job.ofTargets_standard hjob
    obtain ⟨rendered, hrendered⟩ := Job.exists_emitAt hsource hm ho hsizes hshown
    exact ⟨rendered, (Job.emitIn_eq _ p w).trans hrendered⟩
  · intro c w hcheck hstatus hshort
    obtain ⟨job, hjob, hdone⟩ := Command.status_run.1 hstatus
    refine ⟨job, hjob, fun w' htree hhome e he => ?_⟩
    obtain rfl := Command.eq_forTargets hjob
    obtain ⟨⟨model, options⟩, hload⟩ := Command.loadAt_of_checked hcheck hdone
    obtain ⟨hmodel', hoptions'⟩ := Description.valid_of_loadAt hload
    have hshown' := Description.shown_of_loadAt hload c.shownOverride_of_overrides
    rcases Job.isOfWriting_or_emitAt (Command.runIn_of_work rfl he) with he | he
    · exact he
    · rw [htree, hhome] at he
      obtain ⟨rendered, hrendered⟩ := Job.exists_emitAt (p := .start) hload hmodel' hoptions'
        (hshort model options hload) hshown'
      rw [hrendered] at he
      nomatch he

/-! ## Sizes and overrides -/

/-- A description of one key of the given size. -/
def sizedKey (size : Int) : List (Value × Value) :=
  [(.str "types", .list [.map [(.str "name", .str "Key"), (.str "kind", .str "buffer"),
    (.str "size", .int size)]])]

theorem ofValue_sizedKey (size : Int) :
    Options.ofValue (Description.optionSection (sizedKey size)) = .ok Options.standard := rfl

theorem merged_nil : Options.standard.merged [] = .ok Options.standard := rfl

theorem merged_header (v : Value) (h : v.isAbsent = false) :
    Options.standard.merged [(OptionDraft.headerKey, v)] =
      .ok { Options.standard with header := Options.overridingHeader v } := by
  unfold Options.merged Options.present
  rw [List.filter_cons_of_pos (by rw [h]; rfl)]
  rfl

theorem merged_jni (v : Value) (h : v.isAbsent = false) :
    Options.standard.merged [(OptionDraft.jniKey, v)] =
      .ok { Options.standard with jniLibrary := v } := by
  unfold Options.merged Options.present
  rw [List.filter_cons_of_pos (by rw [h]; rfl)]
  rfl

/-- A key with a header of two lines. -/
theorem accepted_generates_key : ∃ m,
    Model.ofDescription (sizedKey 32) = .ok m ∧ m.Short ∧ ∀ t : Target, ∃ files,
      t.emit m { Options.standard with header := .lines [.str "one", .int 2] } .standard =
        .ok files ∧ t.emitter.checkPaths files = .ok () := by
  have hok : (Model.ofDescription (sizedKey 32)).isOk = true := by decide +kernel
  have hshort : (Model.ofDescription (sizedKey 32)).toOption.all (fun m => m.checkSizes.isOk) =
      true := by decide +kernel
  obtain ⟨m, hm⟩ := exists_eq_ok hok
  rw [hm] at hshort
  obtain ⟨_, hsizes⟩ := exists_eq_ok (x := m.checkSizes) hshort
  have hsizes : m.Short := Model.checkSizes_eq_ok.1 hsizes
  have hmerged := merged_header (.list [.str "one", .int 2]) rfl
  refine ⟨m, hm, hsizes,
    (accepted_generates hm (ofValue_sizedKey 32) hmerged hsizes ?_).1⟩
  intro e he
  obtain rfl := List.mem_singleton.1 (show e ∈ [_] from he)
  refine ⟨fun _ v hv => ?_, fun h => absurd h (by decide)⟩
  rcases List.mem_cons.1 (show v ∈ [_, _] from hv) with rfl | hv
  · rfl
  · rw [List.mem_singleton.1 hv]
    decide +kernel

/-- What is accepted and yet not generated.  A size may have more digits than are written, a header
that replaces the declared one may have no lines, and a library that replaces the declared one may
have no text. -/
theorem accepted_unwritten :
    (∃ m, Model.ofDescription (sizedKey (10 ^ 4300)) = .ok m ∧
      Options.ofValue (Description.optionSection (sizedKey (10 ^ 4300))) = .ok Options.standard ∧
      Options.standard.merged [] = .ok Options.standard ∧
      ∀ (t : Target) files, t.emit m Options.standard .standard ≠ .ok files) ∧
    ∃ m, Model.ofDescription (sizedKey 32) = .ok m ∧
      Options.ofValue (Description.optionSection (sizedKey 32)) = .ok Options.standard ∧
      (∃ o, Options.standard.merged [(OptionDraft.headerKey, .int 5)] = .ok o ∧
        ∀ (t : Target) files, t.emit m o .standard ≠ .ok files) ∧
      ∃ o, Options.standard.merged [(OptionDraft.jniKey, .int (10 ^ 4300))] = .ok o ∧
        ∀ files, Target.jvm.emit m o .standard ≠ .ok files := by
  have hlong : (Model.ofDescription (sizedKey (10 ^ 4300))).toOption.map (fun m => m.checkSizes.isOk) =
      some false := by decide +kernel
  have hok : (Model.ofDescription (sizedKey 32)).isOk = true := by decide +kernel
  have hlibrary : (Value.int (10 ^ 4300)).plain.isSome = false := by decide +kernel
  have hpresent : (Value.int (10 ^ 4300)).isAbsent = false := by decide +kernel
  obtain ⟨m, hm, hsizes⟩ := Option.map_eq_some_iff.1 hlong
  obtain ⟨m', hm'⟩ := exists_eq_ok hok
  refine ⟨⟨m, ?_, ofValue_sizedKey _, merged_nil, fun t files h => ?_⟩, m', hm', ofValue_sizedKey _,
    ⟨_, merged_header (.int 5) rfl, fun t files h => ?_⟩, _, merged_jni _ hpresent,
    fun files h => ?_⟩
  · cases hread : Model.ofDescription (sizedKey (10 ^ 4300)) with
    | error e =>
      rw [hread] at hm
      nomatch hm
    | ok m' =>
      rw [hread] at hm
      exact congrArg Except.ok (Option.some.inj hm)
  · obtain ⟨_, hshort, _⟩ := Target.exists_emit.1 ⟨files, h⟩
    rw [Model.checkSizes_eq_ok.2 hshort] at hsizes
    nomatch hsizes
  · exact (Target.exists_emit.1 ⟨files, h⟩).1
  · have hshown := (Target.exists_emit.1 ⟨files, h⟩).2.2 rfl
    unfold Options.jniLibraryName at hshown
    dsimp only at hshown
    rw [hpresent, if_neg (by decide), hlibrary] at hshown
    nomatch hshown

end Bindery
