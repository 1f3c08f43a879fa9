/-
  RUNS FOR TARGETS, wherever the disk lets them deliver.

  Where no operation is refused and nothing is in the way (`World.Free`), a run for targets delivers
  exactly what the targets emit, or fails of something that no disk can keep (`run_ends`).  What it
  leaves is told by the files alone.  So it does not matter what was there before, and a second run
  changes nothing.
-/
import Bindery.Proofs.Job.Success
import Bindery.Proofs.Model.Acceptance
import Bindery.Proofs.Options.Valid

namespace Bindery

open Bindery.Tree

/-- What is loaded is an API, with valid options. -/
theorem Description.valid_of_loadAt [MarkupReader] {t : Tree} {home : Place} {path : Path}
    {overrides : List (String × Value)} {model : Model} {options : Options}
    (h : loadAt t home path overrides = .ok (model, options)) :
    model.WellFormed ∧ options.Valid := by
  unfold loadAt at h
  split at h
  · nomatch h
  · obtain ⟨es, _, h⟩ := bind_eq_ok.1 h
    obtain ⟨m, hm, h⟩ := bind_eq_ok.1 h
    obtain ⟨_, _, h⟩ := bind_eq_ok.1 h
    obtain ⟨o, ho, h⟩ := bind_eq_ok.1 h
    cases h
    exact ⟨(ofDescription_eq_ok.1 (mapError_eq_ok.1 hm)).2,
      Options.valid_of_merged (mapError_eq_ok.1 ho)⟩

/-! ## Runs for targets -/

/-- `w.Free job` — a world in which the disk lets a job deliver: no operation is refused, no file is
in the way of the output directory, and neither its path nor that of the description leads through a
directory that is replaced. -/
structure World.Free (w : World) (job : Job) : Prop where
  failures : w.failures = .none
  sound : w.tree.Sound w.home job.output
  usable : job.output.isUsable = true
  clear : w.tree.Clear w.home job.output
  avoids : ∀ d ∈ job.dirs, job.output.Avoids w.home (job.output.placeOf w.home ++ [d])
  outside : ∀ d ∈ job.dirs, job.description.Avoids w.home (job.output.placeOf w.home ++ [d])

/-- Why a run may fail all the same: a target cannot be generated, a name is too long for the disk,
or a text cannot be encoded. -/
inductive Hindered (emitted : Except Obstacle (List Source.File)) : JobFault → Prop
  | generating {target : String} {obstacle : Obstacle} (h : emitted = .error obstacle) :
    Hindered emitted (.generation (.broken target obstacle.message))
  | writing {files : List Source.File} {fault : DeliveryFault} (h : emitted = .ok files)
    (hfault : Delivery.Undeliverable files fault) : Hindered emitted (.ofDelivery fault)

namespace Job

variable {description output : Path} {names : List String} {overrides : List (String × Value)}
  {w : World} {p : Progress} {model : Model} {options : Options}

/-- No target has a directory with a name like that of a scratch directory. -/
theorem scratchName_not_mem_dirs (names : List String) (k : Nat) :
    Tree.scratchName k ∉ (Target.selected names).flatMap Target.dirs := by
  intro hmem
  obtain ⟨t, ht, hmem⟩ := List.mem_flatMap.1 hmem
  have hhead : ∀ t ∈ Target.all, ∀ d ∈ t.dirs, d.toList.head? ≠ some '.' := by decide
  exact Tree.ne_scratchName (hhead t (List.mem_filter.1 ht).1 _ hmem) k rfl

/-- The job for selected targets. -/
def forTargets (description output : Path) (overrides : List (String × Value))
    (names : List String) : Job :=
  ⟨description, output, overrides, (Target.selected names).map Target.emitter, .standard⟩

/-- What the emitters of a job for targets give is what the targets emit. -/
theorem emitAt_forTargets [MarkupReader] {t : Tree} {home : Place}
    {r : Except JobFault (List Rendered)}
    (hsource : (forTargets description output overrides names).sourceAt t home p =
      .ok (model, options)) (hm : model.WellFormed) (ho : options.Valid)
    (h : (forTargets description output overrides names).emitAt t home p = r) :
    (∃ files rendered, Target.emitEach model options .standard (Target.selected names) = .ok files ∧
      Delivery.allFiles rendered = files ∧ r = .ok rendered) ∨
    ∃ obstacle target, Target.emitEach model options .standard (Target.selected names) =
      .error obstacle ∧ r = .error (.generation (.broken target obstacle.message)) := by
  unfold emitAt at h
  rw [hsource] at h
  cases hemit : Target.emitEach model options .standard (Target.selected names) with
  | ok files =>
    obtain ⟨rendered, hrendered, hall⟩ := renderAll_of_ok hm ho [] (Target.apart_selected names).names
      (fun _ _ hmem => (nomatch hmem)) hemit
    refine Or.inl ⟨files, rendered, rfl, hall, ?_⟩
    rw [← h]
    exact mapError_eq_ok.2 hrendered
  | error obstacle =>
    obtain ⟨target, hrendered⟩ := renderAll_of_error hm ho [] hemit
    refine Or.inr ⟨obstacle, target, rfl, ?_⟩
    rw [← h]
    exact mapError_eq_error.2 ⟨_, hrendered, rfl⟩

theorem emitEach_of_emitAt [MarkupReader] {t : Tree} {home : Place} {rendered : List Rendered}
    (hsource : (forTargets description output overrides names).sourceAt t home p =
      .ok (model, options)) (hm : model.WellFormed) (ho : options.Valid)
    (h : (forTargets description output overrides names).emitAt t home p = .ok rendered) :
    Target.emitEach model options .standard (Target.selected names) =
      .ok (Delivery.allFiles rendered) := by
  rcases emitAt_forTargets hsource hm ho h with ⟨_, _, hfiles, hall, hr⟩ | ⟨_, _, _, hr⟩
  · cases hr
    rw [hfiles, hall]
  · nomatch hr

theorem hindered_of_emitAt [MarkupReader] {t : Tree} {home : Place} {e : JobFault}
    (hsource : (forTargets description output overrides names).sourceAt t home p =
      .ok (model, options)) (hm : model.WellFormed) (ho : options.Valid)
    (h : (forTargets description output overrides names).emitAt t home p = .error e) :
    Hindered (Target.emitEach model options .standard (Target.selected names)) e := by
  rcases emitAt_forTargets hsource hm ho h with ⟨_, _, _, _, hr⟩ | ⟨_, _, hobstacle, hr⟩
  · nomatch hr
  · cases hr
    exact .generating hobstacle

/-- Where no operation is refused and the output path leads through none of its directories, nothing
is left to ask of a job for targets. -/
theorem runnable_forTargets {home : Place}
    (havoids : ∀ d ∈ (forTargets description output overrides names).dirs,
      output.Avoids home (output.placeOf home ++ [d])) :
    (forTargets description output overrides names).Runnable .none home := by
  have hapart := Target.apart_selected names
  have hdirs : (forTargets description output overrides names).dirs =
      (Target.selected names).flatMap Target.dirs := dirs_of_targets
  refine ⟨Failures.Quiet.ofDisk fun _ => rfl, fun _ => rfl, fun _ => rfl, ?_, ?_, havoids⟩
  · rw [hdirs]
    exact hapart.dirs
  · rw [hdirs]
    exact hapart.component

theorem runnable_of_free (hw : w.Free (forTargets description output overrides names)) :
    (forTargets description output overrides names).Runnable w.failures w.home := by
  rw [hw.failures]
  exact runnable_forTargets hw.avoids

/-- A run for targets in a world that lets it deliver: what it delivers is exact, and it fails only
of what the disk cannot keep, leaving all as it was. -/
theorem run_ends [MarkupReader] (hw : w.Free (forTargets description output overrides names))
    (hsource : (forTargets description output overrides names).sourceAt w.tree w.home p =
      .ok (model, options)) (hm : model.WellFormed) (ho : options.Valid) :
    Ends
      (fun written _ t' => ∃ files,
        Target.emitEach model options .standard (Target.selected names) = .ok files ∧
        Delivery.Exact w.home output ((Target.selected names).flatMap Target.dirs) files w.tree t'
          written)
      (fun e _ t' => w.tree.WayMade w.home output t' ∧
        Hindered (Target.emitEach model options .standard (Target.selected names)) e)
      ((forTargets description output overrides names).runIn p w).1
      ((forTargets description output overrides names).runIn p w).2.tree := by
  have hapart := Target.apart_selected names
  have hdirs : (forTargets description output overrides names).dirs =
      (Target.selected names).flatMap Target.dirs := dirs_of_targets
  have hquiet : w.failures.Quiet := by
    rw [hw.failures]
    exact fun _ => rfl
  -- Two things are known of a delivery: what it leaves, and of what alone it fails.
  have hruns : Runs w.failures w.home (forTargets description output overrides names).run p w.tree _
      _ := runs_run fun rendered hemit => by
    have hdeliverable := (runnable_of_free hw).deliverable hemit
    have htidy := (emitEach_tidy hm ho hapart (emitEach_of_emitAt hsource hm ho hemit)).1
    refine (Delivery.steps_deliver hdeliverable hw.sound).and (Delivery.only_deliver hquiet
      hdeliverable (Source.File.Tidy.separate htidy) (fun k => ?_) hw.sound hw.usable hw.clear)
    rw [hdirs]
    exact scratchName_not_mem_dirs names k
  have hends : Ends _ _ ((forTargets description output overrides names).runIn p w).1
      ((forTargets description output overrides names).runIn p w).2.tree :=
    hruns.elim ⟨rfl, rfl, rfl⟩
  rcases hrun : ((forTargets description output overrides names).runIn p w).1 with ⟨e | written, p'⟩
    <;> rw [hrun] at hends
  · rcases hends with ⟨hemit, hsame, _⟩ | ⟨rendered, fault, hemit, rfl, ⟨hway, hwhy⟩, _⟩
    · rw [hsame]
      exact ⟨WayMade.refl, hindered_of_emitAt hsource hm ho hemit⟩
    · exact ⟨hway, .writing (emitEach_of_emitAt hsource hm ho hemit) hwhy⟩
  · obtain ⟨_, rendered, hemit, ⟨rfl, base, hmade, hdelivered⟩, _⟩ := hends
    have hfiles := emitEach_of_emitAt hsource hm ho hemit
    obtain ⟨htidy, hnodup⟩ := emitEach_tidy hm ho hapart hfiles
    rw [hdirs] at hdelivered
    exact ⟨_, hfiles, Delivery.exact_of_delivered hmade (hmade.sound hw.sound).closed
      (fun d hd => hw.avoids d (by rw [hdirs]; exact hd)) hdelivered htidy hnodup⟩

/-- What a description outside the directories is loaded as stays when something is delivered. -/
theorem loadAt_exact [MarkupReader] {home : Place} {dirs : List String} {files : List Source.File}
    {written : List Path} {t t' : Tree}
    (hloaded : Description.loadAt t home description overrides = .ok (model, options))
    (houtside : ∀ d ∈ dirs, description.Avoids home (output.placeOf home ++ [d]))
    (h : Delivery.Exact home output dirs files t t' written) :
    Description.loadAt t' home description overrides = .ok (model, options) := by
  refine Description.loadAt_kept hloaded fun q entry hq hentry => ?_
  rcases h.elsewhere q fun d hd => houtside d hd q hq with hsame | ⟨_, hnone, _⟩
  · rw [hsame, hentry]
  · rw [hentry] at hnone
    nomatch hnone

/-- A world to which a job has delivered is as free as the one before. -/
theorem free_again {job : Job} {files : List Source.File} {written : List Path} {t : Tree}
    {w₂ : World} (hw : w.Free job)
    (h : Delivery.Exact w.home job.output job.dirs files w.tree t written)
    (hw₂ : w₂.At .none w.home t) : w₂.Free job where
  failures := hw₂.failures
  sound := by
    rw [hw₂.tree, hw₂.home]
    exact ⟨h.closed, h.stands _ ⟨[], List.nil_prefix, rfl⟩⟩
  usable := hw.usable
  clear := by
    rw [hw₂.tree, hw₂.home]
    exact h.stands.clear
  avoids := by
    rw [hw₂.home]
    exact hw.avoids
  outside := by
    rw [hw₂.home]
    exact hw.outside

/-- **A run for targets delivers exactly what they emit.**  Of an accepted description, in a world
that lets the job deliver, a run leaves exactly the files that the selected targets emit, whatever
was there before, and a further run changes nothing.  It fails only where a target cannot be
generated, a name is too long for the disk or a text cannot be encoded, and then all is as it was. -/
theorem run_exact [MarkupReader] {job : Job}
    (hjob : ofTargets description output names overrides Emitter.standard .standard = .ok job)
    (hw : w.Free job)
    (hsource : job.sourceAt w.tree w.home p =
      Description.loadAt w.tree w.home description overrides)
    (haccepted : Description.loadAt w.tree w.home description overrides = .ok (model, options)) :
    (∃ files written,
      Target.emitEach model options .standard (Target.selected names) = .ok files ∧
      (job.runIn p w).1.1 = .ok written ∧
      Delivery.Exact w.home output job.dirs files w.tree (job.runIn p w).2.tree written ∧
      (∀ w₂ p₂ written₂, w₂.Free job → w₂.home = w.home →
        job.sourceAt w₂.tree w₂.home p₂ = .ok (model, options) →
        (job.runIn p₂ w₂).1.1 = .ok written₂ →
        written₂ = written ∧ ∀ d ∈ job.dirs, ∀ r,
          (job.runIn p₂ w₂).2.tree.find? (output.placeOf w.home ++ d :: r) =
            (job.runIn p w).2.tree.find? (output.placeOf w.home ++ d :: r)) ∧
      ∀ w₂ p₂, w₂.At .none w.home (job.runIn p w).2.tree →
        job.sourceAt w₂.tree w₂.home p₂ =
          Description.loadAt w₂.tree w₂.home description overrides →
        ∀ q, (job.runIn p₂ w₂).2.tree.find? q = (job.runIn p w).2.tree.find? q) ∨
    ∃ e, (job.runIn p w).1.1 = .error e ∧
      Hindered (Target.emitEach model options .standard (Target.selected names)) e ∧
      w.tree.WayMade w.home output (job.runIn p w).2.tree := by
  obtain rfl : job = forTargets description output overrides names := ofTargets_standard hjob
  have hdirs : (forTargets description output overrides names).dirs =
      (Target.selected names).flatMap Target.dirs := dirs_of_targets
  obtain ⟨hm, ho⟩ := Description.valid_of_loadAt haccepted
  have hends := run_ends hw (hsource.trans haccepted) hm ho
  rcases hrun : ((forTargets description output overrides names).runIn p w).1 with
    ⟨e | written, p'⟩ <;> rw [hrun] at hends
  · exact Or.inr ⟨e, rfl, hends.2, hends.1⟩
  · obtain ⟨files, hfiles, hexact⟩ := hends
    refine Or.inl ⟨files, written, hfiles, rfl, by rw [hdirs]; exact hexact, ?_, ?_⟩
    · intro w₂ p₂ written₂ hw₂ hhome hsource₂ hrun₂
      have hends₂ := run_ends hw₂ hsource₂ hm ho
      rcases hpair : ((forTargets description output overrides names).runIn p₂ w₂).1 with
        ⟨r₂, p₂'⟩
      rw [hpair] at hrun₂ hends₂
      obtain rfl : r₂ = .ok written₂ := hrun₂
      obtain ⟨files₂, hfiles₂, hexact₂⟩ := hends₂
      obtain rfl : files₂ = files := Except.ok.inj (hfiles₂.symm.trans hfiles)
      rw [hhome] at hexact₂
      obtain ⟨hsame, hwritten⟩ := hexact₂.same hexact
      rw [hdirs]
      exact ⟨hwritten, hsame⟩
    · intro w₂ p₂ hat hsource₂ q
      have hloaded : Description.loadAt w₂.tree w₂.home description overrides =
          .ok (model, options) := by
        rw [hat.home, hat.tree]
        exact loadAt_exact haccepted (fun d hd => hw.outside d (by rw [hdirs]; exact hd)) hexact
      have hfree := free_again hw (by rw [hdirs]; exact hexact) hat
      have hends₂ := run_ends hfree (hsource₂.trans hloaded) hm ho
      rcases hpair : ((forTargets description output overrides names).runIn p₂ w₂).1 with
        ⟨e | written₂, p₂'⟩ <;> rw [hpair, hat.home, hat.tree] at hends₂
      · exact hexact.unmade hends₂.1 q
      · obtain ⟨files₂, hfiles₂, hexact₂⟩ := hends₂
        obtain rfl : files₂ = files := Except.ok.inj (hfiles₂.symm.trans hfiles)
        exact hexact.again hexact₂ q

/-! ## Runs in one working directory -/

/-- A working directory with an empty description, and a file where a target has its directory. -/
def staleTree : Tree :=
  ⟨[(["w"], .directory), (["w", "a.idl"], .file ""), (["w", "swift"], .file "old")]⟩

/-- The job for the Swift side of the empty description. -/
def swiftJob (output : String) (overrides : List (String × Value)) : Job :=
  forTargets (.ofString "a.idl") (.ofString output) overrides ["swift"]

theorem ofTargets_swift (output : String) (overrides : List (String × Value)) :
    ofTargets (.ofString "a.idl") (.ofString output) ["swift"] overrides Emitter.standard .standard =
      .ok (swiftJob output overrides) := rfl

theorem free_stale {output : String} {overrides : List (String × Value)}
    (hhere : (Path.ofString output).isAbsolute = false)
    (husable : (Path.ofString output).isUsable = true)
    (hclear : ∀ front ∈ (Path.ofString output).names.inits,
      (staleTree.find? (follow ["w"] front)).map Entry.kind ≠ some .file)
    (havoids : (Path.ofString output).Avoids ["w"] ((Path.ofString output).placeOf ["w"] ++ ["swift"]))
    (houtside : (Path.ofString "a.idl").Avoids ["w"]
      ((Path.ofString output).placeOf ["w"] ++ ["swift"])) :
    (World.ofTree staleTree ["w"]).Free (swiftJob output overrides) where
  failures := rfl
  sound := ⟨closed_of_entries (by decide), by
    show staleTree.find? ((Path.ofString output).start ["w"]) = _
    rw [Path.start, hhere]
    decide⟩
  usable := husable
  clear := by
    rintro q text ⟨front, hfront, rfl⟩ hfile
    have hstart : (Path.ofString output).start ["w"] = ["w"] := by
      rw [Path.start, hhere]
      rfl
    have hkind := hclear front ((List.mem_inits _ _).2 hfront)
    have hfile' : staleTree.find? (follow ["w"] front) = some (.file text) := hstart ▸ hfile
    rw [hfile'] at hkind
    exact hkind rfl
  avoids := fun d hd => by
    rw [List.mem_singleton.1 (show d ∈ ["swift"] from hd)]
    exact havoids
  outside := fun d hd => by
    rw [List.mem_singleton.1 (show d ∈ ["swift"] from hd)]
    exact houtside

/-- A target takes the place of a file. -/
theorem run_exact_over_file : ∃ model options files written,
    Description.loadAt staleTree ["w"] (.ofString "a.idl") [] = .ok (model, options) ∧
    Target.emitEach model options .standard [.swift] = .ok files ∧
    ((swiftJob "." []).runIn .start (.ofTree staleTree ["w"])).1.1 = .ok written ∧
    Delivery.Exact ["w"] (.ofString ".") ["swift"] files staleTree
      ((swiftJob "." []).runIn .start (.ofTree staleTree ["w"])).2.tree written := by
  have hloads : (Description.loadAt staleTree ["w"] (.ofString "a.idl") []).isOk = true := by
    decide +kernel
  have hruns : ((swiftJob "." []).runIn .start (.ofTree staleTree ["w"])).1.1.isOk = true := by
    decide +kernel
  obtain ⟨⟨model, options⟩, hloaded⟩ := exists_eq_ok hloads
  rcases run_exact (w := .ofTree staleTree ["w"]) (p := .start) (ofTargets_swift "." [])
    (free_stale (by decide) (by decide) (by decide) (by decide) (by decide)) rfl hloaded with
    ⟨files, written, hfiles, hrun, hexact, _⟩ | ⟨e, herror, _⟩
  · exact ⟨model, options, files, written, hloaded, hfiles, hrun, hexact⟩
  · rw [herror] at hruns
    nomatch hruns

/-- Where a run shows beside the files that it delivers, and where it delivers none.  A directory
that the output path only passes is made and stays.  And settings that load may still be no lines
for a header, so that there is nothing to deliver. -/
theorem run_shows :
    ((World.ofTree staleTree ["w"]).Free (swiftJob "x/.." []) ∧
      (Description.loadAt staleTree ["w"] (.ofString "a.idl") []).isOk = true ∧
      ((swiftJob "x/.." []).runIn .start (.ofTree staleTree ["w"])).1.1.isOk = true ∧
      (Path.ofString "x/..").placeOf ["w"] = ["w"] ∧ "x" ∉ (swiftJob "x/.." []).dirs ∧
      staleTree.find? ["w", "x"] = none ∧
      ((swiftJob "x/.." []).runIn .start (.ofTree staleTree ["w"])).2.tree.find? ["w", "x"] =
        some .directory) ∧
    ((World.ofTree staleTree ["w"]).Free (swiftJob "." [("header_lines", .int 5)]) ∧
      (Description.loadAt staleTree ["w"] (.ofString "a.idl") [("header_lines", .int 5)]).isOk =
        true ∧
      ((swiftJob "." [("header_lines", .int 5)]).runIn .start
        (.ofTree staleTree ["w"])).1.1.isOk = false) := by
  refine ⟨⟨free_stale (by decide) (by decide) (by decide) (by decide) (by decide),
    by decide +kernel, by decide +kernel, by decide, by decide, by decide, by decide +kernel⟩,
    free_stale (by decide) (by decide) (by decide) (by decide) (by decide),
    by decide +kernel, by decide +kernel⟩

end Job

end Bindery
