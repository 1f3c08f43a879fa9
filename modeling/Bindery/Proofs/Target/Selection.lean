/-
  SELECTED TARGETS: what is generated for some of the targets.

  A job that asks for targets generates for each of them what the target emits, in the order of the
  targets (`renderAll_of_ok`).  The directories of all targets are different, so all their files
  lie apart (`emitEach_tidy`).
-/
import Mathlib.Data.List.Sublists
import Bindery.Proofs.Job.Course
import Bindery.Proofs.Target.Paths
import Bindery.Proofs.Text.Sorting

namespace Bindery

/-! ## Which targets -/

namespace Target

/-- The targets that are asked for, in their own order; without any name these are all. -/
def selected (names : List String) : List Target :=
  all.filter fun t => names.isEmpty || names.contains t.name

/-- The files of targets, one target after the other. -/
def emitEach (model : Model) (options : Options) (table : ErrorTable) :
    List Target → Except Obstacle (List Source.File)
  | [] => .ok []
  | t :: ts => do
    let files ← t.emit model options table
    let others ← emitEach model options table ts
    return files ++ others

/-- `Apart ts` — targets with names and directories of their own. -/
structure Apart (ts : List Target) : Prop where
  names : (ts.map Target.name).Nodup
  dirs : (ts.flatMap Target.dirs).Nodup
  component : ∀ d ∈ ts.flatMap Target.dirs, IsComponent d

instance (ts : List Target) : Decidable (Apart ts) :=
  decidable_of_iff ((ts.map Target.name).Nodup ∧ (ts.flatMap Target.dirs).Nodup ∧
    ∀ d ∈ ts.flatMap Target.dirs, IsComponent d)
    ⟨fun ⟨h1, h2, h3⟩ => ⟨h1, h2, h3⟩, fun ⟨h1, h2, h3⟩ => ⟨h1, h2, h3⟩⟩

theorem apart_selected (names : List String) : Apart (selected names) := by
  have hall : ∀ ts ∈ all.sublists, Apart ts := by decide
  exact hall _ (List.mem_sublists.2 List.filter_sublist)

theorem Apart.tail {t : Target} {ts : List Target} (h : Apart (t :: ts)) : Apart ts where
  names := (List.nodup_cons.1 h.names).2
  dirs := (List.nodup_append.1 h.dirs).2.1
  component := fun d hd => h.component d (List.mem_append_right _ hd)

end Target

/-- A job is made only for targets that there are. -/
theorem Job.selected_of_ofTargets {description output : Path} {names : List String}
    {overrides : List (String × Value)} {job : Job}
    (h : Job.ofTargets description output names overrides Emitter.standard .standard = .ok job) :
    ∀ name ∈ names, ∃ t ∈ Target.selected names, t.name = name := by
  intro name hname
  have hne : names.isEmpty = false := List.isEmpty_eq_false_iff_exists_mem.2 ⟨name, hname⟩
  have hknown : (names.filter fun n => !(Emitter.standard.map (·.target)).contains n) = [] := by
    unfold Job.ofTargets at h
    dsimp only at h
    simp only [hne, Bool.false_eq_true, if_false] at h
    by_contra hsome
    obtain ⟨n, hn⟩ := List.exists_mem_of_ne_nil _ hsome
    have hunknown : (Text.sortDistinct (names.filter fun n =>
        !(Emitter.standard.map (·.target)).contains n)).isEmpty = false :=
      List.isEmpty_eq_false_iff_exists_mem.2
        ⟨n, Text.mem_sortNames.2 (List.mem_eraseDups.2 hn)⟩
    rw [hunknown, if_pos (by decide)] at h
    nomatch h
  have htarget := List.filter_eq_nil_iff.1 hknown name hname
  simp only [Bool.not_eq_true', Bool.not_eq_false] at htarget
  obtain ⟨e, he, rfl⟩ := List.mem_map.1 (List.contains_iff_mem.1 htarget)
  obtain ⟨t, ht, rfl⟩ := List.mem_map.1 he
  exact ⟨t, List.mem_filter.2 ⟨ht, by rw [hne]; exact List.contains_iff_mem.2 hname⟩, rfl⟩

/-- A job for targets is made of the emitters of the selected ones. -/
theorem Job.ofTargets_standard {description output : Path} {names : List String}
    {overrides : List (String × Value)} {job : Job}
    (h : Job.ofTargets description output names overrides Emitter.standard .standard = .ok job) :
    job = ⟨description, output, overrides, (Target.selected names).map Target.emitter,
      .standard⟩ := by
  have hemitters : (Emitter.standard.filter fun e =>
      (if names.isEmpty then Emitter.standard.map (·.target) else names).contains e.target) =
        (Target.selected names).map Target.emitter := by
    cases names with
    | nil => rfl
    | cons name names =>
      rw [Emitter.standard, List.filter_map]
      rfl
  unfold Job.ofTargets at h
  dsimp only at h
  rw [hemitters] at h
  generalize Text.sortDistinct _ = unknown at h
  by_cases hunknown : (!unknown.isEmpty) = true
  · rw [if_pos hunknown] at h
    nomatch h
  · rw [if_neg hunknown] at h
    exact (Except.ok.inj h).symm

theorem Job.dirs_of_targets {description output : Path} {overrides : List (String × Value)}
    {ts : List Target} {table : ErrorTable} :
    (⟨description, output, overrides, ts.map Target.emitter, table⟩ : Job).dirs =
      ts.flatMap Target.dirs := by
  show (ts.map Target.emitter).flatMap (·.dirs) = _
  rw [List.flatMap_map]
  rfl

/-! ## What they emit -/

section

variable {m : Model} {o : Options} {ts : List Target} {files : List Source.File}

/-- What targets emit is what each of them emits. -/
theorem mem_emitEach {table : ErrorTable} (h : Target.emitEach m o table ts = .ok files) :
    (∀ t ∈ ts, ∃ own, t.emit m o table = .ok own ∧ own ⊆ files) ∧
      ∀ f ∈ files, ∃ t ∈ ts, ∃ own, t.emit m o table = .ok own ∧ f ∈ own := by
  induction ts generalizing files with
  | nil =>
    cases h
    exact ⟨fun _ h => (nomatch h), fun _ h => (nomatch h)⟩
  | cons t ts ih =>
    obtain ⟨own, hown, h⟩ := bind_eq_ok.1 h
    obtain ⟨others, hothers, h⟩ := bind_eq_ok.1 h
    cases h
    obtain ⟨hleft, hright⟩ := ih hothers
    refine ⟨List.forall_mem_cons.2 ⟨⟨own, hown, List.subset_append_left _ _⟩, fun u hu => ?_⟩,
      fun f hf => ?_⟩
    · obtain ⟨files, hfiles, hsub⟩ := hleft u hu
      exact ⟨files, hfiles, List.Subset.trans hsub (List.subset_append_right _ _)⟩
    · rcases List.mem_append.1 hf with hf | hf
      · exact ⟨t, List.mem_cons_self, own, hown, hf⟩
      · obtain ⟨u, hu, hrest⟩ := hright f hf
        exact ⟨u, List.mem_cons_of_mem _ hu, hrest⟩

theorem Rendered.put_fresh {r : Rendered} {rs : List Rendered}
    (h : r.target ∉ rs.map (·.target)) : Rendered.put r rs = rs ++ [r] := by
  induction rs with
  | nil => rfl
  | cons s rs ih =>
    obtain ⟨hs, hrs⟩ : r.target ≠ s.target ∧ r.target ∉ rs.map (·.target) :=
      not_or.1 fun hc => h (List.mem_cons.2 hc)
    have hs' : (s.target == r.target) = false := beq_false_of_ne (Ne.symm hs)
    rw [Rendered.put, hs', if_neg (by decide), ih hrs]
    rfl

variable (hm : m.WellFormed) (ho : o.Valid)
include hm ho

theorem render_target {t : Target} (h : t.emit m o .standard = .ok files) :
    t.emitter.render m o .standard = .ok files := by
  refine render_eq_ok.2 ⟨?_, Source.File.Tidy.checkPaths (Target.emit_tidy hm ho h).1⟩
  show (t.emit m o .standard).mapError _ = _
  rw [h]
  rfl

/-- The emitters of targets give what the targets emit. -/
theorem renderAll_of_ok (done : List Rendered) (hnodup : (ts.map Target.name).Nodup)
    (hfresh : ∀ t ∈ ts, t.name ∉ done.map (·.target))
    (h : Target.emitEach m o .standard ts = .ok files) :
    ∃ rendered, renderAll m o .standard (ts.map Target.emitter) done = .ok rendered ∧
      Delivery.allFiles rendered = Delivery.allFiles done ++ files := by
  induction ts generalizing done files with
  | nil =>
    cases h
    exact ⟨done, rfl, (List.append_nil _).symm⟩
  | cons t ts ih =>
    obtain ⟨ht, hts⟩ := List.forall_mem_cons.1 hfresh
    obtain ⟨hnotin, hnodup⟩ := List.nodup_cons.1 hnodup
    obtain ⟨own, hown, h⟩ := bind_eq_ok.1 h
    obtain ⟨others, hothers, h⟩ := bind_eq_ok.1 h
    cases h
    let r : Rendered := ⟨t.name, own⟩
    have hput : r.put done = done ++ [r] := Rendered.put_fresh ht
    have hfresh' : ∀ u ∈ ts, u.name ∉ (done ++ [r]).map (·.target) := by
      intro u hu hmem
      rw [List.map_append, List.mem_append] at hmem
      rcases hmem with hmem | hmem
      · exact hts u hu hmem
      · exact hnotin (List.mem_map.2 ⟨u, hu, List.mem_singleton.1 hmem⟩)
    obtain ⟨rendered, hrendered, hall⟩ := ih _ hnodup hfresh' hothers
    refine ⟨rendered, ?_, ?_⟩
    · rw [List.map_cons, renderAll, render_target hm ho hown]
      show renderAll _ _ _ _ (r.put done) = _
      rw [hput, hrendered]
    · rw [hall]
      simp [Delivery.allFiles, r]

/-- The emitters of targets stop where one of the targets does. -/
theorem renderAll_of_error (done : List Rendered) {obstacle : Obstacle}
    (h : Target.emitEach m o .standard ts = .error obstacle) :
    ∃ target, renderAll m o .standard (ts.map Target.emitter) done =
      .error (target, .broken target obstacle.message) := by
  induction ts generalizing done with
  | nil => nomatch h
  | cons t ts ih =>
    rcases bind_eq_error.1 h with h | ⟨own, hown, h⟩
    · have hrender : t.emitter.render m o .standard =
          .error (.broken t.name obstacle.message) := by
        unfold Emitter.render
        show ((t.emit m o .standard).mapError _).mapError _ >>= _ = _
        rw [h]
        rfl
      refine ⟨t.name, ?_⟩
      rw [List.map_cons, renderAll, hrender]
      rfl
    · rcases bind_eq_error.1 h with h | ⟨others, _, h⟩
      · rw [List.map_cons, renderAll, render_target hm ho hown]
        exact ih _ h
      · nomatch h

/-- The files of targets that lie apart are tidy and lie apart. -/
theorem emitEach_tidy (hapart : Target.Apart ts)
    (h : Target.emitEach m o .standard ts = .ok files) :
    (∀ f ∈ files, f.Tidy (ts.flatMap Target.dirs)) ∧ (files.map (·.names)).Nodup := by
  induction ts generalizing files with
  | nil =>
    cases h
    exact ⟨fun _ h => (nomatch h), List.nodup_nil⟩
  | cons t ts ih =>
    obtain ⟨own, hown, h⟩ := bind_eq_ok.1 h
    obtain ⟨others, hothers, h⟩ := bind_eq_ok.1 h
    cases h
    obtain ⟨htidy, hpaths⟩ := Target.emit_tidy hm ho hown
    obtain ⟨htidy', hnames'⟩ := ih hapart.tail hothers
    constructor
    · rintro f hf
      rcases List.mem_append.1 hf with hf | hf
      · exact (htidy f hf).mono fun d hd => List.mem_append_left _ hd
      · exact (htidy' f hf).mono fun d hd => List.mem_append_right _ hd
    · rw [List.map_append]
      refine List.nodup_append.2 ⟨?_, hnames', ?_⟩
      · refine List.Nodup.of_map (fun names => "/".intercalate names) ?_
        rw [List.map_map]
        rw [List.map_congr_left fun f hf => (htidy f hf).normal] at hpaths
        exact hpaths
      · rintro names hmem _ hmem' rfl
        obtain ⟨f, hf, rfl⟩ := List.mem_map.1 hmem
        obtain ⟨g, hg, heq⟩ := List.mem_map.1 hmem'
        obtain ⟨top, next, rest, hdeep, htop⟩ := (htidy f hf).deep
        obtain ⟨top', next', rest', hdeep', htop'⟩ := (htidy' g hg).deep
        rw [hdeep, hdeep'] at heq
        obtain ⟨rfl, _⟩ := List.cons.inj heq
        exact (List.nodup_append.1 hapart.dirs).2.2 _ htop _ htop' rfl

end

end Bindery
