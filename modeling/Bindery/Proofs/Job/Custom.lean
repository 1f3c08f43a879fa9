/-
  WHAT A RUN DELIVERS of what emitters give, whoever they are.

  Emitters may share a target, and may list their directories as they like.  Of several emitters with
  one target the last takes the place of the others (`mem_renderAll`), and a directory that is listed
  twice is swapped twice.  So a run that succeeds leaves a file at its place just if no emitter of its
  target comes later and one entry alone leads to it; and it lists the file whether it is there or
  not (`run_delivers`).
-/
import Bindery.Proofs.Job.Failure
import Bindery.Proofs.Job.Whereabouts

namespace Bindery

open Bindery.Tree

/-! ## Emitters with one target -/

/-- The files that an emitter gives, none if it stops. -/
def Emitter.given (e : Emitter) (model : Model) (options : Options) (table : ErrorTable) :
    List Source.File :=
  match e.emit model options table with
  | .ok files => files
  | .error _ => []

/-- `Latest es e back` — the emitter is one of the list, and no emitter behind it has its target. -/
structure Latest (es : List Emitter) (e : Emitter) (back : List Emitter) : Prop where
  behind : ∃ front, es = front ++ e :: back
  last : ∀ e' ∈ back, e'.target ≠ e.target

variable {model : Model} {options : Options} {table : ErrorTable} {e : Emitter} {es back : List Emitter}
  {done rendered : List Rendered} {file : Source.File}

theorem Emitter.given_of_render {files : List Source.File}
    (h : e.render model options table = .ok files) : e.given model options table = files := by
  unfold Emitter.given
  rw [(render_eq_ok.1 h).1]

namespace Rendered

variable {r g : Rendered} {rs : List Rendered}

theorem targets_put (r : Rendered) (rs : List Rendered) :
    (put r rs).map (·.target) =
      if r.target ∈ rs.map (·.target) then rs.map (·.target)
      else rs.map (·.target) ++ [r.target] := by
  induction rs with
  | nil => rfl
  | cons s rs ih =>
    rw [put]
    by_cases hs : s.target = r.target
    · rw [hs, beq_self_eq_true, if_pos rfl, List.map_cons, List.map_cons, hs,
        if_pos List.mem_cons_self]
    · rw [beq_false_of_ne hs, if_neg (by decide), List.map_cons, ih, List.map_cons]
      simp only [List.mem_cons, Ne.symm hs, false_or]
      split
      · rfl
      · rfl

theorem nodup_put (h : (rs.map (·.target)).Nodup) : ((put r rs).map (·.target)).Nodup := by
  rw [targets_put]
  split
  · exact h
  · rename_i hfresh
    exact Delivery.nodup_concat h hfresh

/-- What is put in a list takes the place of what has its target. -/
theorem mem_put_iff (h : (rs.map (·.target)).Nodup) :
    g ∈ put r rs ↔ g = r ∨ g ∈ rs ∧ g.target ≠ r.target := by
  induction rs with
  | nil => simp [put]
  | cons s rs ih =>
    obtain ⟨hs, hrs⟩ := List.nodup_cons.1 h
    rw [put]
    by_cases hsr : s.target = r.target
    · have hother : ∀ g ∈ rs, g.target ≠ r.target := by
        intro g hg heq
        exact hs (List.mem_map.2 ⟨g, hg, heq.trans hsr.symm⟩)
      rw [hsr, beq_self_eq_true, if_pos rfl, List.mem_cons, List.mem_cons]
      constructor
      · exact Or.imp_right fun hg => ⟨Or.inr hg, hother g hg⟩
      · rintro (hg | ⟨rfl | hg, hne⟩)
        · exact Or.inl hg
        · exact absurd hsr hne
        · exact Or.inr hg
    · rw [beq_false_of_ne hsr, if_neg (by decide), List.mem_cons, List.mem_cons, ih hrs]
      constructor
      · rintro (rfl | hg | ⟨hg, hne⟩)
        · exact Or.inr ⟨Or.inl rfl, hsr⟩
        · exact Or.inl hg
        · exact Or.inr ⟨Or.inr hg, hne⟩
      · rintro (hg | ⟨rfl | hg, hne⟩)
        · exact Or.inr (Or.inl hg)
        · exact Or.inl rfl
        · exact Or.inr (Or.inr ⟨hg, hne⟩)

end Rendered

theorem latest_cons {e' : Emitter} :
    Latest (e :: es) e' back ↔
      e' = e ∧ back = es ∧ (∀ e'' ∈ es, e''.target ≠ e.target) ∨ Latest es e' back := by
  constructor
  · rintro ⟨⟨front, hsplit⟩, hlast⟩
    cases front with
    | nil =>
      obtain ⟨rfl, rfl⟩ := List.cons.inj hsplit
      exact Or.inl ⟨rfl, rfl, hlast⟩
    | cons _ front => exact Or.inr ⟨⟨front, (List.cons.inj hsplit).2⟩, hlast⟩
  · rintro (⟨rfl, rfl, hlast⟩ | ⟨⟨front, rfl⟩, hlast⟩)
    · exact ⟨⟨[], rfl⟩, hlast⟩
    · exact ⟨⟨e :: front, rfl⟩, hlast⟩

/-- What is generated is what the last emitter of each target gives. -/
theorem mem_renderAll (h : renderAll model options table es done = .ok rendered)
    (hdone : (done.map (·.target)).Nodup) {r : Rendered} :
    r ∈ rendered ↔
      (∃ e back, Latest es e back ∧ r = ⟨e.target, e.given model options table⟩) ∨
        r ∈ done ∧ ∀ e ∈ es, e.target ≠ r.target := by
  induction es generalizing done with
  | nil =>
    cases h
    refine ⟨fun hr => Or.inr ⟨hr, fun _ he => absurd he List.not_mem_nil⟩, ?_⟩
    rintro (⟨e, back, ⟨⟨front, hsplit⟩, _⟩, _⟩ | ⟨hr, _⟩)
    · exact absurd hsplit (by simp)
    · exact hr
  | cons e es ih =>
    unfold renderAll at h
    cases hrender : e.render model options table with
    | error fault =>
      rw [hrender] at h
      cases h
    | ok files =>
      rw [hrender] at h
      have hgiven := Emitter.given_of_render hrender
      rw [ih h (Rendered.nodup_put hdone), Rendered.mem_put_iff hdone]
      constructor
      · rintro (⟨e', back, hlatest, hr⟩ | ⟨rfl | ⟨hr, hne⟩, hes⟩)
        · exact Or.inl ⟨e', back, latest_cons.2 (Or.inr hlatest), hr⟩
        · exact Or.inl ⟨e, es, latest_cons.2 (Or.inl ⟨rfl, rfl, hes⟩), by rw [hgiven]⟩
        · exact Or.inr ⟨hr, List.forall_mem_cons.2 ⟨Ne.symm hne, hes⟩⟩
      · rintro (⟨e', back, hlatest, hr⟩ | ⟨hr, hes⟩)
        · rcases latest_cons.1 hlatest with ⟨rfl, rfl, hlast⟩ | hlatest
          · rw [hgiven] at hr
            exact Or.inr ⟨Or.inl hr, by rw [hr]; exact hlast⟩
          · exact Or.inl ⟨e', back, hlatest, hr⟩
        · obtain ⟨hne, hes⟩ := List.forall_mem_cons.1 hes
          exact Or.inr ⟨Or.inr ⟨hr, Ne.symm hne⟩, hes⟩

theorem mem_allFiles_iff (h : renderAll model options table es [] = .ok rendered) :
    file ∈ Delivery.allFiles rendered ↔
      ∃ e back, Latest es e back ∧ file ∈ e.given model options table := by
  rw [Delivery.allFiles, List.mem_flatMap]
  constructor
  · rintro ⟨r, hr, hfile⟩
    rcases (mem_renderAll h List.nodup_nil).1 hr with ⟨e, back, hlatest, rfl⟩ | ⟨hr, _⟩
    · exact ⟨e, back, hlatest, hfile⟩
    · nomatch hr
  · rintro ⟨e, back, hlatest, hfile⟩
    exact ⟨_, (mem_renderAll h List.nodup_nil).2 (Or.inl ⟨e, back, hlatest, rfl⟩), hfile⟩

/-- Every file that is given has been checked, whether it is kept or not. -/
theorem checked_of_renderAll (h : renderAll model options table es done = .ok rendered) :
    ∀ e ∈ es, ∀ file ∈ e.given model options table,
      file.Proper ∧ file.names.head? ∈ e.dirs.map some := by
  induction es generalizing done with
  | nil => exact fun _ h => absurd h List.not_mem_nil
  | cons e es ih =>
    unfold renderAll at h
    cases hrender : e.render model options table with
    | error fault =>
      rw [hrender] at h
      cases h
    | ok files =>
      rw [hrender] at h
      refine List.forall_mem_cons.2 ⟨?_, ih h⟩
      rw [Emitter.given_of_render hrender]
      exact proper_of_checkPaths (render_eq_ok.1 hrender).2

/-! ## Names of their own -/

section

variable {α β γ : Type} {given : α → List β} {key : β → γ} {front front' back back' : List α}
  {a a' : α} {x y : β}

/-- Where keys are given once only, what is given later has another key. -/
theorem key_ne_of_later (h : (((front ++ a :: back).flatMap given).map key).Nodup)
    (hx : x ∈ given a) (hy : y ∈ back.flatMap given) : key x ≠ key y := by
  rw [List.flatMap_append, List.flatMap_cons, List.map_append, List.map_append] at h
  have hapart := (List.nodup_append.1 (List.nodup_append.1 h).2.1).2.2
  exact hapart _ (List.mem_map.2 ⟨x, hx, rfl⟩) _ (List.mem_map.2 ⟨y, hy, rfl⟩)

/-- So a key tells where it is given. -/
theorem split_eq_of_key (h : (((front ++ a :: back).flatMap given).map key).Nodup)
    (hsplit : front ++ a :: back = front' ++ a' :: back') (hx : x ∈ given a) (hy : y ∈ given a')
    (hkey : key x = key y) : a = a' ∧ back = back' := by
  rcases List.append_eq_append_iff.1 hsplit with ⟨between, _, hback⟩ | ⟨between, _, hback⟩
  · cases between with
    | nil => exact List.cons.inj hback
    | cons b between =>
      have hlater : y ∈ back.flatMap given := by
        rw [(List.cons.inj hback).2]
        exact List.mem_flatMap.2 ⟨a', by simp, hy⟩
      exact absurd hkey (key_ne_of_later h hx hlater)
  · cases between with
    | nil =>
      obtain ⟨rfl, rfl⟩ := List.cons.inj hback
      exact ⟨rfl, rfl⟩
    | cons b between =>
      have hlater : x ∈ back'.flatMap given := by
        rw [(List.cons.inj hback).2]
        exact List.mem_flatMap.2 ⟨a, by simp, hx⟩
      rw [hsplit] at h
      exact absurd hkey.symm (key_ne_of_later h hy hlater)

end

/-- Of files with names of their own, the one is generated that no later emitter drops. -/
theorem kept_iff (h : renderAll model options table es [] = .ok rendered)
    (hnodup : ((es.flatMap (·.given model options table)).map (·.names)).Nodup)
    {front : List Emitter} (hsplit : es = front ++ e :: back)
    (hfile : file ∈ e.given model options table) {g : Source.File} (hnames : g.names = file.names) :
    g ∈ Delivery.allFiles rendered ↔ g = file ∧ ∀ e' ∈ back, e'.target ≠ e.target := by
  have hmem : ∀ {e' : Emitter}, e' ∈ es → ∀ {f}, f ∈ e'.given model options table →
      f ∈ es.flatMap (·.given model options table) := fun he' _ hf =>
    List.mem_flatMap.2 ⟨_, he', hf⟩
  rw [mem_allFiles_iff h]
  constructor
  · rintro ⟨e', back', ⟨⟨front', hsplit'⟩, hlast⟩, hg⟩
    have he : e ∈ es := by rw [hsplit]; simp
    have he' : e' ∈ es := by rw [hsplit']; simp
    refine ⟨List.inj_on_of_nodup_map hnodup (hmem he' hg) (hmem he hfile) hnames, ?_⟩
    rw [hsplit] at hnodup
    obtain ⟨rfl, rfl⟩ := split_eq_of_key hnodup (hsplit.symm.trans hsplit') hfile hg hnames.symm
    exact hlast
  · rintro ⟨rfl, hlast⟩
    exact ⟨e, back, ⟨⟨front, hsplit⟩, hlast⟩, hfile⟩

/-! ## Runs -/

namespace Delivery

theorem mem_written {output p : Path} :
    p ∈ written output rendered ↔ ∃ f ∈ allFiles rendered, output.child f.path = p := by
  rw [written, Path.mem_sort, allFiles]
  simp only [List.mem_flatMap, List.mem_map]
  constructor
  · rintro ⟨r, hr, f, hf, rfl⟩
    exact ⟨f, ⟨r, hr, hf⟩, rfl⟩
  · rintro ⟨f, ⟨r, hr, hf⟩, rfl⟩
    exact ⟨r, hr, f, hf, rfl⟩

/-- A file of names of its own is listed just if no later emitter drops it. -/
theorem listed_iff {output : Path} (h : renderAll model options table es [] = .ok rendered)
    (hnodup : ((es.flatMap (·.given model options table)).map (·.names)).Nodup)
    {front : List Emitter} (hsplit : es = front ++ e :: back)
    (hfile : file ∈ e.given model options table) :
    output.child file.path ∈ written output rendered ↔ ∀ e' ∈ back, e'.target ≠ e.target := by
  have hrelative : ∀ e' ∈ es, ∀ g ∈ e'.given model options table,
      (Path.ofString g.path).isAbsolute = false := fun e' he' g hg =>
    (checked_of_renderAll h e' he' g hg).1.relative
  rw [mem_written]
  constructor
  · rintro ⟨g, hg, hpath⟩
    obtain ⟨e', back', ⟨⟨front', hsplit'⟩, _⟩, hg'⟩ := (mem_allFiles_iff h).1 hg
    rw [Path.child_eq_below (hrelative e' (by rw [hsplit']; simp) g hg'),
      Path.child_eq_below (hrelative e (by rw [hsplit]; simp) file hfile)] at hpath
    have hnames : g.names = file.names := List.append_cancel_left (congrArg Path.names hpath)
    exact ((kept_iff h hnodup hsplit hfile hnames).1 hg).2
  · exact fun hlast => ⟨file, (kept_iff h hnodup hsplit hfile rfl).2 ⟨rfl, hlast⟩, rfl⟩

/-- A file that has been checked is led to by the directory that its path starts with, and lies in no
scratch directory. -/
theorem led_of_checked {dirs : List String} (hproper : file.Proper)
    (hhead : file.names.head? ∈ dirs.map some) (hinside : ∀ entry ∈ dirs, Inside entry) :
    (∃ entry ∈ dirs, leads file.names entry = true) ∧
      ∀ k, file.names.head? ≠ some (scratchName k) := by
  obtain ⟨top, next, rest, hnames⟩ := hproper.deep
  rw [hnames, List.head?_cons, List.mem_map] at hhead
  obtain ⟨_, htop, ⟨⟩⟩ := hhead
  have hmem : top ∈ file.names := by
    rw [hnames]
    exact List.mem_cons_self
  have hof : Path.ofString top = ⟨.here, [top]⟩ := Path.ofString_of_mem hmem
  have hlead := Path.lead?_of_name hof (hproper.downward top hmem)
  refine ⟨⟨top, htop, ?_⟩, fun k => ?_⟩
  · rw [leads, Path.leadsTo_iff hlead, hnames]
    exact (List.prefix_cons_inj top).2 List.nil_prefix
  · rw [hnames]
    rcases hinside top htop with habsolute | ⟨lead, hlead', hapart⟩
    · rw [hof] at habsolute
      nomatch habsolute
    · rw [hlead] at hlead'
      cases hlead'
      exact hapart k

end Delivery

namespace Job

theorem renderAll_of_emitAt [MarkupReader] {job : Job} {t : Tree} {home : Place} {p : Progress}
    (hsource : job.sourceAt t home p = .ok (model, options))
    (h : job.emitAt t home p = .ok rendered) :
    renderAll model options job.table job.emitters [] = .ok rendered := by
  unfold emitAt at h
  rw [hsource] at h
  exact mapError_eq_ok.1 h

/-- Where the files have names of their own and every entry stays inside the output directory, a run
that succeeds leaves a file at its place, with its text, just if no later emitter has the target and
one entry alone leads to the file.  It lists the file in either case, if only no later emitter has the
target. -/
theorem run_delivers [MarkupReader] (job : Job) (p : Progress) (w : World)
    (hsound : w.tree.Sound w.home job.output) (hdisk : w.failures.OfDisk)
    (hinside : ∀ entry ∈ job.dirs, Delivery.Inside entry)
    (hsource : job.sourceAt w.tree w.home p = .ok (model, options))
    (hnodup : ((job.emitters.flatMap (·.given model options job.table)).map (·.names)).Nodup)
    {paths : List Path} (hrun : (job.runIn p w).1.1 = .ok paths) {front : List Emitter}
    (hsplit : job.emitters = front ++ e :: back)
    (hfile : file ∈ e.given model options job.table) :
    (∀ text, (job.runIn p w).2.tree.find? (job.output.placeOf w.home ++ file.names) =
        some (.file text) ↔
      text = file.text ∧ (∀ e' ∈ back, e'.target ≠ e.target) ∧
        job.dirs.countP (Delivery.leads file.names) = 1) ∧
    (job.output.child file.path ∈ paths ↔ ∀ e' ∈ back, e'.target ≠ e.target) := by
  have he : e ∈ job.emitters := by
    rw [hsplit]
    simp
  have hends : Ends _ _ (job.runIn p w).1 (job.runIn p w).2.tree :=
    (Job.runs_run fun rendered (hemit : job.emitAt w.tree w.home p = .ok rendered) => by
      have hrender := renderAll_of_emitAt hsource hemit
      have hchecked := checked_of_renderAll hrender e he file hfile
      have hhead : file.names.head? ∈ job.dirs.map some := by
        obtain ⟨d, hd, hhead⟩ := List.mem_map.1 hchecked.2
        exact List.mem_map.2 ⟨d, List.mem_flatMap.2 ⟨e, he, hd⟩, hhead⟩
      obtain ⟨hled, hapart⟩ := Delivery.led_of_checked hchecked.1 hhead hinside
      refine Delivery.whereabouts_deliver hdisk (proper_of_emitAt hemit) ?_ hinside hapart
        (List.countP_pos_iff.2 hled) hsound
      intro f hf g hg hnames
      obtain ⟨e', back', ⟨⟨front', hsplit'⟩, _⟩, hg'⟩ := (mem_allFiles_iff hrender).1 hg
      rw [((kept_iff hrender hnodup hsplit' hg' hnames).1 hf).1]).elim ⟨rfl, rfl, rfl⟩
  rcases hpair : (job.runIn p w).1 with ⟨r, p'⟩
  rw [hpair] at hrun hends
  obtain rfl : r = .ok paths := hrun
  obtain ⟨_, rendered, hemit, rfl, hview⟩ := hends
  have hrender := renderAll_of_emitAt hsource hemit
  refine ⟨fun text => ?_, Delivery.listed_iff hrender hnodup hsplit hfile⟩
  rw [hview text]
  constructor
  · rintro ⟨hone, g, hg, hnames, rfl⟩
    obtain ⟨rfl, hlast⟩ := (kept_iff hrender hnodup hsplit hfile hnames).1 hg
    exact ⟨rfl, hlast, hone⟩
  · rintro ⟨rfl, hlast, hone⟩
    exact ⟨hone, file, (kept_iff hrender hnodup hsplit hfile rfl).2 ⟨rfl, hlast⟩, rfl, rfl⟩

/-- A job whose emitters share a target; the second of them lists a directory twice. -/
def carelessJob : Job where
  description := .ofString "a.idl"
  output := .ofString "out"
  overrides := []
  emitters :=
    [⟨"t", ["c"], fun _ _ _ => .ok [⟨"c/z", "3", true⟩]⟩,
      ⟨"t", ["a", "b", "b"], fun _ _ _ => .ok [⟨"a/x", "1", true⟩, ⟨"b/y", "2", true⟩]⟩]
  table := .standard

/-- One file arrives, one is listed and gone, one is dropped. -/
theorem run_delivers_careless :
    ∃ paths, (carelessJob.runIn .start (.ofTree sampleTree ["w"])).1.1 = .ok paths ∧
      (carelessJob.runIn .start (.ofTree sampleTree ["w"])).2.tree.find? ["w", "out", "a", "x"] =
        some (.file "1") ∧
      ((∀ text, (carelessJob.runIn .start (.ofTree sampleTree ["w"])).2.tree.find?
          ["w", "out", "b", "y"] ≠ some (.file text)) ∧
        (Path.ofString "out").child "b/y" ∈ paths) ∧
      (∀ text, (carelessJob.runIn .start (.ofTree sampleTree ["w"])).2.tree.find?
          ["w", "out", "c", "z"] ≠ some (.file text)) ∧
        (Path.ofString "out").child "c/z" ∉ paths := by
  have hloads : (Description.loadAt sampleTree ["w"] (.ofString "a.idl") []).isOk = true := by
    decide +kernel
  have hruns : (carelessJob.runIn .start (.ofTree sampleTree ["w"])).1.1.isOk = true := by
    decide +kernel
  obtain ⟨⟨model, options⟩, hloaded⟩ := exists_eq_ok hloads
  obtain ⟨paths, hrun⟩ := exists_eq_ok hruns
  have hsource : carelessJob.sourceAt sampleTree ["w"] .start = .ok (model, options) := hloaded
  have hname : ∀ entry ∈ carelessJob.dirs, (Path.ofString entry).lead? = some [entry] ∧
      entry.toList.head? ≠ some '.' := by decide
  have hinside : ∀ entry ∈ carelessJob.dirs, Delivery.Inside entry := by
    intro entry hentry
    obtain ⟨hlead, hdot⟩ := hname entry hentry
    exact Or.inr ⟨[entry], hlead, fun k heq => ne_scratchName hdot k (Option.some.inj heq)⟩
  -- Neither what is given nor where it lies depends on what was loaded.
  have hnodup : ((carelessJob.emitters.flatMap
      (·.given model options carelessJob.table)).map (·.names)).Nodup := by
    show (([⟨"c/z", "3", true⟩, ⟨"a/x", "1", true⟩, ⟨"b/y", "2", true⟩] : List Source.File).map
      (·.names)).Nodup
    decide
  have hdelivers : ∀ front {e back} file, carelessJob.emitters = front ++ e :: back →
      file ∈ e.given model options carelessJob.table → _ := fun _ _ _ _ hsplit hfile =>
    run_delivers carelessJob .start (.ofTree sampleTree ["w"]) (sampleTree_sound (by decide))
      (fun _ _ h => (nomatch h)) hinside hsource hnodup hrun hsplit hfile
  have hx := hdelivers [_] ⟨"a/x", "1", true⟩ rfl List.mem_cons_self
  have hy := hdelivers [_] ⟨"b/y", "2", true⟩ rfl (List.mem_cons_of_mem _ List.mem_cons_self)
  have hz := hdelivers [] ⟨"c/z", "3", true⟩ rfl List.mem_cons_self
  refine ⟨paths, hrun, (hx.1 "1").2 ⟨rfl, fun _ h => (nomatch h), by decide⟩,
    ⟨fun text hfile => ?_, hy.2.2 fun _ h => (nomatch h)⟩, fun text hfile => ?_, fun hlisted => ?_⟩
  · exact absurd ((hy.1 text).1 hfile).2.2 (by decide)
  · exact ((hz.1 text).1 hfile).2.1 _ List.mem_cons_self rfl
  · exact hz.2.1 hlisted _ List.mem_cons_self rfl

end Job

end Bindery
