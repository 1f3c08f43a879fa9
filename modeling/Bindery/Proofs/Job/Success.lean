/-
  A RUN THAT SUCCEEDS leaves exactly the files that were generated.

  Below each of its directories a run for targets leaves what the targets emit and nothing else,
  whatever was there before (`Exact`); the list that it gives is the list of these files.  All of
  this is told by what the targets emit, and nothing of it by what was there: so a second run finds
  everything as it leaves it.
-/
import Bindery.Proofs.Job.Failure
import Bindery.Proofs.Target.Selection

namespace Bindery

open Bindery.Tree

namespace Delivery

variable {home : Place} {output : Path} {dirs : List String} {files : List Source.File}
  {t t' base : Tree}

/-- `Exact home output dirs files t t' written` — below the directories there are exactly the files
with exactly their texts, and the list is that of their paths; all else is as it was in `t`, but for
directories that were made on the way to the output directory. -/
structure Exact (home : Place) (output : Path) (dirs : List String) (files : List Source.File)
    (t t' : Tree) (written : List Path) : Prop where
  /-- The output directory is there, in a tree to work in. -/
  closed : t'.Closed
  stands : t'.Stands home output
  file : ∀ d ∈ dirs, ∀ r text, t'.find? (output.placeOf home ++ d :: r) = some (.file text) ↔
    ∃ f ∈ files, f.names = d :: r ∧ f.text = text
  directory : ∀ d ∈ dirs, ∀ r, t'.find? (output.placeOf home ++ d :: r) = some .directory ↔
    r = [] ∨ ∃ f ∈ files, d :: r <+: f.names ∧ d :: r ≠ f.names
  elsewhere : ∀ q, (∀ d ∈ dirs, ¬output.placeOf home ++ [d] <+: q) →
    t'.find? q = t.find? q ∨
      output.Visits home q ∧ t.find? q = none ∧ t'.find? q = some .directory
  sorted : written.Pairwise fun p q => p.notAfter q = true
  nodup : written.Nodup
  listed : ∀ p, p ∈ written ↔ ∃ d ∈ dirs, ∃ r text, p = output.below (d :: r) ∧
    t'.find? (output.placeOf home ++ d :: r) = some (.file text)

/-- Of files with names of their own every one is there with its text. -/
theorem Delivered.file_iff {root : Place} (h : Delivered root dirs files base t)
    (hnodup : (files.map (·.names)).Nodup) {d : String} (hd : d ∈ dirs) (r : List String)
    (text : String) :
    t.find? (root ++ d :: r) = some (.file text) ↔
      ∃ f ∈ files, f.names = d :: r ∧ f.text = text := by
  constructor
  · exact h.ofFile d hd r text
  · rintro ⟨f, hf, hnames, rfl⟩
    obtain ⟨text, htext⟩ := h.there f hf (by
      rw [hnames, List.mem_map]
      exact ⟨d, hd, rfl⟩)
    rw [hnames] at htext
    obtain ⟨g, hg, hgnames, rfl⟩ := h.ofFile d hd r text htext
    rw [htext, List.inj_on_of_nodup_map hnodup hg hf (hgnames.trans hnames.symm)]

/-- What has been delivered stands in directories. -/
theorem Delivered.closed {root : Place} (h : Delivered root dirs files base t)
    (hclosed : base.Closed) (hroot : base.find? root = some .directory) : t.Closed := by
  intro q hq hthere
  by_cases hin : ∃ d ∈ dirs, root ++ [d] <+: q
  · obtain ⟨d, hd, r, rfl⟩ := hin
    rw [List.append_assoc, List.singleton_append] at hthere ⊢
    rcases List.eq_nil_or_concat r with rfl | ⟨front, last, rfl⟩
    · have hoff : ∀ d ∈ dirs, ¬root ++ [d] <+: root := fun d _ hp => absurd hp.length_le (by simp)
      rw [List.dropLast_concat, h.off root hoff, hroot]
    · rw [List.concat_eq_append, ← List.cons_append, ← List.append_assoc] at hthere ⊢
      rw [List.dropLast_concat]
      -- Below one of the directories everything leads to a file.
      have hleads : ∃ f ∈ files, d :: front ++ [last] <+: f.names := by
        obtain ⟨entry, hentry⟩ := Option.ne_none_iff_exists'.1 hthere
        rw [List.append_assoc, List.cons_append] at hentry
        cases entry with
        | file text =>
          obtain ⟨f, hf, hnames, _⟩ := h.ofFile d hd _ text hentry
          exact ⟨f, hf, by rw [hnames, List.cons_append]⟩
        | directory =>
          rcases (h.directory d hd _).1 hentry with hnil | ⟨f, hf, hp, _⟩
          · exact absurd hnil (by simp)
          · exact ⟨f, hf, hp⟩
      obtain ⟨f, hf, hp⟩ := hleads
      refine (h.directory d hd front).2 (Or.inr ⟨f, hf, (List.prefix_append _ _).trans hp, ?_⟩)
      intro heq
      rw [← heq] at hp
      exact absurd hp.length_le (by simp)
  · have hoff : ∀ {p : Place}, p <+: q → ∀ d ∈ dirs, ¬root ++ [d] <+: p :=
      fun hp d hd hpre => hin ⟨d, hd, hpre.trans hp⟩
    rw [h.off q (hoff List.prefix_rfl)] at hthere
    rw [h.off _ (hoff (List.dropLast_prefix q))]
    exact hclosed q hq hthere

theorem written_eq {rendered : List Rendered}
    (htidy : ∀ f ∈ allFiles rendered, f.Tidy dirs) :
    written output rendered = Path.sort ((allFiles rendered).map fun f => output.below f.names) := by
  have hmap : (rendered.flatMap fun r => r.files.map fun (f : Source.File) => output.child f.path) =
      (allFiles rendered).map fun f => output.child f.path := by
    unfold allFiles
    rw [List.map_flatMap]
  rw [written, hmap]
  refine congrArg Path.sort (List.map_congr_left fun f hf => ?_)
  exact Path.child_eq_below (htidy f hf).proper.relative

/-- What has been delivered is exact, where the files are tidy and have names of their own. -/
theorem exact_of_delivered {rendered : List Rendered} (hmade : Made home output t base)
    (hclosed : base.Closed)
    (havoid : ∀ d ∈ dirs, output.Avoids home (output.placeOf home ++ [d]))
    (h : Delivered (output.placeOf home) dirs (allFiles rendered) base t')
    (htidy : ∀ f ∈ allFiles rendered, f.Tidy dirs)
    (hnodup : ((allFiles rendered).map (·.names)).Nodup) :
    Exact home output dirs (allFiles rendered) t t' (written output rendered) := by
  refine ⟨h.closed hclosed hmade.stands.place, fun q hq => ?_,
    fun d hd => h.file_iff hnodup hd, h.directory, fun q hq => ?_, ?_, ?_, fun p => ?_⟩
  · rw [h.off q fun d hd => havoid d hd q hq]
    exact hmade.stands q hq
  · rw [h.off q hq]
    exact hmade.way q
  · exact Path.pairwise_sort _
  · rw [written_eq htidy]
    refine Path.nodup_sort ?_
    have hinj : Function.Injective fun names : List String => output.below names := by
      intro names names' heq
      exact List.append_cancel_left (congrArg Path.names heq)
    have hmap : (allFiles rendered).map (fun f => output.below f.names) =
        ((allFiles rendered).map (·.names)).map fun names => output.below names := by
      rw [List.map_map]
      rfl
    rw [hmap]
    exact hnodup.map hinj
  · rw [written_eq htidy, Path.mem_sort, List.mem_map]
    constructor
    · rintro ⟨f, hf, rfl⟩
      obtain ⟨top, next, rest, hnames, htop⟩ := (htidy f hf).deep
      refine ⟨top, htop, next :: rest, f.text, by rw [hnames], ?_⟩
      exact (h.file_iff hnodup htop _ _).2 ⟨f, hf, hnames, rfl⟩
    · rintro ⟨d, hd, r, text, rfl, hfile⟩
      obtain ⟨f, hf, hnames, _⟩ := (h.file_iff hnodup hd r text).1 hfile
      exact ⟨f, hf, by rw [hnames]⟩

/-! ## The same from everywhere -/

variable {t₁ t₁' t₂ t₂' : Tree} {written₁ written₂ : List Path}

/-- What exact deliveries leave below the directories, and what they list, is told by the files. -/
theorem Exact.same (h₁ : Exact home output dirs files t₁ t₁' written₁)
    (h₂ : Exact home output dirs files t₂ t₂' written₂) :
    (∀ d ∈ dirs, ∀ r, t₁'.find? (output.placeOf home ++ d :: r) =
      t₂'.find? (output.placeOf home ++ d :: r)) ∧ written₁ = written₂ := by
  have hfind : ∀ d ∈ dirs, ∀ r, t₁'.find? (output.placeOf home ++ d :: r) =
      t₂'.find? (output.placeOf home ++ d :: r) := by
    intro d hd r
    refine Option.ext fun entry => ?_
    cases entry with
    | file text => exact (h₁.file d hd r text).trans (h₂.file d hd r text).symm
    | directory => exact (h₁.directory d hd r).trans (h₂.directory d hd r).symm
  refine ⟨hfind, ?_⟩
  -- Both lists are sorted and free of repetitions, so they agree once they list the same paths.
  have hmem : ∀ p, p ∈ written₁ ↔ p ∈ written₂ := by
    intro p
    rw [h₁.listed, h₂.listed]
    constructor
    · rintro ⟨d, hd, r, text, hp, hfile⟩
      exact ⟨d, hd, r, text, hp, by rw [← hfind d hd, hfile]⟩
    · rintro ⟨d, hd, r, text, hp, hfile⟩
      exact ⟨d, hd, r, text, hp, by rw [hfind d hd, hfile]⟩
  have hperm : written₁.Perm written₂ := (List.perm_ext_iff_of_nodup h₁.nodup h₂.nodup).2 hmem
  refine hperm.eq_of_pairwise (fun p q hp hq hpq hqp => ?_) h₁.sorted h₂.sorted
  obtain ⟨d, _, r, _, rfl, _⟩ := (h₁.listed p).1 hp
  obtain ⟨d', _, r', _, rfl, _⟩ := (h₂.listed q).1 hq
  have hparts : (output.below (d :: r)).parts = (output.below (d' :: r')).parts :=
    List.le_antisymm (Path.notAfter_iff.1 hpq) (Path.notAfter_iff.1 hqp)
  unfold Path.parts Path.below at hparts
  dsimp only at hparts
  have hnames : output.names ++ d :: r = output.names ++ d' :: r' := by
    split at hparts
    · exact hparts
    · exact (List.cons.inj hparts).2
  unfold Path.below
  rw [hnames]

/-- After an exact delivery there is nothing left to make. -/
theorem Exact.unmade (h : Exact home output dirs files t₁ t₁' written₁)
    (hway : t₁'.WayMade home output t₂) (q : Place) : t₂.find? q = t₁'.find? q := by
  rcases hway q with hsame | ⟨hq, hnone, _⟩
  · exact hsame
  · rw [h.stands q hq] at hnone
    nomatch hnone

/-- Delivering the same once more changes nothing. -/
theorem Exact.again (h : Exact home output dirs files t₁ t₁' written₁)
    (h' : Exact home output dirs files t₁' t₂' written₂) (q : Place) :
    t₂'.find? q = t₁'.find? q := by
  by_cases hin : ∃ d ∈ dirs, output.placeOf home ++ [d] <+: q
  · obtain ⟨d, hd, r, rfl⟩ := hin
    have hsame := (h'.same h).1 d hd r
    rw [List.append_assoc, List.singleton_append]
    exact hsame
  · rcases h'.elsewhere q fun d hd hp => hin ⟨d, hd, hp⟩ with hsame | ⟨hq, hnone, _⟩
    · exact hsame
    · rw [h.stands q hq] at hnone
      nomatch hnone

end Delivery

end Bindery
