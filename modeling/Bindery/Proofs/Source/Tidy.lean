/-
  TIDY PATHS: what the path of a generated file leads to.

  A tidy path is written as its names with slashes between them, and each of the names is the name
  of one thing.  So the names tell the path and the path the names, and two files with different
  paths never meet.
-/
import Bindery.Proofs.Job.Unhindered
import Bindery.Proofs.Naming.Symbols

namespace Bindery

/-! ## Names -/

theorem IsComponent.of_mem {name : String} {c : Char}
    (hclear : ∀ d ∈ name.toList, d ≠ '/' ∧ d ≠ '\x00') (hc : c ∈ name.toList) (hdot : c ≠ '.') :
    IsComponent name := by
  have hdots : ∀ dots : String, dots.toList.all (· == '.') = true → name ≠ dots := by
    rintro _ h rfl
    exact hdot (beq_iff_eq.1 (List.all_eq_true.1 h c hc))
  refine ⟨hdots "" (by decide), hdots "." (by decide), hdots Tree.upName (by decide), ?_, ?_⟩
  · exact fun h => (hclear _ h).1 rfl
  · exact fun h => (hclear _ h).2 rfl

theorem Wordy.clear {s : List Char} (h : Wordy s) : ∀ d ∈ s, d ≠ '/' ∧ d ≠ '\x00' := by
  intro d hd
  constructor
  · rintro rfl
    exact h.notMem (by decide) hd
  · rintro rfl
    exact h.notMem (by decide) hd

theorem Wordy.component {name : String} (h : Wordy name.toList) (hne : name ≠ "") :
    IsComponent name := by
  cases hname : name.toList with
  | nil => exact absurd (String.toList_eq_nil_iff.1 hname) hne
  | cons c s =>
    have hc : c ∈ name.toList := by
      rw [hname]
      exact List.mem_cons_self
    refine IsComponent.of_mem h.clear hc ?_
    rintro rfl
    exact h.notMem (by decide) hc

/-- A word with an ending. -/
theorem Wordy.component_append {name ending : String} (h : Wordy name.toList)
    (hclear : ∀ d ∈ ending.toList, d ≠ '/' ∧ d ≠ '\x00') {c : Char} (hc : c ∈ ending.toList)
    (hdot : c ≠ '.') : IsComponent (name ++ ending) := by
  have hmem : ∀ d, d ∈ (name ++ ending).toList ↔ d ∈ name.toList ∨ d ∈ ending.toList := by
    intro d
    rw [String.toList_append, List.mem_append]
  refine IsComponent.of_mem (fun d hd => ?_) ((hmem c).2 (Or.inr hc)) hdot
  exact ((hmem d).1 hd).elim (h.clear d) (hclear d)

/-! ## Paths of names -/

namespace Path

theorem splitOn_append {c : Char} {front : List Char} (h : c ∉ front) (back : List Char) :
    Text.splitOn c (front ++ c :: back) = front :: Text.splitOn c back := by
  unfold Text.splitOn
  induction front with
  | nil =>
    rw [List.nil_append, Text.splitWhere, beq_self_eq_true, if_pos rfl]
  | cons d front ih =>
    obtain ⟨hd, hfront⟩ : c ≠ d ∧ c ∉ front := not_or.1 fun hc => h (List.mem_cons.2 hc)
    have hd' : (d == c) = false := beq_false_of_ne (Ne.symm hd)
    rw [List.cons_append, Text.splitWhere, hd', if_neg (by decide), ih hfront]

/-- The names of a path that starts with a name. -/
theorem ofString_cons {name : String} (h : IsComponent name) (rest : String) :
    ofString (name ++ "/" ++ rest) = ⟨.here, name :: (ofString rest).names⟩ := by
  have hlist : (name ++ "/" ++ rest).toList = name.toList ++ '/' :: rest.toList := by
    simp [String.toList_append]
  have hne : name.toList ≠ [] := fun hnil => h.nonempty (String.toList_eq_nil_iff.1 hnil)
  have hanchor : anchorOf (name.toList ++ '/' :: rest.toList) = .here := by
    refine anchorOf_of_head fun hhead => h.noSlash ?_
    rw [List.head?_append_of_ne_nil _ hne] at hhead
    exact List.mem_of_mem_head? hhead
  rw [ofString, hlist, hanchor, splitOn_append h.noSlash,
    List.filter_cons_of_pos (isName_toList h.nonempty h.notHere)]
  simp [ofString]

/-- A text of names with slashes between them is the path of these names. -/
theorem ofString_intercalate {names : List String} (hne : names ≠ [])
    (h : ∀ name ∈ names, IsComponent name) :
    ofString ("/".intercalate names) = ⟨.here, names⟩ := by
  induction names with
  | nil => exact absurd rfl hne
  | cons name names ih =>
    obtain ⟨hname, hnames⟩ := List.forall_mem_cons.1 h
    cases names with
    | nil =>
      rw [String.intercalate_singleton]
      exact hname.ofString
    | cons next names =>
      rw [String.intercalate_cons_cons, ofString_cons hname, ih (by simp) hnames]

end Path

/-! ## Tidy files -/

/-- `f.Tidy dirs` — the path of the file is written in normal form and leads through one of the
directories to something below it.  Its last name has an ending, and no other has. -/
structure Source.File.Tidy (f : Source.File) (dirs : List String) : Prop where
  here : Path.ofString f.path = ⟨.here, f.names⟩
  normal : f.path = "/".intercalate f.names
  component : ∀ name ∈ f.names, IsComponent name
  inner : ∀ name ∈ f.names.dropLast, '.' ∉ name.toList
  ending : ∀ name ∈ f.names.getLast?, '.' ∈ name.toList
  deep : ∃ top next rest, f.names = top :: next :: rest ∧ top ∈ dirs

namespace Source.File.Tidy

variable {f g : Source.File} {dirs : List String}

theorem of_names (top next : String) (rest : List String)
    (hpath : f.path = "/".intercalate (top :: next :: rest)) (htop : top ∈ dirs)
    (h : ∀ name ∈ top :: next :: rest, IsComponent name)
    (hinner : ∀ name ∈ (top :: next :: rest).dropLast, '.' ∉ name.toList)
    (hending : ∀ name ∈ (top :: next :: rest).getLast?, '.' ∈ name.toList) : f.Tidy dirs := by
  have hof : Path.ofString f.path = ⟨.here, top :: next :: rest⟩ := by
    rw [hpath]
    exact Path.ofString_intercalate (List.cons_ne_nil _ _) h
  have hnames : f.names = top :: next :: rest := by
    rw [Source.File.names, hof]
  exact ⟨by rw [hof, hnames], by rw [hnames, hpath], hnames ▸ h, hnames ▸ hinner,
    hnames ▸ hending, top, next, rest, hnames, htop⟩

/-- Only the path counts. -/
theorem of_path (h : g.Tidy dirs) (hpath : f.path = g.path) : f.Tidy dirs := by
  have hnames : f.names = g.names := by rw [Source.File.names, hpath, Source.File.names]
  exact ⟨by rw [hpath, hnames, h.here], by rw [hpath, hnames, h.normal], hnames ▸ h.component,
    hnames ▸ h.inner, hnames ▸ h.ending, hnames ▸ h.deep⟩

theorem mono {dirs' : List String} (h : f.Tidy dirs) (hdirs : ∀ d ∈ dirs, d ∈ dirs') :
    f.Tidy dirs' := by
  obtain ⟨top, next, rest, hnames, htop⟩ := h.deep
  exact ⟨h.here, h.normal, h.component, h.inner, h.ending, top, next, rest, hnames,
    hdirs top htop⟩

theorem proper (h : f.Tidy dirs) : f.Proper := by
  obtain ⟨top, next, rest, hnames, _⟩ := h.deep
  exact ⟨by rw [h.here]; rfl, fun name hname => (h.component name hname).notUp,
    top, next, rest, hnames⟩

/-- No file is where another has a directory on its way. -/
theorem names_eq_of_first {dirs' : List String} (hf : f.Tidy dirs) (hg : g.Tidy dirs')
    (h : f.names <+: g.names) : f.names = g.names := by
  obtain ⟨top, next, rest, hfnames, _⟩ := hf.deep
  obtain ⟨top', next', rest', hgnames, _⟩ := hg.deep
  have hfne : f.names ≠ [] := by
    rw [hfnames]
    exact List.cons_ne_nil _ _
  have hgne : g.names ≠ [] := by
    rw [hgnames]
    exact List.cons_ne_nil _ _
  by_contra hne
  have hdrop := (prefix_dropLast_iff hgne).2 ⟨h, hne⟩
  have hdot := hf.ending _ (List.getLast?_eq_some_getLast hfne)
  exact hg.inner _ (hdrop.subset (List.getLast_mem hfne)) hdot

/-- A tidy file is let through. -/
theorem checkPath {e : Emitter} (h : f.Tidy e.dirs) : e.checkPath f.path = .ok () := by
  obtain ⟨top, next, rest, hnames, htop⟩ := h.deep
  have hup : f.names.contains ".." = false := by
    rw [Bool.eq_false_iff]
    exact fun hc => (h.component ".." (List.contains_iff_mem.1 hc)).notUp rfl
  unfold Emitter.checkPath
  rw [h.here]
  dsimp only
  rw [hup, hnames]
  dsimp only
  rw [List.contains_iff_mem.2 htop]
  rfl

theorem checkPaths {e : Emitter} {files : List Source.File} (h : ∀ f ∈ files, f.Tidy e.dirs) :
    e.checkPaths files = .ok () := by
  induction files with
  | nil => rfl
  | cons f files ih =>
    obtain ⟨hf, hfiles⟩ := List.forall_mem_cons.1 h
    unfold Emitter.checkPaths
    rw [hf.checkPath]
    exact ih hfiles

/-- Tidy files are in nobody's way. -/
theorem separate {files : List Source.File} (h : ∀ f ∈ files, f.Tidy dirs) :
    Delivery.Separate files where
  noNul := fun f hf name hname => ((h f hf).component name hname).noNul
  apart := fun f hf g hg hp => (h f hf).names_eq_of_first (h g hg) hp

end Source.File.Tidy

end Bindery
