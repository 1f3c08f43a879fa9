/-
  MAKING DIRECTORIES: what it adds to a tree.

  Making a directory with those above it adds directories on the way of its path and nothing else,
  and it does so even when it fails half-way (`WayMade`).  Where it succeeds, the path leads through
  directories to one.  A sound tree stays sound.
-/
import Bindery.Proofs.Disk.Effects
import Bindery.Proofs.Disk.Steps

namespace Bindery

open Bindery.Tree

/-! ## Sound trees -/

/-- `t.Sound home p` — a tree to work in: whatever stands somewhere stands in a directory, and the
path starts from a directory. -/
structure Tree.Sound (t : Tree) (home : Place) (p : Path) : Prop where
  closed : t.Closed
  start : t.find? (p.start home) = some .directory

/-- `t.WayMade home p t'` — in `t'` all is as in `t`, but for directories that were made on the way
of the path. -/
def Tree.WayMade (t : Tree) (home : Place) (p : Path) (t' : Tree) : Prop :=
  ∀ q, t'.find? q = t.find? q ∨
    p.Visits home q ∧ t.find? q = none ∧ t'.find? q = some .directory

namespace Tree

variable {t t' t'' : Tree} {home : Place} {p : Path}

/-- What a path starts from is decided by its anchor. -/
theorem Sound.of_anchor {p' : Path} (h : t.Sound home p) (hp : p'.anchor = p.anchor) :
    t.Sound home p' :=
  ⟨h.closed, by rw [Path.start, Path.isAbsolute, hp]; exact h.start⟩

theorem WayMade.refl : t.WayMade home p t := fun _ => Or.inl rfl

theorem WayMade.trans (h1 : t.WayMade home p t') (h2 : t'.WayMade home p t'') :
    t.WayMade home p t'' := by
  intro q
  rcases h1 q with hsame | ⟨hq, hnone, hdir⟩
  · rcases h2 q with hsame' | ⟨hq, hnone, hdir⟩
    · exact Or.inl (hsame'.trans hsame)
    · exact Or.inr ⟨hq, by rw [← hsame, hnone], hdir⟩
  · rcases h2 q with hsame' | ⟨_, hnone', _⟩
    · exact Or.inr ⟨hq, hnone, by rw [hsame', hdir]⟩
    · rw [hdir] at hnone'
      nomatch hnone'

theorem WayMade.mono {p' : Path} (h : t.WayMade home p t')
    (hp : ∀ q, p.Visits home q → p'.Visits home q) : t.WayMade home p' t' :=
  fun q => (h q).imp_right fun ⟨hq, hrest⟩ => ⟨hp q hq, hrest⟩

/-- What is there stays. -/
theorem WayMade.keeps (h : t.WayMade home p t') {q : Place} {e : Entry}
    (hq : t.find? q = some e) : t'.find? q = some e := by
  rcases h q with hsame | ⟨_, hnone, _⟩
  · rw [hsame, hq]
  · rw [hq] at hnone
    nomatch hnone

theorem WayMade.off (h : t.WayMade home p t') {q : Place} (hq : ¬p.Visits home q) :
    t'.find? q = t.find? q := (h q).resolve_right fun h => hq h.1

/-- Files are neither made nor lost. -/
theorem WayMade.file (h : t.WayMade home p t') {q : Place} {text : String} :
    t'.find? q = some (.file text) ↔ t.find? q = some (.file text) := by
  rcases h q with hsame | ⟨_, hnone, hdir⟩
  · rw [hsame]
  · rw [hnone, hdir]
    exact ⟨fun h => (nomatch h), fun h => (nomatch h)⟩

/-- Where a way is open to a place with nothing, the place is in a directory. -/
theorem Sound.dropLast_place (hs : t.Sound home p) (hopen : t.Reaches home p)
    (hnone : t.find? (p.placeOf home) = none) :
    t.find? (p.placeOf home).dropLast = some .directory := by
  rcases List.eq_nil_or_concat p.names with hnames | ⟨front, name, hnames⟩
  · have hplace : p.placeOf home = p.start home := by rw [Path.placeOf, hnames, follow_nil]
    rw [hplace, hs.start] at hnone
    cases hnone
  · rw [List.concat_eq_append] at hnames
    have hdir := hopen front name (hnames ▸ List.prefix_rfl)
    have hplace : p.placeOf home = stepTo (follow (p.start home) front) name := by
      rw [Path.placeOf, hnames, follow_append, follow_cons, follow_nil]
    rw [hplace] at hnone ⊢
    unfold stepTo at hnone ⊢
    split at hnone
    · have hup := hs.closed (follow (p.start home) front)
        (fun h => by rw [h] at hnone; cases hnone) (by rw [hdir]; simp)
      rw [hup] at hnone
      cases hnone
    · rename_i hname
      rw [if_neg hname, List.dropLast_concat]
      exact hdir

/-- Setting a place with nothing, in a directory, keeps a tree sound. -/
theorem Sound.put (hs : t.Sound home p) {q : Place} (hnone : t.find? q = none)
    (hup : t.find? q.dropLast = some .directory) (e : Entry) :
    (t.put q e).Sound home p := by
  have hkeep : ∀ r, t.find? r = some .directory → (t.put q e).find? r = some .directory := by
    intro r hr
    by_cases hroot : r = []
    · rw [hroot]
      rfl
    · rw [find?_put _ _ _ hroot, if_neg (fun h => by rw [h, hnone] at hr; nomatch hr)]
      exact hr
  refine ⟨fun r hr hthere => ?_, hkeep _ hs.start⟩
  rw [find?_put _ _ _ hr] at hthere
  by_cases hrq : r = q
  · rw [hrq]
    exact hkeep _ hup
  · rw [if_neg hrq] at hthere
    exact hkeep _ (hs.closed r hr hthere)

/-- A made directory is made on its way. -/
theorem wayMade_makeDir (h : t.makeDir home p = .ok t') : t.WayMade home p t' := by
  obtain ⟨_, _, hnone, rfl⟩ := makeDir_eq_ok.1 h
  intro q
  by_cases hroot : q = []
  · exact Or.inl (by rw [hroot]; rfl)
  · rw [find?_put _ _ _ hroot]
    by_cases hq : q = p.placeOf home
    · rw [if_pos hq, hq]
      exact Or.inr ⟨p.visits_placeOf home, hnone, rfl⟩
    · rw [if_neg hq]
      exact Or.inl rfl

theorem stands_makeDir (h : t.makeDir home p = .ok t') : t'.Stands home p := by
  have hmade := wayMade_makeDir h
  obtain ⟨_, hopen, hnone, rfl⟩ := makeDir_eq_ok.1 h
  refine stands_iff.2 ⟨hopen.mono fun _ _ hdir => hmade.keeps hdir, ?_⟩
  rw [find?_put _ _ _ (ne_nil_of_find?_ne (by rw [hnone]; simp)), if_pos rfl]

theorem Sound.makeDir (hs : t.Sound home p) (h : t.makeDir home p = .ok t') :
    t'.Sound home p := by
  obtain ⟨_, hopen, hnone, rfl⟩ := makeDir_eq_ok.1 h
  exact hs.put hnone (hs.dropLast_place hopen hnone) _

end Tree

/-! ## Making -/

/-- The first names of a usable path make a usable path. -/
theorem isUsable_of_first {anchor : Anchor} {front names : List String} (hp : front <+: names)
    (h : (⟨anchor, names⟩ : Path).isUsable = true) : (⟨anchor, front⟩ : Path).isUsable = true := by
  rw [Path.isUsable, List.all_eq_true] at h ⊢
  exact fun name hname => h name (hp.subset hname)

/-- `Made home p t t'` — the directory at the path has been made with those above it. -/
structure Made (home : Place) (p : Path) (t t' : Tree) : Prop where
  sound : t.Sound home p → t'.Sound home p
  way : t.WayMade home p t'
  stands : t'.Stands home p
  fits : p.Fits

/-- `Unmade home p t e t'` — it has been tried to make it. -/
structure Unmade (home : Place) (p : Path) (t : Tree) (e : DiskFault) (t' : Tree) : Prop where
  sound : t.Sound home p → t'.Sound home p
  way : t.WayMade home p t'
  ofDisk : p.isUsable = true → e.isOfDisk = true

section

variable {home : Place} {anchor : Anchor} {front names : List String} {t t' t'' : Tree}
  {e : DiskFault}

/-- What was made on the way to a directory above was made on the way. -/
theorem Tree.WayMade.of_first (hfirst : front <+: names) (h : t.WayMade home ⟨anchor, front⟩ t') :
    t.WayMade home ⟨anchor, names⟩ t' :=
  h.mono fun _ => Path.Visits.of_first hfirst

theorem Made.trans (hfirst : front <+: names) (h : Made home ⟨anchor, front⟩ t t')
    (h' : Made home ⟨anchor, names⟩ t' t'') : Made home ⟨anchor, names⟩ t t'' :=
  ⟨fun hs => h'.sound ((h.sound (hs.of_anchor rfl)).of_anchor rfl),
    (h.way.of_first hfirst).trans h'.way, h'.stands, h'.fits⟩

/-- It may fail behind the directories above, which are left. -/
theorem Made.unmade (hfirst : front <+: names) (h : Made home ⟨anchor, front⟩ t t')
    (hdisk : (⟨anchor, names⟩ : Path).isUsable = true → e.isOfDisk = true) :
    Unmade home ⟨anchor, names⟩ t e t' :=
  ⟨fun hs => (h.sound (hs.of_anchor rfl)).of_anchor rfl, h.way.of_first hfirst, hdisk⟩

/-- It may fail before, while those above it are made. -/
theorem Unmade.of_first (hfirst : front <+: names) (h : Unmade home ⟨anchor, front⟩ t e t') :
    Unmade home ⟨anchor, names⟩ t e t' :=
  ⟨fun hs => (h.sound (hs.of_anchor rfl)).of_anchor rfl, h.way.of_first hfirst,
    fun hp => h.ofDisk (isUsable_of_first hfirst hp)⟩

end

/-- The failures of going forward are those of a disk. -/
def Failures.OfDisk (f : Failures) : Prop := ∀ n e, f.forward n = some e → e.isOfDisk = true

variable {f : Failures} {home : Place} {t : Tree} (hf : f.OfDisk)
include hf

theorem Refused.ofDisk {α : Type} {r : Except DiskFault α} {e : DiskFault} (h : Refused f r e)
    (hr : r = .error e → e.isOfDisk = true) : e.isOfDisk = true := by
  rcases h with ⟨n, hn⟩ | h
  · exact hf n e hn
  · exact hr h

theorem steps_makeDir_made (p : Path) :
    Steps f home (Disk.makeDir p) t (fun _ t' => Made home p t t')
      (fun e t' => t' = t ∧ (p.isUsable = true → e.isOfDisk = true)) := by
  refine (steps_makeDir p).mono ?_ ?_
  · intro _ t' h
    exact ⟨fun hs => hs.makeDir h, wayMade_makeDir h, stands_makeDir h, (makeDir_eq_ok.1 h).1⟩
  · rintro e t ⟨rfl, hrefused⟩
    exact ⟨rfl, fun hp => hrefused.ofDisk hf (makeDir_error hp)⟩

theorem steps_ensureDir (p : Path) :
    Steps f home (Disk.ensureDir p) t (fun _ t' => Made home p t t')
      (fun e t' => t' = t ∧ (p.isUsable = true → e.isOfDisk = true)) := by
  refine Steps.tryCatch (steps_makeDir_made hf p) ?_
  rintro e t ⟨rfl, hdisk⟩
  refine Steps.bind ((steps_look_map p).mono (fun _ _ h => h) ?_) ?_
  · rintro e t' ⟨rfl, hlook⟩
    exact ⟨rfl, fun _ => by rw [look_error hlook]; rfl⟩
  · rintro b t ⟨rfl, k, hlook, rfl⟩
    refine Steps.ite (fun hc => Steps.pure ?_) (fun _ => Steps.throw ⟨rfl, hdisk⟩)
    have hk : k = some .directory := by
      simp only [Bool.and_eq_true, beq_iff_eq] at hc
      exact hc.2
    obtain ⟨hfits, hopen, hkind⟩ := look_eq_some.1 (hk ▸ hlook)
    have hdir : t.find? (p.placeOf home) = some .directory := by
      obtain ⟨entry, hentry, hfound⟩ := Option.map_eq_some_iff.1 hkind
      cases entry with
      | file _ => nomatch hfound
      | directory => exact hentry
    exact ⟨fun hs => hs, WayMade.refl, stands_iff.2 ⟨hopen, hdir⟩, hfits⟩

theorem steps_ensureDirsAt (anchor : Anchor) (reversed : List String) :
    Steps f home (Disk.ensureDirsAt anchor reversed) t
      (fun _ t' => Made home ⟨anchor, reversed.reverse⟩ t t')
      (fun e t' => Unmade home ⟨anchor, reversed.reverse⟩ t e t') := by
  induction reversed generalizing t with
  | nil =>
    refine (steps_ensureDir hf _).mono (fun _ _ h => h) ?_
    rintro e t ⟨rfl, hdisk⟩
    exact ⟨fun hs => hs, WayMade.refl, hdisk⟩
  | cons name above ih =>
    have hfirst : above.reverse <+: (name :: above).reverse :=
      List.reverse_prefix.2 (List.suffix_cons name above)
    -- The whole path is tried first; only when it finds no way are those above it made.
    refine Steps.tryCatch (steps_ensureDir hf _) ?_
    rintro e t ⟨rfl, hdisk⟩
    refine Steps.ite (fun _ => Steps.throw_bind ⟨fun hs => hs, WayMade.refl, hdisk⟩) fun _ => ?_
    refine Steps.bind (ih.mono (fun _ _ h => h) fun _ _ h => h.of_first hfirst) ?_
    intro _ t' h
    refine (steps_ensureDir hf _).mono (fun _ _ h' => h.trans hfirst h') ?_
    rintro e t' ⟨rfl, hdisk⟩
    exact h.unmade hfirst hdisk

theorem steps_ensureDirs (p : Path) :
    Steps f home (Disk.ensureDirs p) t (fun _ t' => Made home p t t')
      (fun e t' => Unmade home p t e t') := by
  have h : Steps f home (Disk.ensureDirsAt p.anchor p.names.reverse) t _ _ :=
    steps_ensureDirsAt hf p.anchor p.names.reverse
  rw [List.reverse_reverse] at h
  exact h

theorem steps_makeDirs (p : Path) :
    Steps f home (Disk.makeDirs p) t (fun _ t' => Made home p t t')
      (fun e t' => Unmade home p t e t') := by
  obtain ⟨anchor, names⟩ := p
  have hfirst : names.dropLast <+: names := List.dropLast_prefix _
  refine Steps.tryCatch (steps_makeDir_made hf _) ?_
  rintro e t ⟨rfl, hdisk⟩
  refine Steps.ite (fun _ => Steps.throw_bind ⟨fun hs => hs, WayMade.refl, hdisk⟩) fun _ => ?_
  refine Steps.bind ((steps_ensureDirs hf _).mono (fun _ _ h => h) fun _ _ h => h.of_first hfirst) ?_
  intro _ t' h
  refine (steps_makeDir_made hf _).mono (fun _ _ h' => h.trans hfirst h') ?_
  rintro e t' ⟨rfl, hdisk⟩
  exact h.unmade hfirst hdisk

end Bindery
