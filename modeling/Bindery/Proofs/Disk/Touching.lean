/-
  WHAT IS TOUCHED while files are handled, whatever fails on the way.

  `t.Touched spot way t'` says where `t'` may differ from `t`: at the spots in any way, and on the
  way only by directories that were made where nothing was.  It is reflexive and transitive, so what
  each operation touches, a whole course of them touches.  Nothing is asked of the disk here: the
  lemmas on steps hold for every tree and for all failures.
-/
import Bindery.Proofs.Disk.Making

namespace Bindery

open Bindery.Tree

/-! ## Steps in one world -/

/-- What steps mean for one world. -/
theorem Steps.elim {ε α : Type} {x : ExceptT ε (StateM World) α} {w : World}
    {good : α → Tree → Prop} {bad : ε → Tree → Prop}
    (h : Steps w.failures w.home x w.tree good bad) :
    Settles good bad (x w).1 (x w).2.tree := by
  obtain ⟨t', hat, hsettles⟩ := h w ⟨rfl, rfl, rfl⟩
  rw [hat.tree]
  exact hsettles

/-- What holds however steps end holds of the world that they end in. -/
theorem Steps.always {ε α : Type} {x : ExceptT ε (StateM World) α} {w : World} {P : Tree → Prop}
    (h : Steps w.failures w.home x w.tree (fun _ => P) fun _ => P) : P (x w).2.tree := by
  have hsettles := h.elim
  rcases hx : (x w).1 with e | a <;> rw [hx] at hsettles
  · exact hsettles
  · exact hsettles

/-! ## Trees before and after -/

/-- `t.Touched spot way t'` — in `t'` all is as in `t`, but for what is at the spots and for
directories that were made on the way. -/
def Tree.Touched (t : Tree) (spot way : Place → Prop) (t' : Tree) : Prop :=
  ∀ q, t'.find? q = t.find? q ∨ spot q ∨
    way q ∧ t.find? q = none ∧ t'.find? q = some .directory

namespace Tree

variable {t t' t'' : Tree} {home : Place} {p p' : Path} {spot way spot' way' : Place → Prop}

namespace Touched

theorem refl : t.Touched spot way t := fun _ => Or.inl rfl

theorem trans (h : t.Touched spot way t') (h' : t'.Touched spot way t'') :
    t.Touched spot way t'' := by
  intro q
  rcases h' q with hsame | hspot | ⟨hway, hnone, hdir⟩
  · rcases h q with hsame' | hspot | ⟨hway, hnone, hdir⟩
    · exact Or.inl (hsame.trans hsame')
    · exact Or.inr (Or.inl hspot)
    · exact Or.inr (Or.inr ⟨hway, hnone, hsame.trans hdir⟩)
  · exact Or.inr (Or.inl hspot)
  · rcases h q with hsame' | hspot | ⟨_, _, hdir'⟩
    · exact Or.inr (Or.inr ⟨hway, hsame'.symm.trans hnone, hdir⟩)
    · exact Or.inr (Or.inl hspot)
    · rw [hdir'] at hnone
      nomatch hnone

/-- A file that is there now was there before, unless it is at a spot. -/
theorem file (h : t.Touched spot way t') {q : Place} {text : String}
    (hfile : t'.find? q = some (.file text)) : t.find? q = some (.file text) ∨ spot q := by
  rcases h q with hsame | hspot | ⟨_, _, hdir⟩
  · exact Or.inl (hsame ▸ hfile)
  · exact Or.inr hspot
  · rw [hfile] at hdir
    nomatch hdir

end Touched

/-! ## Operations on a tree -/

/-- Making directories on a path touches nothing but its way. -/
theorem WayMade.touched (h : t.WayMade home p t')
    (hvisits : ∀ q, p.Visits home q → way q ∨ spot q) : t.Touched spot way t' := by
  intro q
  rcases h q with hsame | ⟨hq, hmade⟩
  · exact Or.inl hsame
  · rcases hvisits q hq with hq | hq
    · exact Or.inr (Or.inr ⟨hq, hmade⟩)
    · exact Or.inr (Or.inl hq)

/-- Setting a place touches that place. -/
theorem touched_put {a : Place} (ha : spot a) (e : Entry) : t.Touched spot way (t.put a e) := by
  intro q
  by_cases hroot : q = []
  · exact Or.inl (by rw [hroot]; rfl)
  · rw [find?_put _ _ _ hroot]
    by_cases hq : q = a
    · exact Or.inr (Or.inl (hq ▸ ha))
    · rw [if_neg hq]
      exact Or.inl rfl

/-- A move leaves alone what is neither at or below its start nor at or below its end. -/
theorem find?_move_off (t : Tree) {source target q : Place} (htarget : ¬target <+: q)
    (hsource : ¬source <+: q) : (t.move source target).find? q = t.find? q := by
  by_cases hroot : q = []
  · rw [hroot]
    rfl
  · have hcleared : ∀ e ∈ (t.remove target).entries, ¬target <+: e.1 := by
      intro e he hp
      have hkept := (List.mem_filter.1 he).2
      rw [List.isPrefixOf_iff_prefix.2 hp] at hkept
      nomatch hkept
    rw [find?_of_ne_nil _ hroot, move, lookup_map_moved hcleared, if_neg htarget, if_neg hsource,
      ← find?_of_ne_nil _ hroot, find?_remove _ _ hroot, isPrefixOf_eq_false htarget]
    rfl

/-- Renaming touches what is at or below the two paths. -/
theorem touched_rename (hp : ∀ q, p.placeOf home <+: q → spot q)
    (hp' : ∀ q, p'.placeOf home <+: q → spot q) (h : t.rename home p p' = .ok t') :
    t.Touched spot way t' := by
  obtain ⟨_, _, _, _, _, _, _, _, ⟨_, rfl⟩ | ⟨_, _, _, rfl⟩⟩ := rename_eq_ok.1 h
  · exact .refl
  · intro q
    by_cases hto : p'.placeOf home <+: q
    · exact Or.inr (Or.inl (hp' q hto))
    · by_cases hfrom : p.placeOf home <+: q
      · exact Or.inr (Or.inl (hp q hfrom))
      · exact Or.inl (t.find?_move_off hto hfrom)

/-- Removing touches what is at or below the path. -/
theorem touched_discard (hp : ∀ q, p.placeOf home <+: q → spot q) :
    t.Touched spot way (t.discard home p) := by
  rcases t.discard_cases home p with hsame | hgone
  · rw [hsame]
    exact .refl
  · intro q
    rw [hgone q]
    by_cases hq : p.placeOf home <+: q
    · exact Or.inr (Or.inl (hp q hq))
    · rw [if_neg hq]
      exact Or.inl rfl

end Tree

/-! ## Files -/

/-- Whether a file stands at a place. -/
def Tree.HasFile (t : Tree) (q : Place) : Prop := ∃ text, t.find? q = some (.file text)

/-- Where a file is written, one stands, and no other goes. -/
theorem Tree.hasFile_put {t : Tree} {a : Place} (ha : a ≠ []) (text : String) :
    (t.put a (.file text)).HasFile a ∧ ∀ q, t.HasFile q → (t.put a (.file text)).HasFile q := by
  have hat : (t.put a (.file text)).HasFile a := ⟨text, by rw [find?_put _ _ _ ha, if_pos rfl]⟩
  refine ⟨hat, ?_⟩
  rintro q ⟨old, hq⟩
  by_cases hsame : q = a
  · rw [hsame]
    exact hat
  · have hroot : q ≠ [] := ne_nil_of_find?_ne (by rw [hq]; simp)
    exact ⟨old, by rw [find?_put _ _ _ hroot, if_neg hsame, hq]⟩

/-! ## Making directories, whatever fails -/

variable {ε : Type} {f : Failures} {home : Place} {t t₀ : Tree} {p p' : Path}
  {spot way : Place → Prop}

theorem steps_makeDir_way (p : Path) :
    Steps f home (Disk.makeDir p) t (fun _ t' => t.WayMade home p t') (fun _ t' => t' = t) :=
  (steps_makeDir p).mono (fun _ _ h => wayMade_makeDir h) fun _ _ h => h.1

theorem steps_ensureDir_way (p : Path) :
    Steps f home (Disk.ensureDir p) t (fun _ t' => t.WayMade home p t') (fun _ t' => t' = t) := by
  refine Steps.tryCatch (steps_makeDir_way p) ?_
  rintro e t rfl
  refine Steps.bind ((steps_look_map p).mono (fun _ _ h => h) fun _ _ h => h.1) ?_
  rintro b t ⟨rfl, _⟩
  exact Steps.ite (fun _ => Steps.pure WayMade.refl) fun _ => Steps.throw rfl

theorem steps_ensureDirsAt_way (anchor : Anchor) (reversed : List String) :
    Steps f home (Disk.ensureDirsAt anchor reversed) t
      (fun _ t' => t.WayMade home ⟨anchor, reversed.reverse⟩ t')
      (fun _ t' => t.WayMade home ⟨anchor, reversed.reverse⟩ t') := by
  induction reversed generalizing t with
  | nil =>
    refine (steps_ensureDir_way _).mono (fun _ _ h => h) ?_
    rintro _ t rfl
    exact WayMade.refl
  | cons name above ih =>
    have hfirst : above.reverse <+: (name :: above).reverse :=
      List.reverse_prefix.2 (List.suffix_cons name above)
    refine Steps.tryCatch (steps_ensureDir_way _) ?_
    rintro e t rfl
    refine Steps.ite (fun _ => Steps.throw_bind WayMade.refl) fun _ => ?_
    refine Steps.bind (ih.mono (fun _ _ h => h.of_first hfirst) fun _ _ h => h.of_first hfirst) ?_
    intro _ t' habove
    refine (steps_ensureDir_way _).mono (fun _ _ h => habove.trans h) ?_
    rintro _ t' rfl
    exact habove

theorem steps_ensureDirs_way (p : Path) :
    Steps f home (Disk.ensureDirs p) t (fun _ t' => t.WayMade home p t')
      (fun _ t' => t.WayMade home p t') := by
  have h : Steps f home (Disk.ensureDirsAt p.anchor p.names.reverse) t _ _ :=
    steps_ensureDirsAt_way p.anchor p.names.reverse
  rw [List.reverse_reverse] at h
  exact h

theorem steps_makeDirs_way (p : Path) :
    Steps f home (Disk.makeDirs p) t (fun _ t' => t.WayMade home p t')
      (fun _ t' => t.WayMade home p t') := by
  have hfirst : p.names.dropLast <+: p.names := List.dropLast_prefix _
  refine Steps.tryCatch (steps_makeDir_way p) ?_
  rintro e t rfl
  refine Steps.ite (fun _ => Steps.throw_bind WayMade.refl) fun _ => ?_
  refine Steps.bind ((steps_ensureDirs_way p.parent).mono (fun _ _ h => h.of_first hfirst)
    fun _ _ h => h.of_first hfirst) ?_
  intro _ t' habove
  refine (steps_makeDir_way p).mono (fun _ _ h => habove.trans h) ?_
  rintro _ t' rfl
  exact habove

/-! ## One operation more -/

section

variable (h : t₀.Touched spot way t)
include h

theorem touched_makeDir (hp : ∀ q, p.Visits home q → way q ∨ spot q) :
    Steps f home (Disk.makeDir p) t (fun _ t' => t₀.Touched spot way t')
      (fun _ t' => t₀.Touched spot way t') := by
  refine (steps_makeDir_way p).mono (fun _ _ hway => h.trans (hway.touched hp)) ?_
  rintro _ t rfl
  exact h

theorem touched_ensureDirs (hp : ∀ q, p.Visits home q → way q ∨ spot q) :
    Steps f home (Disk.ensureDirs p) t (fun _ t' => t₀.Touched spot way t')
      (fun _ t' => t₀.Touched spot way t') :=
  (steps_ensureDirs_way p).mono (fun _ _ hway => h.trans (hway.touched hp))
    fun _ _ hway => h.trans (hway.touched hp)

theorem touched_makeDirs (hp : ∀ q, p.Visits home q → way q ∨ spot q) :
    Steps f home (Disk.makeDirs p) t (fun _ t' => t₀.Touched spot way t')
      (fun _ t' => t₀.Touched spot way t') :=
  (steps_makeDirs_way p).mono (fun _ _ hway => h.trans (hway.touched hp))
    fun _ _ hway => h.trans (hway.touched hp)

theorem touched_write (hp : spot (p.placeOf home)) (text : String) :
    Steps f home (Disk.write p text) t
      (fun _ t' => t₀.Touched spot way t' ∧ t'.HasFile (p.placeOf home) ∧
        ∀ q, t.HasFile q → t'.HasFile q)
      (fun _ t' => t₀.Touched spot way t') := by
  refine (steps_write p text).mono ?_ ?_
  · intro _ t' hwrite
    obtain ⟨_, _, hfree, rfl⟩ := write_eq_ok.1 hwrite
    exact ⟨h.trans (touched_put hp _), hasFile_put (ne_nil_of_find?_ne hfree) text⟩
  · rintro _ t ⟨rfl, _⟩
    exact h

theorem touched_isThere (p : Path) :
    Steps f home (Disk.isThere p) t (fun _ t' => t₀.Touched spot way t')
      (fun _ t' => t₀.Touched spot way t') := by
  refine (steps_look_map p).mono ?_ ?_
  · rintro _ t ⟨rfl, _⟩
    exact h
  · rintro _ t ⟨rfl, _⟩
    exact h

section

variable (hp : ∀ q, p.placeOf home <+: q → spot q)
include hp

theorem touched_tryDiscard :
    Steps f home (ExceptT.lift (Disk.discard p)) t (fun _ t' => t₀.Touched spot way t')
      (fun (_ : ε) t' => t₀.Touched spot way t') := by
  refine (steps_tryDiscard p).mono ?_ fun _ _ h => h
  rintro _ t' (⟨_, rfl⟩ | rfl)
  · exact h
  · exact h.trans (touched_discard hp)

variable (hp' : ∀ q, p'.placeOf home <+: q → spot q)
include hp'

theorem touched_move :
    Steps f home (Disk.move p p') t (fun _ t' => t₀.Touched spot way t')
      (fun _ t' => t₀.Touched spot way t') := by
  refine (steps_move p p').mono (fun _ _ hmoved => h.trans (touched_rename hp hp' hmoved)) ?_
  rintro _ t ⟨rfl, _⟩
  exact h

theorem touched_restore :
    Steps f home (Disk.restore p p') t (fun _ t' => t₀.Touched spot way t')
      (fun _ t' => t₀.Touched spot way t') := by
  refine (steps_putBack p p').mono (fun _ _ hmoved => h.trans (touched_rename hp hp' hmoved)) ?_
  rintro _ t ⟨rfl, _⟩
  exact h

end

end

end Bindery
