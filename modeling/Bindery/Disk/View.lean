/-
  THE VIEW of a file tree after each operation.

  What stands where (`find?`) after setting, removing and moving is told by what stood where
  before (`find?_put`, `find?_remove`, `find?_move`).  Nothing else has to know how a tree keeps
  its entries.
-/
import Bindery.Disk.Tree

namespace Bindery.Tree

/-! ## Entries by their keys -/

theorem isPrefixOf_eq_false {p q : Place} (h : ¬p <+: q) : p.isPrefixOf q = false :=
  Bool.eq_false_iff.2 fun hp => h (List.isPrefixOf_iff_prefix.1 hp)

/-- Away from the root the view is the look-up of an entry. -/
theorem find?_of_ne_nil (t : Tree) {p : Place} (h : p ≠ []) : t.find? p = t.entries.lookup p := by
  cases p with
  | nil => exact absurd rfl h
  | cons _ _ => rfl

/-- Of entries whose keys are kept, a key that is kept finds what it found. -/
theorem lookup_filter_key (keep : Place → Bool) (l : List (Place × Entry)) (q : Place) :
    (l.filter fun e => keep e.1).lookup q = if keep q then l.lookup q else none := by
  induction l with
  | nil => simp
  | cons e l ih =>
    obtain ⟨k, x⟩ := e
    by_cases hq : q = k
    · subst hq
      cases hk : keep q
      · simp [hk, ih]
      · simp [hk]
    · have hne : (q == k) = false := beq_false_of_ne hq
      cases hk : keep k
      · simp [hk, ih, List.lookup_cons, hne]
      · simp [hk, ih, List.lookup_cons, hne]

/-! ## Setting and removing -/

/-- A place that is set holds what it is set to; the other places hold what they held. -/
theorem find?_put (t : Tree) (p : Place) (e : Entry) {q : Place} (hq : q ≠ []) :
    (t.put p e).find? q = if q = p then some e else t.find? q := by
  rw [find?_of_ne_nil _ hq, find?_of_ne_nil _ hq, put, List.lookup_append,
    lookup_filter_key (· != p)]
  by_cases h : q = p
  · subst h
    simp
  · simp [h, List.lookup_cons, beq_false_of_ne h]

/-- Nothing stands at or below a place that is removed; the other places hold what they held. -/
theorem find?_remove (t : Tree) (p : Place) {q : Place} (hq : q ≠ []) :
    (t.remove p).find? q = if p.isPrefixOf q then none else t.find? q := by
  rw [find?_of_ne_nil _ hq, find?_of_ne_nil _ hq, remove,
    lookup_filter_key fun k => !p.isPrefixOf k]
  cases p.isPrefixOf q <;> rfl

/-! ## Moving -/

/-- The place that `q` had before `source` became `target`. -/
theorem moved_eq_iff {source target k q : Place} (hk : ¬target <+: k) :
    moved source target k = q ↔
      if target <+: q then k = source ++ q.drop target.length else k = q ∧ ¬source <+: q := by
  unfold moved
  by_cases hs : source.isPrefixOf k = true
  · rw [if_pos hs]
    obtain ⟨r, rfl⟩ := List.isPrefixOf_iff_prefix.1 hs
    rw [List.drop_left]
    by_cases ht : target <+: q
    · rw [if_pos ht]
      obtain ⟨u, rfl⟩ := ht
      simp
    · rw [if_neg ht]
      constructor
      · rintro rfl
        exact absurd (List.prefix_append _ _) ht
      · rintro ⟨rfl, h⟩
        exact absurd (List.prefix_append _ _) h
  · rw [if_neg hs]
    have hs' : ¬source <+: k := fun h => hs (List.isPrefixOf_iff_prefix.2 h)
    by_cases ht : target <+: q
    · rw [if_pos ht]
      constructor
      · rintro rfl
        exact absurd ht hk
      · rintro rfl
        exact absurd (List.prefix_append _ _) hs'
    · rw [if_neg ht]
      constructor
      · rintro rfl
        exact ⟨rfl, hs'⟩
      · exact fun h => h.1

/-- Where nothing is in the way, a key finds what the place that it was moved from found. -/
theorem lookup_map_moved {source target : Place} {l : List (Place × Entry)}
    (hl : ∀ e ∈ l, ¬target <+: e.1) (q : Place) :
    (l.map fun e => (moved source target e.1, e.2)).lookup q =
      if target <+: q then l.lookup (source ++ q.drop target.length)
      else if source <+: q then none else l.lookup q := by
  induction l with
  | nil => simp
  | cons e l ih =>
    obtain ⟨k, x⟩ := e
    have hk : ¬target <+: k := hl (k, x) List.mem_cons_self
    have ih := ih fun e he => hl e (List.mem_cons_of_mem _ he)
    rw [List.map_cons, List.lookup_cons, List.lookup_cons, List.lookup_cons, ih]
    have key : moved source target k = q ↔ _ := moved_eq_iff hk
    by_cases ht : target <+: q
    · rw [if_pos ht] at key ⊢
      by_cases h : k = source ++ q.drop target.length
      · have : q = moved source target k := (key.2 h).symm
        simp [ht, ← this, ← h]
      · have h1 : ¬q = moved source target k := fun e => h (key.1 e.symm)
        rw [beq_false_of_ne h1, beq_false_of_ne (Ne.symm h)]
        simp [ht]
    · rw [if_neg ht] at key ⊢
      by_cases hs : source <+: q
      · have h1 : ¬q = moved source target k := fun e => (key.1 e.symm).2 hs
        rw [beq_false_of_ne h1]
        simp [hs, ht]
      · by_cases h : k = q
        · subst h
          have : moved source target k = k := key.2 ⟨rfl, hs⟩
          simp [this, hs, ht]
        · have h1 : ¬q = moved source target k := fun e => h (key.1 e.symm).1
          rw [beq_false_of_ne h1, beq_false_of_ne (Ne.symm h)]
          simp [hs, ht]

/-- What is moved stands at its new place with all that was below it, in the place of what was
there; nothing stands where it was; the other places hold what they held. -/
theorem find?_move (t : Tree) {source target q : Place} (hq : q ≠ []) (h : source ≠ [])
    (hst : ¬source <+: target) (hts : ¬target <+: source) :
    (t.move source target).find? q =
      if target <+: q then t.find? (source ++ q.drop target.length)
      else if source <+: q then none else t.find? q := by
  have hl : ∀ e ∈ (t.remove target).entries, ¬target <+: e.1 := by
    intro e he hp
    have := (List.mem_filter.1 he).2
    rw [List.isPrefixOf_iff_prefix.2 hp] at this
    exact absurd this (by decide)
  have hsrc : source ++ q.drop target.length ≠ [] := by simp [h]
  rw [find?_of_ne_nil _ hq, find?_of_ne_nil _ hq, find?_of_ne_nil _ hsrc, move,
    lookup_map_moved hl]
  have hfil := fun q => lookup_filter_key (fun k => !target.isPrefixOf k) t.entries q
  have hne : ¬target <+: source ++ q.drop target.length := by
    intro hp
    rcases List.prefix_or_prefix_of_prefix hp (List.prefix_append source _) with h1 | h1
    · exact hts h1
    · exact hst h1
  rw [remove]
  by_cases ht : target <+: q
  · rw [if_pos ht, if_pos ht, hfil, isPrefixOf_eq_false hne]
    rfl
  · rw [if_neg ht, if_neg ht]
    by_cases hs : source <+: q
    · rw [if_pos hs, if_pos hs]
    · rw [if_neg hs, if_neg hs, hfil, isPrefixOf_eq_false ht]
      rfl

end Bindery.Tree
