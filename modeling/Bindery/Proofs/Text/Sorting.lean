/-
  TEXTS IN ORDER: what sorting keeps, and what it adds.

  A text is put behind the last one that is not greater, so a list in order stays in order; nothing is
  lost and nothing is doubled (`insertName_perm`).  Sorted without repetitions, a list is in strict order
  (`pairwise_sortDistinct`).
-/
import Mathlib.Data.List.Perm.Basic
import Mathlib.Data.String.Basic
import Bindery.Text.Order

namespace Bindery.Text

variable {s t : String} {names : List String}

theorem insertName_perm (s : String) (names : List String) : (insertName s names).Perm (s :: names) := by
  induction names with
  | nil => exact .refl _
  | cons n names ih =>
    unfold insertName
    split
    · exact .refl _
    · exact (ih.cons n).trans (.swap s n names)

theorem sortNames_perm (names : List String) : (sortNames names).Perm names := by
  induction names with
  | nil => exact .refl _
  | cons n names ih => exact (insertName_perm n _).trans (ih.cons n)

theorem mem_sortNames : t ∈ sortNames names ↔ t ∈ names := (sortNames_perm names).mem_iff

/-- A list in order stays in order. -/
theorem pairwise_insertName (h : names.Pairwise (· ≤ ·)) : (insertName s names).Pairwise (· ≤ ·) := by
  induction names with
  | nil => exact List.pairwise_singleton _ _
  | cons n names ih =>
    obtain ⟨hfirst, hrest⟩ := List.pairwise_cons.1 h
    unfold insertName
    split
    · rename_i hlt
      refine List.pairwise_cons.2 ⟨List.forall_mem_cons.2 ⟨hlt.le, fun t ht => ?_⟩, h⟩
      exact hlt.le.trans (hfirst t ht)
    · rename_i hlt
      refine List.pairwise_cons.2 ⟨fun t ht => ?_, ih hrest⟩
      rcases List.mem_cons.1 ((insertName_perm s names).mem_iff.1 ht) with rfl | ht
      · exact not_lt.1 hlt
      · exact hfirst t ht

theorem pairwise_sortNames (names : List String) : (sortNames names).Pairwise (· ≤ ·) := by
  induction names with
  | nil => exact .nil
  | cons n names ih => exact pairwise_insertName ih

theorem nodup_eraseDups (names : List String) : names.eraseDups.Nodup := by
  cases names with
  | nil => exact List.nodup_nil
  | cons n names =>
    rw [List.eraseDups_cons]
    refine List.nodup_cons.2 ⟨fun hmem => ?_, nodup_eraseDups _⟩
    have hkept := (List.mem_filter.1 (List.mem_eraseDups.1 hmem)).2
    rw [beq_self_eq_true] at hkept
    exact absurd hkept Bool.false_ne_true
termination_by names.length
decreasing_by exact Nat.lt_succ_of_le (List.length_filter_le _ _)

theorem mem_sortDistinct : t ∈ sortDistinct names ↔ t ∈ names :=
  mem_sortNames.trans List.mem_eraseDups

/-- Sorted, each once: no text stands behind one that is not less. -/
theorem pairwise_sortDistinct (names : List String) : (sortDistinct names).Pairwise (· < ·) := by
  have hnodup : (sortDistinct names).Nodup :=
    (sortNames_perm names.eraseDups).nodup_iff.2 (nodup_eraseDups names)
  exact (pairwise_sortNames names.eraseDups).imp₂ (fun _ _ hle hne => lt_of_le_of_ne hle hne) hnodup

-- Capitals come before small letters, and a text before those that it starts.
example : sortDistinct ["b", "a", "ab", "B", "a"] = ["B", "a", "ab", "b"] := by decide

end Bindery.Text
