/-
  FILE LISTS: what is left when files are collected.

  A file replaces an earlier one of its path, so in a collected list every path stands once
  (`nodup_collect`), and the file that stands there is the last one that was made
  (`mem_collect_of_last`).
-/
import Mathlib.Data.List.Basic
import Mathlib.Data.List.Induction
import Mathlib.Data.List.Nodup
import Bindery.Source.Line

namespace Bindery.Source

/-! ## One file -/

theorem self_mem_put (f : File) (fs : List File) : f ∈ put f fs := by
  induction fs with
  | nil => exact List.mem_singleton_self f
  | cons g fs ih =>
    unfold put
    split
    · exact List.mem_cons_self
    · exact List.mem_cons_of_mem _ ih

theorem mem_of_mem_put {f g : File} {fs : List File} (h : g ∈ put f fs) : g = f ∨ g ∈ fs := by
  induction fs with
  | nil => exact Or.inl (List.mem_singleton.1 h)
  | cons e fs ih =>
    unfold put at h
    split at h
    · rcases List.mem_cons.1 h with rfl | h
      · exact Or.inl rfl
      · exact Or.inr (List.mem_cons_of_mem _ h)
    · rcases List.mem_cons.1 h with rfl | h
      · exact Or.inr List.mem_cons_self
      · exact (ih h).imp_right (List.mem_cons_of_mem _)

theorem mem_put_of_ne {f g : File} {fs : List File} (h : g ∈ fs) (hne : g.path ≠ f.path) :
    g ∈ put f fs := by
  induction fs with
  | nil => nomatch h
  | cons e fs ih =>
    unfold put
    rcases List.mem_cons.1 h with rfl | h
    · rw [if_neg (by simpa using hne)]
      exact List.mem_cons_self
    · split
      · exact List.mem_cons_of_mem _ h
      · exact List.mem_cons_of_mem _ (ih h)

theorem put_map_path (f : File) (fs : List File) :
    (put f fs).map (·.path) =
      if f.path ∈ fs.map (·.path) then fs.map (·.path) else fs.map (·.path) ++ [f.path] := by
  induction fs with
  | nil => rfl
  | cons g fs ih =>
    unfold put
    by_cases hg : g.path = f.path
    · rw [if_pos (beq_iff_eq.2 hg), if_pos (by simp [hg]), List.map_cons, List.map_cons, hg]
    · rw [if_neg (by simpa using hg), List.map_cons, ih]
      by_cases hm : f.path ∈ fs.map (·.path)
      · rw [if_pos hm, if_pos (by exact List.mem_cons_of_mem _ hm), List.map_cons]
      · have hm' : f.path ∉ (g :: fs).map (·.path) := by
          rw [List.map_cons, List.mem_cons, not_or]
          exact ⟨fun h => hg h.symm, hm⟩
        rw [if_neg hm, if_neg hm', List.map_cons, List.cons_append]

theorem put_of_fresh {f : File} {fs : List File} (h : ∀ g ∈ fs, g.path ≠ f.path) :
    put f fs = fs ++ [f] := by
  induction fs with
  | nil => rfl
  | cons g fs ih =>
    obtain ⟨hg, hfs⟩ := List.forall_mem_cons.1 h
    unfold put
    rw [if_neg (by simpa using hg), ih hfs, List.cons_append]

/-! ## All files -/

theorem collect_concat (fs : List File) (f : File) : collect (fs ++ [f]) = put f (collect fs) := by
  unfold collect
  rw [List.foldl_append]
  rfl

theorem mem_of_mem_collect {f : File} {fs : List File} (h : f ∈ collect fs) : f ∈ fs := by
  induction fs using List.reverseRecOn with
  | nil => exact h
  | append_singleton fs g ih =>
    rw [collect_concat] at h
    rcases mem_of_mem_put h with rfl | h
    · exact List.mem_append_right _ (List.mem_singleton_self f)
    · exact List.mem_append_left _ (ih h)

/-- In a collected list every path stands once. -/
theorem nodup_collect (fs : List File) : ((collect fs).map (·.path)).Nodup := by
  induction fs using List.reverseRecOn with
  | nil => exact .nil
  | append_singleton fs g ih =>
    rw [collect_concat, put_map_path]
    split
    · exact ih
    · rename_i hg
      refine List.nodup_append.2 ⟨ih, List.nodup_singleton _, ?_⟩
      rintro a ha b hb rfl
      rw [List.mem_singleton.1 hb] at ha
      exact hg ha

/-- The last file of a path is the one that is left. -/
theorem mem_collect_of_last {f : File} {as bs : List File} (h : ∀ b ∈ bs, b.path ≠ f.path) :
    f ∈ collect (as ++ f :: bs) := by
  induction bs using List.reverseRecOn with
  | nil =>
    rw [collect_concat]
    exact self_mem_put f _
  | append_singleton bs b ih =>
    rw [← List.cons_append, ← List.append_assoc, collect_concat]
    obtain ⟨hbs, hb⟩ := List.forall_mem_append.1 h
    exact mem_put_of_ne (ih hbs) fun e => hb b (List.mem_singleton_self b) e.symm

/-- No path is lost. -/
theorem exists_mem_collect {f : File} {fs : List File} (h : f ∈ fs) :
    ∃ g ∈ collect fs, g.path = f.path := by
  induction fs using List.reverseRecOn with
  | nil => nomatch h
  | append_singleton fs e ih =>
    rw [collect_concat]
    by_cases hpath : f.path = e.path
    · exact ⟨e, self_mem_put e _, hpath.symm⟩
    · rcases List.mem_append.1 h with h | h
      · obtain ⟨g, hg, hgf⟩ := ih h
        exact ⟨g, mem_put_of_ne hg fun he => hpath (hgf.symm.trans he), hgf⟩
      · exact absurd (congrArg File.path (List.mem_singleton.1 h)) hpath

/-- A path of a collected list stands for one file. -/
theorem eq_of_mem_collect {f g : File} {fs : List File} (hf : f ∈ collect fs)
    (hg : g ∈ collect fs) (h : f.path = g.path) : f = g :=
  List.inj_on_of_nodup_map (nodup_collect fs) hf hg h

/-- Files with different paths are all left, in their order. -/
theorem collect_of_nodup {fs : List File} (h : (fs.map (·.path)).Nodup) : collect fs = fs := by
  induction fs using List.reverseRecOn with
  | nil => rfl
  | append_singleton fs g ih =>
    rw [List.map_append] at h
    obtain ⟨hfs, _, hg⟩ := List.nodup_append.1 h
    have hfree : ∀ f ∈ fs, f.path ≠ g.path := fun f hf =>
      hg _ (List.mem_map.2 ⟨f, hf, rfl⟩) _ (List.mem_singleton_self _)
    rw [collect_concat, ih hfs, put_of_fresh hfree]

end Bindery.Source
