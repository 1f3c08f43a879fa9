/-
  HOMES: where the value class of a type lives.

  Every type but the plain numbers has one home.  The modules that host value classes are listed
  without repetition, and none that is needed is missing; so whoever goes through them, home by
  home, meets every such type exactly once (`mem_placedTypes`, `nodup_placedTypes`).
-/
import Mathlib.Data.List.Nodup
import Bindery.Proofs.Model.FunctionChecks

namespace Bindery.Model

/-! ## Names that are gathered -/

theorem mem_addName {names : List String} {name other : String} :
    other ∈ addName names name ↔ other ∈ names ∨ other = name := by
  unfold addName
  split
  · rename_i h
    have hname : name ∈ names := List.contains_iff_mem.1 h
    exact ⟨Or.inl, fun h => h.elim id fun heq => heq ▸ hname⟩
  · rw [List.mem_append, List.mem_singleton]

theorem nodup_addName {names : List String} (h : names.Nodup) (name : String) :
    (addName names name).Nodup := by
  unfold addName
  split
  · exact h
  · rename_i hnew
    have hname : name ∉ names := fun hmem => hnew (List.contains_iff_mem.2 hmem)
    exact List.Nodup.append h (List.nodup_singleton _) (List.disjoint_singleton.2 hname)

theorem mem_foldl_addName {homes names : List String} {other : String} :
    other ∈ homes.foldl addName names ↔ other ∈ names ∨ other ∈ homes := by
  induction homes generalizing names with
  | nil => exact ⟨Or.inl, fun h => h.elim id fun h => (nomatch h)⟩
  | cons home homes ih => rw [List.foldl_cons, ih, mem_addName, List.mem_cons, or_assoc]

theorem nodup_foldl_addName {homes names : List String} (h : names.Nodup) :
    (homes.foldl addName names).Nodup := by
  induction homes generalizing names with
  | nil => exact h
  | cons home homes ih => exact ih (nodup_addName h home)

/-! ## Modules that host value classes -/

variable {m : Model}

theorem mem_valueTypes {t : TypeDef} : t ∈ m.valueTypes ↔ t ∈ m.types ∧ t.isScalar = false := by
  unfold valueTypes
  rw [List.mem_filter, Bool.not_eq_true']

theorem mem_typesOf {home : String} {t : TypeDef} :
    t ∈ m.typesOf home ↔ t ∈ m.valueTypes ∧ m.homeModule t = home := by
  unfold typesOf
  rw [List.mem_filter, beq_iff_eq]

theorem nodup_valueModules (h : m.moduleNames.Nodup) : m.valueModules.Nodup :=
  (nodup_foldl_addName h).filter _

/-- The home of a type is among the modules that host value classes. -/
theorem homeModule_mem {t : TypeDef} (ht : t ∈ m.valueTypes) : m.homeModule t ∈ m.valueModules := by
  refine List.mem_filter.2 ⟨mem_foldl_addName.2 (Or.inr (List.mem_map.2 ⟨t, ht, rfl⟩)), ?_⟩
  have hhosted : t ∈ m.typesOf (m.homeModule t) := mem_typesOf.2 ⟨ht, rfl⟩
  cases hall : m.typesOf (m.homeModule t) with
  | nil =>
    rw [hall] at hhosted
    nomatch hhosted
  | cons _ _ => rfl

/-! ## Types, home by home -/

/-- The types with a value class and their homes, home by home. -/
def placedTypes (m : Model) : List (String × TypeDef) :=
  m.valueModules.flatMap fun home => (m.typesOf home).map fun t => (home, t)

theorem mem_placedTypes {home : String} {t : TypeDef} :
    (home, t) ∈ m.placedTypes ↔ t ∈ m.types ∧ t.isScalar = false ∧ home = m.homeModule t := by
  unfold placedTypes
  rw [List.mem_flatMap]
  constructor
  · rintro ⟨host, _, ht⟩
    obtain ⟨u, hu, heq⟩ := List.mem_map.1 ht
    cases heq
    obtain ⟨hvalue, hhome⟩ := mem_typesOf.1 hu
    exact ⟨(mem_valueTypes.1 hvalue).1, (mem_valueTypes.1 hvalue).2, hhome.symm⟩
  · rintro ⟨ht, hscalar, rfl⟩
    have hvalue := mem_valueTypes.2 ⟨ht, hscalar⟩
    exact ⟨_, homeModule_mem hvalue, List.mem_map.2 ⟨t, mem_typesOf.2 ⟨hvalue, rfl⟩, rfl⟩⟩

/-- No name is met twice, neither in one home nor in two. -/
theorem nodup_placedTypes (h : m.WellFormed) : (m.placedTypes.map fun x => x.2.name).Nodup := by
  have hnames : (m.types.map (·.name)).Nodup :=
    List.pairwise_map.2 (h.types.apart.imp fun hne heq => hne (congrArg Naming.lower heq))
  unfold placedTypes
  rw [List.map_flatMap]
  refine List.nodup_flatMap.2 ⟨fun home _ => ?_, (nodup_valueModules h.distinct).imp ?_⟩
  · rw [List.map_map]
    have hsub : (m.typesOf home).Sublist m.types :=
      List.filter_sublist.trans List.filter_sublist
    exact hnames.sublist (hsub.map _)
  · intro home host hne name hname hother
    obtain ⟨_, hx, rfl⟩ := List.mem_map.1 hname
    obtain ⟨_, hy, heq⟩ := List.mem_map.1 hother
    obtain ⟨t, ht, rfl⟩ := List.mem_map.1 hx
    obtain ⟨u, hu, rfl⟩ := List.mem_map.1 hy
    obtain ⟨ht, hhome⟩ := mem_typesOf.1 ht
    obtain ⟨hu, hhost⟩ := mem_typesOf.1 hu
    obtain rfl := h.types.eq_of_name_eq (mem_valueTypes.1 hu).1 (mem_valueTypes.1 ht).1 heq
    exact hne (hhome.symm.trans hhost)

end Bindery.Model
