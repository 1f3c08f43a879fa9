/-
  WHAT THE CHECKS OF FUNCTIONS COME TO, over types that are well formed.

  As for types: `…_eq_ok` says what a check accepts, `…_eq_unwritable` when it meets a value that
  it cannot show.  A type is found by its name, and that is a relation, not a search, because no
  two types have one name (`resolveType_eq_ok`).
-/
import Mathlib.Data.List.Pairwise
import Bindery.Proofs.Model.TypeChecks

namespace Bindery

open Naming Checked

variable {modules : List String} {types : List TypeDef}

/-! ## Uses of types -/

theorem TypesWellFormed.eq_of_name_eq (h : TypesWellFormed modules types) {s t : TypeDef}
    (hs : s ∈ types) (ht : t ∈ types) (hname : s.name = t.name) : s = t := by
  have hsymm : Std.Symm TypesApart := ⟨fun _ _ hab hba => hab hba.symm⟩
  by_contra hne
  exact h.apart.forall hs ht hne (congrArg lower hname)

theorem resolveType_eq_ok (h : TypesWellFormed modules types) {user : String} {v : Value}
    {t : TypeDef} : resolveType types user v = .ok t ↔ v = .str t.name ∧ t ∈ types := by
  cases v with
  | str name =>
    unfold resolveType
    rw [Value.str.injEq]
    dsimp only
    cases hfind : types.find? (·.name == name) with
    | none =>
      refine ⟨fun h => (nomatch h), ?_⟩
      rintro ⟨rfl, ht⟩
      exact absurd (beq_self_eq_true _) (List.find?_eq_none.1 hfind t ht)
    | some s =>
      have hs : s ∈ types := List.mem_of_find?_eq_some hfind
      have hname : s.name = name := by simpa using List.find?_some hfind
      show Except.ok s = Except.ok t ↔ _
      rw [Except.ok.injEq]
      constructor
      · rintro rfl
        exact ⟨hname.symm, hs⟩
      · rintro ⟨rfl, ht⟩
        exact h.eq_of_name_eq hs ht hname
  | _ => exact ⟨fun h => (written_bind_ne_ok h).elim, fun h => (nomatch h.1)⟩

theorem resolveType_eq_unwritable {user : String} {v : Value} :
    resolveType types user v = .error .unwritable ↔ v.Textless := by
  rw [← Value.plain_eq_none]
  cases v with
  | str name =>
    have hne : resolveType types user (.str name) ≠ .error .unwritable := by
      unfold resolveType
      dsimp only
      split <;> exact fun h => nomatch h
    exact ⟨fun h => absurd h hne, fun h => (nomatch h)⟩
  | _ => exact written_bind_eq_unwritable

/-! ## Parameters -/

theorem checkDirection_eq_ok {parameter : String} {v : Option Value} {d : Direction} :
    checkDirection parameter v = .ok d ↔ d.DescribedBy v := by
  cases v with
  | none => cases d <;> simp [checkDirection, Direction.DescribedBy]
  | some v =>
    cases v with
    | str word =>
      unfold checkDirection
      dsimp only
      by_cases hin : word = "in"
      · subst hin
        cases d <;> simp [Direction.DescribedBy]
      · by_cases hout : word = "out"
        · subst hout
          cases d <;> simp [Direction.DescribedBy]
        · cases d <;> simp [Direction.DescribedBy, hin, hout]
    | _ => cases d <;> simp [checkDirection, Direction.DescribedBy]

theorem checkDirection_ne_unwritable {parameter : String} {v : Option Value} :
    checkDirection parameter v ≠ .error .unwritable := by
  unfold checkDirection
  split
  · exact fun h => nomatch h
  · split
    · exact fun h => nomatch h
    · split <;> exact fun h => nomatch h
  · exact malformed_ne_unwritable

/-- The two tests on the name of a member, as one condition. -/
theorem memberNamed_iff {name : String} :
    ¬ (!isMemberName name || isReserved name) = true ↔ MemberNamed name := by
  rw [MemberNamed]
  cases isMemberName name <;> cases isReserved name <;> decide

theorem checkParameter_eq_ok (h : TypesWellFormed modules types) (function : String)
    (before : List Parameter) (v : Value) (p : Parameter) :
    checkParameter types function before v = .ok p ↔
      p.DescribedBy v ∧ p.WellFormed types ∧ ∀ q ∈ before, ParametersApart q p := by
  unfold checkParameter
  simp only [bind_eq_ok, Value.mapping_eq_ok, Value.textField_eq_ok, ite_invalid_eq_ok,
    memberNamed_iff, List.any_eq_true, beq_iff_eq, not_exists, not_and, checkDirection_eq_ok,
    resolveType_eq_ok h]
  constructor
  · rintro ⟨es, hes, name, hname, hmember, hfresh, d, hd, t, ⟨hfield, ht⟩, hp⟩
    cases hp
    exact ⟨⟨es, hes, hname, hd, hfield⟩, ⟨hmember, ht⟩, hfresh⟩
  · rintro ⟨⟨es, hes, hname, hd, hfield⟩, ⟨hmember, ht⟩, hfresh⟩
    exact ⟨es, hes, p.name, hname, hmember, hfresh, p.direction, hd, p.type, ⟨hfield, ht⟩, rfl⟩

theorem checkParameter_eq_unwritable (function : String) (before : List Parameter) (v : Value) :
    checkParameter types function before v = .error .unwritable ↔
      ParameterUnwritten before v := by
  unfold checkParameter
  simp only [bind_eq_error, Value.mapping_eq_ok, Value.mapping_ne_unwritable,
    Value.textField_eq_ok, Value.textField_ne_unwritable, false_or, ite_invalid_eq_unwritable,
    memberNamed_iff, List.any_eq_true, beq_iff_eq, not_exists, not_and, checkDirection_eq_ok,
    checkDirection_ne_unwritable, resolveType_eq_unwritable]
  constructor
  · rintro ⟨es, hes, name, hname, hmember, hfresh, d, hd, htext | ⟨t, _, h⟩⟩
    · exact ⟨es, name, hes, hname, hmember, hfresh, ⟨d, hd⟩, htext⟩
    · nomatch h
  · rintro ⟨es, name, hes, hname, hmember, hfresh, ⟨d, hd⟩, htext⟩
    exact ⟨es, hes, name, hname, hmember, hfresh, d, hd, Or.inl htext⟩

theorem each_checkParameter (types : List TypeDef) (function : String) (before : List Parameter)
    (vs : List Value) :
    checkParametersAfter types function before vs =
      each (checkParameter types function) before vs := by
  induction vs generalizing before with
  | nil => rfl
  | cons v vs ih =>
    rw [checkParametersAfter, each]
    simp only [ih]

theorem checkParameters_eq_ok (h : TypesWellFormed modules types) {function : String}
    {vs : List Value} {ps : List Parameter} :
    checkParametersAfter types function [] vs = .ok ps ↔
      Accepted Parameter.DescribedBy (Parameter.WellFormed types) ParametersApart ps vs := by
  rw [each_checkParameter]
  exact each_nil_eq_ok fun before _ => checkParameter_eq_ok h function before

theorem checkParameters_eq_unwritable (h : TypesWellFormed modules types) {function : String}
    {vs : List Value} :
    checkParametersAfter types function [] vs = .error .unwritable ↔
      StopsAt Parameter.DescribedBy (Parameter.WellFormed types) ParametersApart
        ParameterUnwritten vs := by
  rw [each_checkParameter]
  exact each_nil_eq_error (fun before _ => checkParameter_eq_ok h function before)
    (fun before _ => checkParameter_eq_unwritable function before)

/-! ## Results and marks -/

/-- The word for no result is the name of no type. -/
theorem TypesWellFormed.ne_void (h : TypesWellFormed modules types) {t : TypeDef}
    (ht : t ∈ types) : t.name ≠ "void" := by
  intro hname
  have hspelled := (h.each t ht).isTypeName
  rw [hname] at hspelled
  exact absurd hspelled (by decide)

theorem checkReturns_of_ne {function : String} {v : Value} (hnull : v ≠ .null)
    (hvoid : v ≠ .str "void") :
    checkReturns types function (some v) =
      some <$> resolveType types (function ++ " -> return") v := by
  unfold checkReturns
  split <;> simp_all

theorem checkReturns_eq_ok (h : TypesWellFormed modules types) {function : String}
    {es : List (Value × Value)} {returns : Option TypeDef} :
    checkReturns types function (Value.lookup? "returns" es) = .ok returns ↔
      ReturnsDescribedBy returns (Value.fieldOf "returns" es) ∧
        ∀ t, returns = some t → t ∈ types := by
  have hnone : ∀ v, v = .null ∨ v = .str "void" →
      ((Except.ok none : Checked (Option TypeDef)) = .ok returns ↔
        ReturnsDescribedBy returns v ∧ ∀ t, returns = some t → t ∈ types) := by
    intro v hv
    cases returns with
    | none => exact ⟨fun _ => ⟨hv, fun _ h => nomatch h⟩, fun _ => rfl⟩
    | some t =>
      refine ⟨fun h => (nomatch h), fun ⟨hd, ht⟩ => ?_⟩
      rcases hv with rfl | rfl
      · nomatch hd
      · exact absurd (Value.str.inj hd).symm (h.ne_void (ht t rfl))
  have hsome : ∀ v, v ≠ .null → v ≠ .str "void" →
      (some <$> resolveType types (function ++ " -> return") v = .ok returns ↔
        ReturnsDescribedBy returns v ∧ ∀ t, returns = some t → t ∈ types) := by
    intro v hnull hvoid
    simp only [map_eq_ok, resolveType_eq_ok h]
    constructor
    · rintro ⟨t, ⟨hv, ht⟩, rfl⟩
      exact ⟨hv, fun _ h => Option.some.inj h ▸ ht⟩
    · rintro ⟨hd, ht⟩
      cases returns with
      | none => rcases hd with rfl | rfl <;> contradiction
      | some t => exact ⟨t, ⟨hd, ht t rfl⟩, rfl⟩
  unfold Value.fieldOf
  cases Value.lookup? "returns" es with
  | none => exact hnone _ (Or.inl rfl)
  | some v =>
    by_cases hnull : v = .null
    · subst hnull
      exact hnone _ (Or.inl rfl)
    by_cases hvoid : v = .str "void"
    · subst hvoid
      exact hnone _ (Or.inr rfl)
    rw [checkReturns_of_ne hnull hvoid]
    exact hsome v hnull hvoid

theorem checkReturns_eq_unwritable {function : String} {es : List (Value × Value)} :
    checkReturns types function (Value.lookup? "returns" es) = .error .unwritable ↔
      (Value.fieldOf "returns" es).Textless := by
  unfold Value.fieldOf
  cases Value.lookup? "returns" es with
  | none => exact ⟨fun h => (nomatch h), fun h => (nomatch h)⟩
  | some v =>
    by_cases hnull : v = .null
    · subst hnull
      exact ⟨fun h => (nomatch h), fun h => (nomatch h)⟩
    by_cases hvoid : v = .str "void"
    · subst hvoid
      exact ⟨fun h => (nomatch h), fun h => (nomatch h)⟩
    rw [checkReturns_of_ne hnull hvoid, map_eq_error, resolveType_eq_unwritable]
    exact Iff.rfl

theorem checkFallible_eq_ok {function : String} {v : Option Value} {b : Bool} :
    checkFallible function v = .ok b ↔ FallibleDescribedBy b v := by
  cases v with
  | none => simp [checkFallible, FallibleDescribedBy, eq_comm]
  | some v => cases v <;> simp [checkFallible, FallibleDescribedBy]

theorem checkFallible_ne_unwritable {function : String} {v : Option Value} :
    checkFallible function v ≠ .error .unwritable := by
  unfold checkFallible
  split <;> exact fun h => nomatch h

/-! ## Native arguments -/

theorem firstRepeated?_eq_none {seen names : List String} :
    firstRepeated? seen names = none ↔ names.Nodup ∧ ∀ name ∈ names, name ∉ seen := by
  induction names generalizing seen with
  | nil => simp [firstRepeated?]
  | cons name names ih =>
    unfold firstRepeated?
    by_cases hc : seen.contains name = true
    · rw [if_pos hc]
      refine ⟨fun h => (nomatch h), fun h => ?_⟩
      exact absurd (List.contains_iff_mem.1 hc) (h.2 name List.mem_cons_self)
    · rw [if_neg hc, ih, List.nodup_cons, List.forall_mem_cons]
      rw [List.contains_iff_mem] at hc
      simp only [List.mem_cons, not_or]
      constructor
      · rintro ⟨hnd, hout⟩
        exact ⟨⟨fun hm => (hout name hm).1 rfl, hnd⟩, hc, fun n hn => (hout n hn).2⟩
      · rintro ⟨⟨hnew, hnd⟩, _, hout⟩
        exact ⟨hnd, fun n hn => ⟨fun e => hnew (e ▸ hn), hout n hn⟩⟩

theorem Parameter.slots_map_name (p : Parameter) :
    p.argument.slots.map (·.name) = p.nativeNames := by
  obtain ⟨name, ⟨tname, shape, placement⟩, direction⟩ := p
  cases direction <;> cases shape <;> rfl

theorem Function.slots_map_name (f : Function) : f.slots.map (·.name) = f.nativeNames := by
  unfold Function.slots Function.arguments Function.nativeNames
  rw [List.flatMap_append, List.map_append, List.flatMap_map, List.map_flatMap]
  simp only [Parameter.slots_map_name]
  cases f.returns <;> rfl

theorem checkSlots_eq_ok {f : Function} : checkSlots f = .ok () ↔ f.nativeNames.Nodup := by
  have h : firstRepeated? [] f.nativeNames = none ↔ f.nativeNames.Nodup := by
    simp [firstRepeated?_eq_none]
  unfold checkSlots
  rw [Function.slots_map_name, ← h]
  cases firstRepeated? [] f.nativeNames with
  | none => exact ⟨fun _ => rfl, fun _ => rfl⟩
  | some name => exact ⟨fun h => (nomatch h), fun h => (nomatch h)⟩

theorem checkSlots_ne_unwritable {f : Function} : checkSlots f ≠ .error .unwritable := by
  unfold checkSlots
  split <;> rintro ⟨⟩

/-! ## Functions -/

theorem checkFunction_eq_ok (h : TypesWellFormed modules types) (module : String)
    (before : List Function) (v : Value) (f : Function) :
    checkFunction types module before v = .ok f ↔
      f.DescribedBy v ∧ f.FitsIn types module ∧ ∀ g ∈ before, FunctionsApart g f := by
  unfold checkFunction
  simp only [bind_eq_ok, Value.mapping_eq_ok, Value.textField_eq_ok, ite_invalid_eq_ok,
    memberNamed_iff, List.any_eq_true, beq_iff_eq, not_exists, not_and, Value.listField_eq_ok,
    checkParameters_eq_ok h, checkReturns_eq_ok h, checkFallible_eq_ok]
  constructor
  · rintro ⟨es, hes, name, hname, hmember, hfresh, vs, hvs, ps, hps, returns, ⟨hr, hrt⟩,
      fallible, hf, _, hslots, hfun⟩
    cases hfun
    refine ⟨⟨es, vs, hes, hname, hvs, hps.means, hr, hf⟩, ⟨?_, rfl⟩, hfresh⟩
    exact ⟨hmember, hps.good, hps.apart, hrt, checkSlots_eq_ok.1 hslots⟩
  · rintro ⟨⟨es, vs, hes, hname, hvs, hmeans, hr, hf⟩, ⟨hw, rfl⟩, hfresh⟩
    exact ⟨es, hes, f.name, hname, hw.named, hfresh, vs, hvs, f.parameters,
      ⟨hmeans, hw.parameters, hw.distinct⟩, f.returns, ⟨hr, hw.returns⟩, f.fallible, hf, (),
      checkSlots_eq_ok.2 hw.native, rfl⟩

theorem checkFunction_eq_unwritable (h : TypesWellFormed modules types) (module : String)
    (before : List Function) (v : Value) :
    checkFunction types module before v = .error .unwritable ↔
      FunctionUnwritten types before v := by
  unfold checkFunction
  simp only [bind_eq_error, Value.mapping_eq_ok, Value.mapping_ne_unwritable,
    Value.textField_eq_ok, Value.textField_ne_unwritable, false_or, ite_invalid_eq_unwritable,
    memberNamed_iff, List.any_eq_true, beq_iff_eq, not_exists, not_and, Value.listField_eq_ok,
    Value.listField_ne_unwritable, checkParameters_eq_ok h, checkParameters_eq_unwritable h,
    checkReturns_eq_unwritable, checkFallible_ne_unwritable, checkSlots_ne_unwritable]
  constructor
  · rintro ⟨es, hes, name, hname, hmember, hfresh, vs, hvs, hstop | ⟨ps, hps, htext | h⟩⟩
    · exact ⟨es, name, vs, hes, hname, hmember, hfresh, hvs, Or.inl hstop⟩
    · exact ⟨es, name, vs, hes, hname, hmember, hfresh, hvs, Or.inr ⟨⟨ps, hps⟩, htext⟩⟩
    · obtain ⟨_, _, _, _, _, _, h⟩ := h
      nomatch h
  · rintro ⟨es, name, vs, hes, hname, hmember, hfresh, hvs, hstop | ⟨⟨ps, hps⟩, htext⟩⟩
    · exact ⟨es, hes, name, hname, hmember, hfresh, vs, hvs, Or.inl hstop⟩
    · exact ⟨es, hes, name, hname, hmember, hfresh, vs, hvs, Or.inr ⟨ps, hps, Or.inl htext⟩⟩

theorem each_checkFunction (types : List TypeDef) (module : String) (before : List Function)
    (vs : List Value) :
    checkFunctionsAfter types module before vs =
      each (checkFunction types module) before vs := by
  induction vs generalizing before with
  | nil => rfl
  | cons v vs ih =>
    rw [checkFunctionsAfter, each]
    simp only [ih]

theorem checkFunctions_eq_ok (h : TypesWellFormed modules types) {module : String}
    {vs : List Value} {fs : List Function} :
    checkFunctionsAfter types module [] vs = .ok fs ↔
      Accepted Function.DescribedBy (Function.FitsIn types module) FunctionsApart fs vs := by
  rw [each_checkFunction]
  exact each_nil_eq_ok fun before _ => checkFunction_eq_ok h module before

theorem checkFunctions_eq_unwritable (h : TypesWellFormed modules types) {module : String}
    {vs : List Value} :
    checkFunctionsAfter types module [] vs = .error .unwritable ↔
      StopsAt Function.DescribedBy (Function.FitsIn types module) FunctionsApart
        (FunctionUnwritten types) vs := by
  rw [each_checkFunction]
  exact each_nil_eq_error (fun before _ => checkFunction_eq_ok h module before)
    (fun before _ => checkFunction_eq_unwritable h module before)

end Bindery
