/-
  ACCEPTANCE: which descriptions become models, and which models they become.

  The checks read a description from the first module name to the last function and stop at the
  first problem.  What they accept has no order in it: `ofDescription_eq_ok` says that a model
  comes out exactly when the description declares it and it is an API.  Of what they refuse, all
  has a message but for the descriptions of `Unwritten` (`ofDescription_eq_unwritable`).
-/
import Bindery.Proofs.Model.FunctionChecks

namespace Bindery

open Naming Checked

/-! ## Names of modules -/

/-- The two tests on the name of a module, as one condition. -/
theorem moduleSpelled_iff {name : String} :
    ¬ (!isModuleName name || isReservedModule name) = true ↔ ModuleSpelled name := by
  rw [ModuleSpelled]
  cases isModuleName name <;> cases isReservedModule name <;> decide

theorem checkModuleName_eq_ok (before : List String) (v : Value) (name : String) :
    checkModuleName before v = .ok name ↔
      ModuleNamed name v ∧ ModuleSpelled name ∧ ∀ b ∈ before, b ≠ name := by
  unfold checkModuleName ModuleNamed
  simp only [bind_eq_ok, Value.mapping_eq_ok, Value.textField_eq_ok, ite_invalid_eq_ok,
    moduleSpelled_iff, List.contains_iff_mem]
  constructor
  · rintro ⟨es, hes, name', hname, hspelled, hfresh, h⟩
    cases h
    exact ⟨⟨es, hes, hname⟩, hspelled, fun b hb e => hfresh (e ▸ hb)⟩
  · rintro ⟨⟨es, hes, hname⟩, hspelled, hfresh⟩
    exact ⟨es, hes, name, hname, hspelled, fun hm => hfresh name hm rfl, rfl⟩

theorem checkModuleName_ne_unwritable (before : List String) (v : Value) :
    checkModuleName before v ≠ .error .unwritable := by
  unfold checkModuleName
  simp only [Ne, bind_eq_error, Value.mapping_ne_unwritable, Value.textField_ne_unwritable,
    false_or, ite_invalid_eq_unwritable]
  rintro ⟨_, _, _, _, _, _, h⟩
  nomatch h

theorem each_checkModuleName (before : List String) (vs : List Value) :
    checkModuleNamesAfter before vs = each checkModuleName before vs := by
  induction vs generalizing before with
  | nil => rfl
  | cons v vs ih =>
    rw [checkModuleNamesAfter, each]
    simp only [ih]

theorem checkModuleNames_eq_ok {vs : List Value} {names : List String} :
    checkModuleNamesAfter [] vs = .ok names ↔
      Accepted ModuleNamed ModuleSpelled (· ≠ ·) names vs := by
  rw [each_checkModuleName]
  exact each_nil_eq_ok fun before _ => checkModuleName_eq_ok before

theorem checkModuleNames_ne_unwritable {vs : List Value} :
    checkModuleNamesAfter [] vs ≠ .error .unwritable := by
  rw [each_checkModuleName]
  intro h
  obtain ⟨_, v, _, before, _, _, hv⟩ := each_eq_error.1 h
  exact checkModuleName_ne_unwritable _ v hv

/-! ## Modules -/

section

variable {modules : List String} {types : List TypeDef}

theorem checkModule_eq_ok (h : TypesWellFormed modules types) (v : Value) (m : Module) :
    checkModule types v = .ok m ↔ m.DescribedBy v ∧ m.WellFormed types := by
  unfold checkModule
  simp only [bind_eq_ok, Value.mapping_eq_ok, Value.textField_eq_ok, Value.listField_eq_ok,
    checkFunctions_eq_ok h]
  constructor
  · rintro ⟨es, hes, name, hname, vs, hvs, fs, hfs, hm⟩
    cases hm
    exact ⟨⟨es, vs, hes, hname, hvs, hfs.means⟩, ⟨hfs.good, hfs.apart⟩⟩
  · rintro ⟨⟨es, vs, hes, hname, hvs, hmeans⟩, hw⟩
    exact ⟨es, hes, m.name, hname, vs, hvs, m.functions, ⟨hmeans, hw.functions, hw.distinct⟩, rfl⟩

theorem checkModule_eq_unwritable (h : TypesWellFormed modules types) (v : Value) :
    checkModule types v = .error .unwritable ↔ ModuleUnwritten types v := by
  unfold checkModule
  simp only [bind_eq_error, Value.mapping_eq_ok, Value.mapping_ne_unwritable,
    Value.textField_eq_ok, Value.textField_ne_unwritable, false_or, Value.listField_eq_ok,
    Value.listField_ne_unwritable, checkFunctions_eq_unwritable h]
  constructor
  · rintro ⟨es, hes, name, hname, vs, hvs, hstop | ⟨fs, _, h⟩⟩
    · exact ⟨es, name, vs, hes, hname, hvs, hstop⟩
    · nomatch h
  · rintro ⟨es, name, vs, hes, hname, hvs, hstop⟩
    exact ⟨es, hes, name, hname, vs, hvs, Or.inl hstop⟩

theorem each_checkModule (types : List TypeDef) (vs : List Value) :
    checkModules types vs = each (fun _ => checkModule types) [] vs := by
  have hcons : ∀ (_ : List Module) v vs, checkModules types (v :: vs) =
      (do let m ← checkModule types v; return m :: (← checkModules types vs)) :=
    fun _ _ _ => rfl
  rw [each_eq_map (fun _ => checkModule types) (fun _ => checkModules types) (fun _ => rfl)
    hcons [] vs]
  exact (id_map _).symm

/-- Names of modules are compared where the names are checked, and not again here. -/
theorem checkModule_eq_ok_behind (h : TypesWellFormed modules types) (before : List Module)
    (_ : ∀ m ∈ before, m.WellFormed types) (v : Value) (m : Module) :
    checkModule types v = .ok m ↔
      m.DescribedBy v ∧ m.WellFormed types ∧ ∀ b ∈ before, (fun _ _ => True) b m := by
  simp only [implies_true, and_true]
  exact checkModule_eq_ok h v m

theorem checkModules_eq_ok (h : TypesWellFormed modules types) {vs : List Value}
    {ms : List Module} :
    checkModules types vs = .ok ms ↔
      Accepted Module.DescribedBy (Module.WellFormed types) (fun _ _ => True) ms vs := by
  rw [each_checkModule]
  exact each_nil_eq_ok (checkModule_eq_ok_behind h)

theorem checkModules_eq_unwritable (h : TypesWellFormed modules types) {vs : List Value} :
    checkModules types vs = .error .unwritable ↔
      StopsAt Module.DescribedBy (Module.WellFormed types) (fun _ _ => True)
        (fun _ => ModuleUnwritten types) vs := by
  rw [each_checkModule]
  exact each_nil_eq_error (checkModule_eq_ok_behind h) (fun _ _ => checkModule_eq_unwritable h)

end

/-! ## Whole descriptions -/

theorem moduleNamed_of_describedBy {ms : List Module} {vs : List Value}
    (h : List.Forall₂ Module.DescribedBy ms vs) :
    List.Forall₂ ModuleNamed (ms.map (·.name)) vs := by
  rw [List.forall₂_map_left_iff]
  refine h.imp ?_
  rintro m v ⟨es, _, hes, hname, _⟩
  exact ⟨es, hes, hname⟩

theorem ModuleNamed.unique {s t : String} {v : Value} (hs : ModuleNamed s v)
    (ht : ModuleNamed t v) : s = t := by
  obtain ⟨es, hes, hs⟩ := hs
  obtain ⟨es', hes', ht⟩ := ht
  rw [hes] at hes'
  cases hes'
  rw [hs] at ht
  exact Option.some.inj ht

/-- The names that are checked first are those of the modules that are checked last. -/
theorem moduleNames_eq {names : List String} {ms : List Module} {vs : List Value}
    (hnames : List.Forall₂ ModuleNamed names vs) (hms : List.Forall₂ Module.DescribedBy ms vs) :
    ms.map (·.name) = names := by
  induction hnames generalizing ms with
  | nil =>
    cases hms
    rfl
  | cons hn _ ih =>
    cases hms with
    | cons hm hms =>
      obtain ⟨es, _, hes, hname, _⟩ := hm
      rw [List.map_cons, ih hms, ModuleNamed.unique ⟨es, hes, hname⟩ hn]

theorem Checked.Accepted.typesWellFormed {names : List String} {types : List TypeDef}
    {vs : List Value}
    (h : Accepted TypeDef.DescribedBy (TypeDef.WellFormed names) TypesApart types vs) :
    TypesWellFormed names types := ⟨h.good, h.apart⟩

/-- A model comes out of a description exactly when the description declares it and it is an
API. -/
theorem ofDescription_eq_ok {es : List (Value × Value)} {m : Model} :
    Model.ofDescription es = .ok m ↔ m.DescribedBy es ∧ m.WellFormed := by
  unfold Model.ofDescription
  simp only [bind_eq_ok, Value.listField_eq_ok, checkModuleNames_eq_ok, checkTypes_eq_ok]
  constructor
  · rintro ⟨ws, hws, names, hnames, vs, hvs, types, htypes, ms, hms, hm⟩
    have hms := (checkModules_eq_ok htypes.typesWellFormed).1 hms
    cases hm
    obtain rfl := moduleNames_eq hnames.means hms.means
    exact ⟨⟨vs, ws, hvs, htypes.means, hws, hms.means⟩,
      ⟨hnames.good, hnames.apart, htypes.typesWellFormed, hms.good⟩⟩
  · rintro ⟨⟨vs, ws, hvs, htypes, hws, hms⟩, hw⟩
    refine ⟨ws, hws, m.moduleNames, ⟨moduleNamed_of_describedBy hms, hw.spelled, hw.distinct⟩,
      vs, hvs, m.types, ⟨htypes, hw.types.each, hw.types.apart⟩, m.modules, ?_, rfl⟩
    refine (checkModules_eq_ok hw.types).2 ⟨hms, hw.modules, ?_⟩
    exact List.pairwise_of_forall fun _ _ => trivial

/-- A description is refused without a message exactly when its first problem has no text. -/
theorem ofDescription_eq_unwritable {es : List (Value × Value)} :
    Model.ofDescription es = .error .unwritable ↔ Unwritten es := by
  unfold Model.ofDescription
  simp only [bind_eq_error, Value.listField_eq_ok, Value.listField_ne_unwritable, false_or,
    checkModuleNames_eq_ok, checkModuleNames_ne_unwritable, checkTypes_eq_ok,
    checkTypes_eq_unwritable]
  constructor
  · rintro ⟨ws, hws, names, hnames, vs, hvs, hstop | ⟨types, htypes, hstop | ⟨_, _, h⟩⟩⟩
    · exact ⟨ws, names, vs, hws, hnames, hvs, Or.inl hstop⟩
    · rw [checkModules_eq_unwritable htypes.typesWellFormed] at hstop
      exact ⟨ws, names, vs, hws, hnames, hvs, Or.inr ⟨types, htypes, hstop⟩⟩
    · nomatch h
  · rintro ⟨ws, names, vs, hws, hnames, hvs, hstop | ⟨types, htypes, hstop⟩⟩
    · exact ⟨ws, hws, names, hnames, vs, hvs, Or.inl hstop⟩
    · rw [← checkModules_eq_unwritable htypes.typesWellFormed] at hstop
      exact ⟨ws, hws, names, hnames, vs, hvs, Or.inr ⟨types, htypes, Or.inl hstop⟩⟩

/-- **The checks decide validity.**  A model comes out exactly where the description declares it
and it is an API, the checks end without a message exactly where the first problem is a value
that has no text, and every other description is refused as malformed or invalid. -/
theorem ofDescription_decides (es : List (Value × Value)) :
    (∀ m, Model.ofDescription es = .ok m ↔ m.DescribedBy es ∧ m.WellFormed) ∧
      (Model.ofDescription es = .error .unwritable ↔ Unwritten es) ∧
      (((∃ cause, Model.ofDescription es = .error (.malformed cause)) ∨
          ∃ cause, Model.ofDescription es = .error (.invalid cause)) ↔
        ¬ ValidDescription es ∧ ¬ Unwritten es) := by
  refine ⟨fun m => ofDescription_eq_ok, ofDescription_eq_unwritable, ?_⟩
  have hvalid : ValidDescription es ↔ ∃ m, Model.ofDescription es = .ok m :=
    exists_congr fun m => ofDescription_eq_ok.symm
  rw [hvalid, ← ofDescription_eq_unwritable]
  cases Model.ofDescription es with
  | ok m => simp
  | error e => cases e <;> simp

end Bindery
