/-
  THE FIRST FAULT DECIDES.

  A description is read three times: for the names of its modules, for its types, and for the
  functions of module after module.  The fault that comes out belongs to one SPOT of the
  description, and it depends on what the checks have read up to there and on nothing else:

  * the name of a module depends on the names of the modules before it;
  * a type depends on the names of all modules and on the types before it;
  * a function depends on the names of all modules, on all types, on the modules before its own
    and on the functions before it.

  `FoundAt` says at which spot a fault is found, `AgreesUpTo` what two descriptions must have in
  common for the checks to come to the same spot in the same way.  That they do then end with the
  same fault is a statement about two runs; it is proved for one chain of checks (`FailsAt.congr`)
  and carried through the three passes.
-/
import Bindery.Proofs.Model.Acceptance

namespace Bindery

open Checked

/-! ## One chain -/

namespace Checked

variable {α : Type} {check : List α → Value → Checked α} {vs vs' : List Value} {e : ModelFault}
  {i : Nat}

/-- `FailsAt check vs e i` — the values before value `i` pass, and value `i` behind them fails with
this fault. -/
def FailsAt (check : List α → Value → Checked α) (vs : List Value) (e : ModelFault) (i : Nat) :
    Prop :=
  ∃ before v, vs[i]? = some v ∧ each check [] (vs.take i) = .ok before ∧ check before v = .error e

theorem each_nil_eq_ok_iff {as : List α} : each check [] vs = .ok as ↔ Passes check [] vs as := by
  rw [each_eq_ok]
  constructor
  · rintro ⟨as, rfl, h⟩
    exact h
  · exact fun h => ⟨as, rfl, h⟩

/-- A chain fails with the fault of the one value where it stops. -/
theorem each_eq_error_iff_failsAt : each check [] vs = .error e ↔ ∃ i, FailsAt check vs e i := by
  rw [each_eq_error]
  constructor
  · rintro ⟨front, v, rest, as, rfl, hpass, hv⟩
    refine ⟨front.length, as, v, by simp, ?_, hv⟩
    rw [List.take_left]
    exact each_nil_eq_ok_iff.2 hpass
  · rintro ⟨i, as, v, hi, hpass, hv⟩
    obtain ⟨hlt, rfl⟩ := List.getElem?_eq_some_iff.1 hi
    refine ⟨vs.take i, vs[i], vs.drop (i + 1), as, ?_, each_nil_eq_ok_iff.1 hpass, hv⟩
    rw [← List.drop_eq_getElem_cons hlt, List.take_append_drop]

/-- Where a chain stops depends on nothing behind it. -/
theorem FailsAt.congr (h : FailsAt check vs e i) (hsame : vs'.take (i + 1) = vs.take (i + 1)) :
    FailsAt check vs' e i := by
  obtain ⟨before, v, hi, hpass, hv⟩ := h
  refine ⟨before, v, ?_, ?_, hv⟩
  · rw [← List.getElem?_take_of_lt (Nat.lt_succ_self i), hsame,
      List.getElem?_take_of_lt (Nat.lt_succ_self i), hi]
  · have htake := congrArg (List.take i) hsame
    rw [List.take_take, List.take_take, Nat.min_eq_left (Nat.le_succ i)] at htake
    rw [htake, hpass]

end Checked

/-! ## Spots -/

/-- The places of a description at which its checks can end. -/
inductive Spot where
  /-- The field for the modules. -/
  | modules
  /-- The name of a module. -/
  | moduleName (i : Nat)
  /-- The field for the types. -/
  | types
  /-- A type. -/
  | type (i : Nat)
  /-- The field for the functions of a module. -/
  | functions (j : Nat)
  /-- A function of a module. -/
  | function (j k : Nat)
  deriving DecidableEq, Repr

/-- The check of a type behind others. -/
def checkTypeBehind (modules : List String) (before : List TypeDef) (v : Value) :
    Checked TypeDef :=
  checkType modules before (Value.placeAt "types" before.length) v

/-- The first pass ends with these names. -/
def NamesPass (es : List (Value × Value)) (names : List String) : Prop :=
  ∃ ms, Value.listOf? "modules" es = some ms ∧ checkModuleNamesAfter [] ms = .ok names

/-- The first two passes end with these types. -/
def TypesPass (es : List (Value × Value)) (types : List TypeDef) : Prop :=
  ∃ names vs, NamesPass es names ∧ Value.listOf? "types" es = some vs ∧
    checkTypes names vs = .ok types

/-- The third pass comes to module `j`, which has this name and these fields. -/
def ModuleReached (es : List (Value × Value)) (types : List TypeDef) (j : Nat) (name : String)
    (fields : List (Value × Value)) : Prop :=
  TypesPass es types ∧
    ∃ ms v before, Value.listOf? "modules" es = some ms ∧ ms[j]? = some v ∧
      checkModules types (ms.take j) = .ok before ∧ v.entries? = some fields ∧
      Value.textOf? "name" fields = some name

/-- `FoundAt es e spot` — all that is read before the spot passes, and the check there ends with
this fault. -/
def FoundAt (es : List (Value × Value)) (e : ModelFault) : Spot → Prop
  | .modules => Value.listField topPlace "modules" es = .error e
  | .moduleName i =>
    ∃ ms, Value.listOf? "modules" es = some ms ∧ FailsAt checkModuleName ms e i
  | .types => ∃ names, NamesPass es names ∧ Value.listField topPlace "types" es = .error e
  | .type i =>
    ∃ names vs, NamesPass es names ∧ Value.listOf? "types" es = some vs ∧
      FailsAt (checkTypeBehind names) vs e i
  | .functions j =>
    ∃ types name fields, ModuleReached es types j name fields ∧
      Value.listField name "functions" fields = .error e
  | .function j k =>
    ∃ types name fields fs, ModuleReached es types j name fields ∧
      Value.listOf? "functions" fields = some fs ∧ FailsAt (checkFunction types name) fs e k

/-! ## What two descriptions have in common -/

/-- The name that a value declares a module of. -/
def moduleNameOf? (v : Value) : Option String := v.entries?.bind (Value.textOf? "name")

/-- The lists in this field are the same, or neither description has a list there. -/
def SameList (key : String) (es es' : List (Value × Value)) : Prop :=
  Value.listOf? key es' = Value.listOf? key es

/-- The lists in this field begin with the same `n` values, or are the same if one is shorter. -/
def SameStart (n : Nat) (key : String) (es es' : List (Value × Value)) : Prop :=
  ∃ vs vs', Value.listOf? key es = some vs ∧ Value.listOf? key es' = some vs' ∧
    vs'.take n = vs.take n

/-- Modules of the same names in the same order, with the same values before module `j`, and with
`same` between the fields of the two modules `j`. -/
def SameModules (j : Nat) (same : List (Value × Value) → List (Value × Value) → Prop)
    (es es' : List (Value × Value)) : Prop :=
  ∃ ms ms', Value.listOf? "modules" es = some ms ∧ Value.listOf? "modules" es' = some ms' ∧
    ms'.map moduleNameOf? = ms.map moduleNameOf? ∧ ms'.take j = ms.take j ∧
    ∀ v v' fields fields', ms[j]? = some v → ms'[j]? = some v' → v.entries? = some fields →
      v'.entries? = some fields' → same fields fields'

/-- `AgreesUpTo es es' spot` — the descriptions agree in what the checks read up to the spot. -/
def AgreesUpTo (es es' : List (Value × Value)) : Spot → Prop
  | .modules => SameList "modules" es es'
  | .moduleName i => SameStart (i + 1) "modules" es es'
  | .types => SameList "modules" es es' ∧ SameList "types" es es'
  | .type i => SameList "modules" es es' ∧ SameStart (i + 1) "types" es es'
  | .functions j => SameList "types" es es' ∧ SameModules j (SameList "functions") es es'
  | .function j k =>
    SameList "types" es es' ∧ SameModules j (SameStart (k + 1) "functions") es es'

section

variable {es es' : List (Value × Value)} {key place : String}

/-- A field that is no list has one fault, whatever it is. -/
theorem listField_eq_of_listOf? :
    Value.listField place key es =
      match Value.listOf? key es with
      | some vs => .ok vs
      | none => malformed (.notList place key) := by
  unfold Value.listField Value.listOf?
  cases Value.lookup? key es with
  | none => rfl
  | some v =>
    cases hv : v.items? with
    | some items => simp [hv]
    | none => cases ha : v.isAbsent <;> simp [hv, ha]

theorem SameList.listField (h : SameList key es es') :
    Value.listField place key es' = Value.listField place key es := by
  rw [listField_eq_of_listOf?, listField_eq_of_listOf?, h]

theorem SameStart.failsAt {α : Type} {check : List α → Value → Checked α} {e : ModelFault}
    {i : Nat} {vs : List Value} (h : SameStart (i + 1) key es es')
    (hvs : Value.listOf? key es = some vs) (hfail : FailsAt check vs e i) :
    ∃ vs', Value.listOf? key es' = some vs' ∧ FailsAt check vs' e i := by
  obtain ⟨_, vs', hws, hvs', hsame⟩ := h
  obtain rfl := Option.some.inj (hws.symm.trans hvs)
  exact ⟨vs', hvs', hfail.congr hsame⟩

end

/-! ## Where a fault is found -/

theorem moduleNamed_iff_nameOf? {name : String} {v : Value} :
    ModuleNamed name v ↔ moduleNameOf? v = some name :=
  Option.bind_eq_some_iff.symm

theorem forall₂_moduleNamed_iff {names : List String} {ms : List Value} :
    List.Forall₂ ModuleNamed names ms ↔ ms.map moduleNameOf? = names.map some := by
  rw [eq_comm, ← List.forall₂_eq_eq_eq, List.forall₂_map_left_iff, List.forall₂_map_right_iff]
  have h : ModuleNamed = fun name v => some name = moduleNameOf? v := by
    funext name v
    exact propext (moduleNamed_iff_nameOf?.trans eq_comm)
  rw [h]

theorem checkModule_eq_error {types : List TypeDef} {v : Value} {e : ModelFault} {name : String}
    (hname : ModuleNamed name v) :
    checkModule types v = .error e ↔
      ∃ fields, v.entries? = some fields ∧ Value.textOf? "name" fields = some name ∧
        (Value.listField name "functions" fields = .error e ∨
          ∃ fs, Value.listOf? "functions" fields = some fs ∧
            ∃ k, FailsAt (checkFunction types name) fs e k) := by
  obtain ⟨fields, hfields, hname⟩ := hname
  have hmapping : v.mapping "modules" = .ok fields := Value.mapping_eq_ok.2 hfields
  have htext : Value.textField "modules" "name" fields = .ok name := Value.textField_eq_ok.2 hname
  have hcheck : checkModule types v = do
      let fs ← Value.listField name "functions" fields
      return ⟨name, ← checkFunctionsAfter types name [] fs⟩ := by
    rw [checkModule, hmapping]
    show (Value.textField "modules" "name" fields >>= _) = _
    rw [htext]
    rfl
  have hlast : ∀ fs, (do return ⟨name, ← checkFunctionsAfter types name [] fs⟩ : Checked Module) =
      .error e ↔ checkFunctionsAfter types name [] fs = .error e := fun _ => bind_ok_eq_error
  rw [hcheck, bind_eq_error]
  simp only [hlast, Value.listField_eq_ok]
  simp only [each_checkFunction, each_eq_error_iff_failsAt, hfields, Option.some.injEq,
    exists_eq_left', hname, true_and]

theorem checkModules_eq_error {types : List TypeDef} {ms : List Value} {e : ModelFault} :
    checkModules types ms = .error e ↔
      ∃ j v before, ms[j]? = some v ∧ checkModules types (ms.take j) = .ok before ∧
        checkModule types v = .error e := by
  simp only [each_checkModule, each_eq_error_iff_failsAt]
  refine exists_congr fun j => ?_
  exact ⟨fun ⟨before, v, h⟩ => ⟨v, before, h⟩, fun ⟨v, before, h⟩ => ⟨before, v, h⟩⟩

/-- The three passes, as the ways to fail. -/
theorem ofDescription_eq_error_iff {es : List (Value × Value)} {e : ModelFault} :
    Model.ofDescription es = .error e ↔
      Value.listField topPlace "modules" es = .error e ∨
        ∃ ms, Value.listOf? "modules" es = some ms ∧
          (checkModuleNamesAfter [] ms = .error e ∨
            ∃ names, checkModuleNamesAfter [] ms = .ok names ∧
              (Value.listField topPlace "types" es = .error e ∨
                ∃ vs, Value.listOf? "types" es = some vs ∧
                  (checkTypes names vs = .error e ∨
                    ∃ types, checkTypes names vs = .ok types ∧
                      checkModules types ms = .error e))) := by
  have hlast : ∀ (types : List TypeDef) (ms : List Value),
      (do let modules ← checkModules types ms; return (⟨types, modules⟩ : Model)) = .error e ↔
        checkModules types ms = .error e := fun _ _ => bind_ok_eq_error
  unfold Model.ofDescription
  simp only [bind_eq_error, Value.listField_eq_ok] at hlast ⊢
  simp only [hlast]

/-- A description whose third pass comes to a module that fails ends with that fault. -/
theorem ModuleReached.fails {es fields : List (Value × Value)} {types : List TypeDef} {j : Nat}
    {name : String} {e : ModelFault} (hreached : ModuleReached es types j name fields)
    (h : Value.listField name "functions" fields = .error e ∨
      ∃ fs, Value.listOf? "functions" fields = some fs ∧
        ∃ k, FailsAt (checkFunction types name) fs e k) :
    Model.ofDescription es = .error e := by
  obtain ⟨⟨names, vs, ⟨ms, hms, hnames⟩, hvs, htypes⟩, ms', v, before, hms', hv, hbefore,
    hfields, hname⟩ := hreached
  obtain rfl := Option.some.inj (hms.symm.trans hms')
  have hmodule : checkModule types v = .error e :=
    (checkModule_eq_error ⟨fields, hfields, hname⟩).2 ⟨fields, hfields, hname, h⟩
  have hmodules : checkModules types ms = .error e :=
    checkModules_eq_error.2 ⟨j, v, before, hv, hbefore, hmodule⟩
  exact ofDescription_eq_error_iff.2
    (Or.inr ⟨ms, hms, Or.inr ⟨names, hnames, Or.inr ⟨vs, hvs, Or.inr ⟨types, htypes, hmodules⟩⟩⟩⟩)

/-- What is found at a spot comes out. -/
theorem FoundAt.fails {es : List (Value × Value)} {e : ModelFault} {spot : Spot}
    (h : FoundAt es e spot) : Model.ofDescription es = .error e := by
  cases spot with
  | modules => exact ofDescription_eq_error_iff.2 (Or.inl h)
  | moduleName i =>
    obtain ⟨ms, hms, h⟩ := h
    have hnames : checkModuleNamesAfter [] ms = .error e := by
      rw [each_checkModuleName]
      exact each_eq_error_iff_failsAt.2 ⟨i, h⟩
    exact ofDescription_eq_error_iff.2 (Or.inr ⟨ms, hms, Or.inl hnames⟩)
  | types =>
    obtain ⟨names, ⟨ms, hms, hnames⟩, h⟩ := h
    exact ofDescription_eq_error_iff.2 (Or.inr ⟨ms, hms, Or.inr ⟨names, hnames, Or.inl h⟩⟩)
  | type i =>
    obtain ⟨names, vs, ⟨ms, hms, hnames⟩, hvs, h⟩ := h
    have htypes : checkTypes names vs = .error e := by
      rw [checkTypes, each_checkType]
      exact each_eq_error_iff_failsAt.2 ⟨i, h⟩
    exact ofDescription_eq_error_iff.2
      (Or.inr ⟨ms, hms, Or.inr ⟨names, hnames, Or.inr ⟨vs, hvs, Or.inl htypes⟩⟩⟩)
  | functions j =>
    obtain ⟨types, name, fields, hreached, h⟩ := h
    exact hreached.fails (Or.inl h)
  | function j k =>
    obtain ⟨types, name, fields, fs, hreached, hfs, h⟩ := h
    exact hreached.fails (Or.inr ⟨fs, hfs, k, h⟩)

/-! ## Two runs -/

section

variable {es es' : List (Value × Value)} {e : ModelFault}

theorem NamesPass.congr {names : List String} (h : NamesPass es names)
    (hsame : SameList "modules" es es') : NamesPass es' names := by
  obtain ⟨ms, hms, hnames⟩ := h
  exact ⟨ms, hsame.trans hms, hnames⟩

/-- The first pass looks at nothing of a module but its name. -/
theorem NamesPass.congr_names {names : List String} {same} {j : Nat} (h : NamesPass es names)
    (hsame : SameModules j same es es') : NamesPass es' names := by
  obtain ⟨ms, hms, hnames⟩ := h
  obtain ⟨_, ms', hws, hms', hnamed, -⟩ := hsame
  obtain rfl := Option.some.inj (hws.symm.trans hms)
  have hok := checkModuleNames_eq_ok.1 hnames
  have hmeans : List.Forall₂ ModuleNamed names ms' :=
    forall₂_moduleNamed_iff.2 (hnamed.trans (forall₂_moduleNamed_iff.1 hok.means))
  exact ⟨ms', hms', checkModuleNames_eq_ok.2 ⟨hmeans, hok.good, hok.apart⟩⟩

/-- The third pass comes to module `j` with what it had before, and finds a module of the same
name there. -/
theorem ModuleReached.congr {types : List TypeDef} {j : Nat} {name : String}
    {fields : List (Value × Value)} {same} (h : ModuleReached es types j name fields)
    (htypes : SameList "types" es es') (hmodules : SameModules j same es es') :
    ∃ fields', ModuleReached es' types j name fields' ∧ same fields fields' := by
  obtain ⟨⟨names, vs, hpass, hvs, hvstypes⟩, ms, v, before, hms, hv, hbefore, hfields, hname⟩ := h
  have hpass' : TypesPass es' types :=
    ⟨names, vs, hpass.congr_names hmodules, htypes.trans hvs, hvstypes⟩
  obtain ⟨_, ms', hws, hms', hnamed, htake, hfrom⟩ := hmodules
  obtain rfl := Option.some.inj (hws.symm.trans hms)
  have hv' : (ms'[j]?).map moduleNameOf? = some (some name) := by
    rw [← List.getElem?_map, hnamed, List.getElem?_map, hv]
    exact congrArg some (moduleNamed_iff_nameOf?.1 ⟨fields, hfields, hname⟩)
  obtain ⟨v', hv', hnamev⟩ := Option.map_eq_some_iff.1 hv'
  obtain ⟨fields', hfields', hname'⟩ := moduleNamed_iff_nameOf?.2 hnamev
  refine ⟨fields', ⟨hpass', ms', v', before, hms', hv', ?_, hfields', hname'⟩,
    hfrom v v' fields fields' hv hv' hfields hfields'⟩
  rw [htake, hbefore]

/-- Descriptions that agree up to the spot of a fault have the fault at the same spot. -/
theorem FoundAt.congr {spot : Spot} (h : FoundAt es e spot) (hsame : AgreesUpTo es es' spot) :
    FoundAt es' e spot := by
  cases spot with
  | modules => exact hsame.listField.trans h
  | moduleName i =>
    obtain ⟨ms, hms, h⟩ := h
    exact SameStart.failsAt hsame hms h
  | types =>
    obtain ⟨names, hpass, h⟩ := h
    exact ⟨names, hpass.congr hsame.1, hsame.2.listField.trans h⟩
  | type i =>
    obtain ⟨names, vs, hpass, hvs, h⟩ := h
    obtain ⟨vs', hvs', h'⟩ := hsame.2.failsAt hvs h
    exact ⟨names, vs', hpass.congr hsame.1, hvs', h'⟩
  | functions j =>
    obtain ⟨types, name, fields, hreached, h⟩ := h
    obtain ⟨fields', hreached', hfields⟩ := hreached.congr hsame.1 hsame.2
    exact ⟨types, name, fields', hreached', hfields.listField.trans h⟩
  | function j k =>
    obtain ⟨types, name, fields, fs, hreached, hfs, h⟩ := h
    obtain ⟨fields', hreached', hfields⟩ := hreached.congr hsame.1 hsame.2
    obtain ⟨fs', hfs', h'⟩ := hfields.failsAt hfs h
    exact ⟨types, name, fields', fs', hreached', hfs', h'⟩

end

end Bindery
