/-
  THE SCOPES OF THE NATIVE LAYERS: what exports and safe functions bind.

  What a body binds is read off its lines, and comes to a list that is made from the arguments.  An
  export binds its slots, and once more those that are checked, each to what the check makes of it.  A
  safe function binds its parameters, a value of its own for each that points somewhere, and the result
  where it has to wait for the outputs.

  What a safe function calls is read off as well: nothing that a local could be meant by
  (`Model.Foreign`).
-/
import Bindery.Proofs.Boundary.BoundNames

namespace Bindery

open Naming Source

/-! ## The export -/

/-- A text that goes on behind its first word with such a character. -/
theorem boundInRust?_of_head {name rest : String} {c : Char} (hname : Wordy name.toList)
    (hrest : rest.toList.head? = some c) (hword : isIdentifierChar c = false) (hblank : c ≠ ' ') :
    boundInRust? (name ++ rest) = none := by
  have hstops : Text.Stops isIdentifierChar rest.toList := by
    intro d hd
    rw [hrest] at hd
    cases hd
    exact hword
  refine boundInRust?_eq_none (Or.inr ?_)
  rw [behindWord_append hname hstops, hrest]
  exact fun h => hblank (Option.some.inj h)

theorem Store.boundInRust?_statement (store : Store) {target source : String}
    (htarget : Wordy target.toList) : boundInRust? (store.statement target source) = none := by
  obtain ⟨f, hf, rest, hbehind⟩ := store.behind_head source
  have hstart : ∀ {c : Char}, f.toList.head? = some c →
      (store.behind source).toList.head? = some c := by
    intro c hc
    rw [hbehind, String.toList_append, List.head?_append, hc]
    rfl
  rw [store.statement_eq]
  rcases (by decide : ∀ f ∈ fillings, f.toList.head? = some '.' ∨ f.toList.head? = some '[') f hf
    with h | h
  · exact boundInRust?_of_head htarget (hstart h) (by decide) (by decide)
  · exact boundInRust?_of_head htarget (hstart h) (by decide) (by decide)

theorem boundInRust?_typed {name : String} (hname : Wordy name.toList) (type : String) :
    boundInRust? (typed name type) = none := by
  have hread : typed name type = name ++ (": " ++ type) := String.append_assoc
  rw [hread]
  refine boundInRust?_of_head (c := ':') hname ?_ (by decide) (by decide)
  rw [String.toList_append]
  rfl

theorem parameterName?_typed {name : String} (hname : Wordy name.toList) (type : String) :
    parameterName? (typed name type) = some name := by
  have hread : typed name type = name ++ (": " ++ type) := String.append_assoc
  rw [hread]
  exact parameterName?_append hname

section

variable {m : Model} {f : Function}

theorem boundInRust?_callLine (f : Function) : boundInRust? f.callLine =
    if f.returns.isSome then some resultLabel else none := by
  have hcall : f.exported.call = "simpleapi" ++ ("::" ++ (f.safeSymbol ++
      inParens (commas (f.exported.passed.map (·.expression))) ++ ".map_err(ffi_return_code)?")) := by
    have hpath : "simpleapi::" = "simpleapi" ++ "::" := by decide
    show "simpleapi::" ++ f.safeSymbol ++ _ ++ _ = _
    rw [hpath]
    simp only [String.append_assoc]
  unfold Function.callLine
  split
  · have hread : "let " ++ resultLabel ++ " = " ++ f.exported.call ++ ";" =
        "let " ++ (resultLabel ++ (" = " ++ (f.exported.call ++ ";"))) := by
      simp only [String.append_assoc]
    rw [hread]
    exact boundInRust?_let (by decide) (stops_append (by decide) _) (by decide)
  -- Without a result the line starts with a path.
  · rw [String.empty_append, hcall, String.append_assoc, String.append_assoc]
    refine boundInRust?_of_head (c := ':') (by decide) ?_ (by decide) (by decide)
    rw [String.toList_append]
    rfl

theorem SlotCheck.boundInRust?_statement {c : SlotCheck} (hslot : Wordy c.slot.toList)
    (hne : c.slot ≠ "mut") : boundInRust? c.statement = some c.slot := by
  rw [c.statement_eq]
  exact boundInRust?_let hslot (stops_append ⟨c.opening_stops.2, c.opening_stops.1⟩ _) hne

theorem Argument.slot_check? {a : Argument} {c : SlotCheck} (h : a.check? = some c) :
    c.slot = a.name := by
  rw [← Argument.check?_slot h]
  cases c <;> rfl

/-- A check is one of an argument, and its slot has the name of that argument. -/
theorem exists_of_mem_checks {c : SlotCheck} (hc : c ∈ f.exported.checks) :
    ∃ a ∈ f.arguments, a.check? = some c ∧ c.slot = a.name := by
  obtain ⟨a, ha, hcheck⟩ := List.mem_filterMap.1 hc
  exact ⟨a, mem_readFirst.1 ha, hcheck, Argument.slot_check? hcheck⟩

namespace Function

/-- The slots of an export, line by line. -/
def exportParameters (f : Function) : List String :=
  f.slots.map fun slot => typed slot.name (slot.kind.rust ++ ",")

theorem exported_parameters (f : Function) :
    f.exported.slots.map (fun x => x.1 ++ ": " ++ x.2.rust ++ ",") = f.exportParameters := by
  show (f.slots.map _).map _ = _
  rw [List.map_map]
  exact List.map_congr_left fun slot _ => String.append_assoc

theorem textsAt_exportParameters (f : Function) : textsAt 1 f.exported.lines =
    f.exportParameters ++ ["ffi_guard(move || " ++ opening, closing ++ ")"] := by
  rw [← f.exported_parameters]
  simp [Export.lines]

theorem textsWithin_exported (f : Function) : textsWithin f.exported.lines =
    f.exportParameters ++ (["ffi_guard(move || " ++ opening] ++
      (f.exported.checks.map (·.statement) ++ ([f.callLine] ++ (f.storing ++ [closing ++ ")"])))) := by
  have hstatements := f.statements_eq
  rw [← f.exported_parameters]
  simp [Export.lines, hstatements, Function.comp_def]

end Function

/-- Each check binds its slot again. -/
theorem boundBy_checks (hm : m.WellFormed) (hf : f ∈ m.functions) :
    boundBy boundInRust? (f.exported.checks.map (·.statement)) =
      f.exported.checks.map fun c => (c.slot, c.statement) := by
  refine boundBy_map fun c hc => ?_
  obtain ⟨a, ha, _, hname⟩ := exists_of_mem_checks hc
  refine SlotCheck.boundInRust?_statement ?_ ?_ <;> rw [hname]
  · exact (hm.known hf ha).name
  · exact ne_of_isReserved (hm.free_name hf ha).2 (by decide)

/-- What an export binds: its slots, then again those that are checked, and the result. -/
theorem linewiseScope_exported (hm : m.WellFormed) (hf : f ∈ m.functions) :
    linewiseScope f.exported.lines = ⟨f.slots.map (·.name),
      f.exported.checks.map (fun c => (c.slot, c.statement)) ++
        (f.returns.map fun _ => (resultLabel, f.callLine)).toList⟩ := by
  have hslot : ∀ slot ∈ f.slots, Wordy slot.name.toList := fun slot h => hm.wordy_slot hf h
  have hparameters : (textsAt 1 f.exported.lines).filterMap parameterName? = f.slots.map (·.name) := by
    have hrest : ["ffi_guard(move || " ++ opening, closing ++ ")"].filterMap parameterName? = [] := by
      decide
    rw [f.textsAt_exportParameters, Function.exportParameters, List.filterMap_append, hrest,
      List.append_nil, List.filterMap_map, ← List.filterMap_eq_map]
    exact List.filterMap_congr fun slot h => parameterName?_typed (hslot slot h) _
  have hlocals : boundBy boundInRust? (textsWithin f.exported.lines) =
      f.exported.checks.map (fun c => (c.slot, c.statement)) ++
        (f.returns.map fun _ => (resultLabel, f.callLine)).toList := by
    have hguard : boundBy boundInRust? ["ffi_guard(move || " ++ opening] = [] := by decide
    have hclose : boundBy boundInRust? [closing ++ ")"] = [] := by decide
    have htyped : boundBy boundInRust? f.exportParameters = [] :=
      boundBy_eq_nil (List.forall_mem_map.2 fun slot h => boundInRust?_typed (hslot slot h) _)
    have hstoring : boundBy boundInRust? f.storing = [] :=
      boundBy_eq_nil (f.forall_storing (by decide) fun store =>
        store.boundInRust?_statement (by decide))
    have hcall : boundBy boundInRust? [f.callLine] =
        (f.returns.map fun _ => (resultLabel, f.callLine)).toList := by
      rw [boundBy, List.filterMap_cons, boundInRust?_callLine]
      cases f.returns <;> rfl
    rw [f.textsWithin_exported]
    simp only [boundBy_append, htyped, hguard, boundBy_checks hm hf, hcall, hstoring, hclose,
      List.nil_append, List.append_nil]
  unfold linewiseScope
  rw [hparameters, hlocals]

/-- No slot is checked twice, although the checks go through the arguments in another order. -/
theorem nodup_checks (hm : m.WellFormed) (hf : f ∈ m.functions) :
    (f.exported.checks.map (·.slot)).Nodup := by
  have hnames : ((readFirst f.arguments).map (·.name)).Nodup :=
    ((readFirst_perm f.arguments).map _).nodup_iff.2 (f.nodup_arguments (hm.function hf).native)
  refine List.pairwise_map.2 (List.pairwise_filterMap.2 ((List.pairwise_map.1 hnames).imp ?_))
  intro a b hne c hc d hd
  rw [Argument.slot_check? hc, Argument.slot_check? hd]
  exact hne

/-- What is bound twice by an export is bound to the checked value of the same slot. -/
theorem onceChecked_exported (hm : m.WellFormed) (hf : f ∈ m.functions) :
    (linewiseScope f.exported.lines).OnceChecked := by
  have hslots : (f.slots.map (·.name)).Nodup := by
    rw [f.slots_map_name]
    exact (hm.function hf).native
  have hresult : resultLabel ∉ f.exported.checks.map (·.slot) := by
    intro hmem
    obtain ⟨c, hc, hslot⟩ := List.mem_map.1 hmem
    obtain ⟨a, ha, _, hname⟩ := exists_of_mem_checks hc
    exact hm.own_ne hf ha (by decide : resultLabel ∈ ownNames) (hname.symm.trans hslot)
  rw [linewiseScope_exported hm hf]
  refine ⟨hslots, ?_, List.forall_mem_append.2 ⟨?_, ?_⟩⟩
  · have hlocals : (f.exported.checks.map (fun c => (c.slot, c.statement)) ++
        (f.returns.map fun _ => (resultLabel, f.callLine)).toList).map Prod.fst =
          f.exported.checks.map (·.slot) ++ (f.returns.map fun _ => resultLabel).toList := by
      rw [List.map_append, List.map_map]
      cases f.returns <;> rfl
    rw [hlocals]
    refine List.nodup_append.2 ⟨nodup_checks hm hf, ?_, ?_⟩
    · cases f.returns <;> simp
    · rintro x hx y hy rfl
      obtain ⟨t, _, rfl⟩ := Option.map_eq_some_iff.1 (Option.mem_toList.1 hy)
      exact hresult hx
  · refine List.forall_mem_map.2 fun c hc _ => ?_
    obtain ⟨a, ha, hcheck, _⟩ := exists_of_mem_checks hc
    obtain ⟨hslot, hargs⟩ := a.listItems hm (hm.known hf ha) (hm.free_name hf ha).1 hcheck
    have hfirst : ∃ args, c.told.2.2 = c.slot :: args := by cases c <;> exact ⟨_, rfl⟩
    obtain ⟨args, hfirst⟩ := hfirst
    refine ⟨c.told.2.1, (by decide : ∀ h ∈ checkHelpers, h ∈ Scope.checkers) _ c.helper_mem, args, ?_⟩
    rw [SlotCheck.callIn?_statement hslot hargs, ← hfirst]
  · rintro x hx hmem
    obtain ⟨t, _, rfl⟩ := Option.map_eq_some_iff.1 (Option.mem_toList.1 hx)
    obtain ⟨slot, hslot, hname⟩ := List.mem_map.1 hmem
    obtain ⟨a, ha, hcases⟩ := exists_of_mem_slots hslot
    rcases hcases with h | h
    · exact absurd (h.symm.trans hname) (hm.own_ne hf ha (by decide : resultLabel ∈ ownNames))
    · refine absurd (h.symm.trans hname) fun heq => ?_
      exact append_notMem (by decide : ∀ n ∈ [resultLabel], ¬ "Len".toList <:+ n.toList) a.name
        (List.mem_singleton.2 heq)

/-- All that an export binds is bindable, and has no underscore. -/
theorem bindable_exported (hm : m.WellFormed) (hf : f ∈ m.functions) :
    ∀ name ∈ (linewiseScope f.exported.lines).names, Bindable f name ∧ bars name = 0 := by
  have hargument : ∀ a ∈ f.arguments, Bindable f a.name ∧ bars a.name = 0 := fun a ha =>
    ⟨.argument ha, bars_of_plain (hm.plain_argument hf ha)⟩
  rw [linewiseScope_exported hm hf]
  refine List.forall_mem_append.2 ⟨List.forall_mem_map.2 fun slot hslot => ?_, ?_⟩
  · obtain ⟨a, ha, h | h⟩ := exists_of_mem_slots hslot
    · rw [h]
      exact hargument a ha
    · rw [h]
      exact ⟨.length ha, hm.bars_made hf ha _⟩
  · rw [List.map_append, List.map_map]
    refine List.forall_mem_append.2 ⟨List.forall_mem_map.2 fun c hc => ?_, ?_⟩
    · obtain ⟨a, ha, _, hname⟩ := exists_of_mem_checks hc
      show Bindable f c.slot ∧ bars c.slot = 0
      rw [hname]
      exact hargument a ha
    · intro name hname
      obtain ⟨x, hx, rfl⟩ := List.mem_map.1 hname
      obtain ⟨t, _, rfl⟩ := Option.map_eq_some_iff.1 (Option.mem_toList.1 hx)
      exact ⟨.own (by decide : resultLabel ∈ ownNames), (by decide : bars resultLabel = 0)⟩

end

/-! ## The safe function -/

/-- The local that a statement in front of the call makes. -/
def Prepare.binds? : Prepare → Option String
  | checkOutput _ _ => none
  | emptyArray parameter _ => some (valueLocal parameter)
  | zero parameter _ => some (valueLocal parameter)
  | copyInput parameter _ => some (valueLocal parameter)

theorem Prepare.boundInRust?_statement {p : Prepare} (h : p.Named) :
    boundInRust? p.statement = p.binds? := by
  have hblank : ∀ rest : String, Text.Stops isIdentifierChar (" = " ++ rest).toList :=
    stops_append (by decide)
  have hcolon : ∀ rest : String, Text.Stops isIdentifierChar (": " ++ rest).toList :=
    stops_append (by decide)
  unfold statement binds?
  cases p with
  | checkOutput parameter size =>
    have hopen : ∀ rest : String, ("(" ++ rest).toList.head? = some '(' := fun rest => by
      rw [String.toList_append]
      rfl
    simp only [inParens, String.append_assoc]
    exact boundInRust?_of_head (by decide) (hopen _) (by decide) (by decide)
  | emptyArray parameter type =>
    have hzero : " = [0u8; " = " = " ++ "[0u8; " := by decide
    simp only [hzero, String.append_assoc]
    exact boundInRust?_letMut (wordy_valueLocal h.1) (hblank _)
  | zero parameter w =>
    have hzero : " = 0" = " = " ++ "0" := by decide
    simp only [hzero, String.append_assoc]
    exact boundInRust?_letMut (wordy_valueLocal h) (hblank _)
  | copyInput parameter type =>
    simp only [String.append_assoc]
    -- The local is no `mut`, which would make the next word the name.
    refine boundInRust?_let (wordy_valueLocal h.1) (hcolon _) fun hmut => ?_
    exact append_notMem (by decide : ∀ n ∈ ["mut"], ¬ "_value".toList <:+ n.toList) parameter
      (List.mem_singleton.2 hmut)

namespace Function

/-- Whether a safe function keeps the result of the library until the outputs are filled. -/
def keepsResult (f : Function) : Bool := !f.outputs.isEmpty && f.returns.isSome

/-- The parameters that a safe function makes a value for. -/
def valued (f : Function) : List Parameter := f.parameters.filter (·.argument.isPointed)

theorem locals_prepared (f : Function) (api : String) : (f.safe api).prepared.filterMap (·.binds?) =
    f.valued.map fun p => valueLocal p.name := by
  have hprepare : ∀ p : Parameter, p.prepare.filterMap (·.binds?) =
      (if p.argument.isPointed then some (valueLocal p.name) else none).toList := by
    rintro ⟨name, ⟨type, shape, placement⟩, direction⟩
    cases direction <;> cases shape <;> rfl
  exact filterMap_flatMap_of_ite hprepare

theorem textsWithin_safe (f : Function) (api errorType : String) :
    textsWithin ((f.safe api).lines errorType) =
      (f.safe api).prepared.map (·.statement) ++ f.safeCall api :: f.filling := by
  rw [← conclusion_eq]
  simp [SafeFunction.lines, block]

end Function

section

variable {m : Model} {f : Function} {api : String}

/-- A call of the library binds nothing. -/
theorem boundInRust?_libraryCall (f : Function) (hapi : isPath api = true) (rest : String) :
    boundInRust? (f.libraryCall api ++ rest) = none := by
  refine boundInRust?_eq_none (Or.inr ?_)
  rw [Function.libraryCall, String.append_assoc, f.head?_behindWord_library hapi]
  exact fun h => absurd (Option.some.inj h) (by decide)

theorem boundInRust?_safeCall (f : Function) (hapi : isPath api = true) :
    boundInRust? (f.safeCall api) = if f.keepsResult then some resultLabel else none := by
  have hok : ∀ rest : String, boundInRust? ("Ok" ++ ("(" ++ rest)) = none := fun rest => by
    refine boundInRust?_of_head (c := '(') (by decide) ?_ (by decide) (by decide)
    rw [String.toList_append]
    rfl
  have hcall := boundInRust?_libraryCall f hapi
  unfold Function.safeCall Function.keepsResult
  cases hout : f.outputs.isEmpty with
  | true =>
    simp only [if_true, Bool.not_true, Bool.false_and, Bool.false_eq_true, if_false]
    split
    · rw [← String.append_empty (s := f.libraryCall api)]
      exact hcall _
    · rw [inParens, String.append_assoc]
      exact hok _
  | false =>
    simp only [Bool.false_eq_true, if_false, Bool.not_false, Bool.true_and]
    split
    · have hread : "let " ++ resultLabel ++ " = " ++ f.libraryCall api ++
          (if f.fallible then "?" else "") ++ ";" = "let " ++ (resultLabel ++ (" = " ++
            (f.libraryCall api ++ ((if f.fallible then "?" else "") ++ ";")))) := by
        simp only [String.append_assoc]
      rw [hread]
      exact boundInRust?_let (by decide) (stops_append (by decide) _) (by decide)
    · rw [String.empty_append, String.append_assoc]
      exact hcall _

/-- What a safe function binds: its parameters, their values, and the result if it is kept. -/
theorem names_safe (hm : m.WellFormed) (hf : f ∈ m.functions) (hapi : isPath api = true)
    (errorType : String) : (rustScope ((f.safe api).lines errorType)).names =
      f.parameters.map (·.name) ++ (f.valued.map (fun p => valueLocal p.name) ++
        if f.keepsResult then [resultLabel] else []) := by
  have hword : ∀ p ∈ f.parameters, Wordy p.name.toList := fun p hp =>
    (hm.known hf (Function.argument_mem hp)).name
  have hparameters : (signatureOf ((f.safe api).lines errorType)).filterMap parameterName? =
      f.parameters.map (·.name) := by
    rw [signatureOf_safe hm hf, List.filterMap_map, ← List.filterMap_eq_map]
    exact List.filterMap_congr fun p hp => parameterName?_typed (hword p hp) _
  have hprepared : ((f.safe api).prepared.map (·.statement)).filterMap boundInRust? =
      f.valued.map fun p => valueLocal p.name := by
    rw [← f.locals_prepared api, List.filterMap_map]
    exact List.filterMap_congr fun p hp =>
      Prepare.boundInRust?_statement (named_prepared hm hf p hp)
  have hfilling : f.filling.filterMap boundInRust? = [] :=
    List.filterMap_eq_nil_iff.2 (forall_filling (by decide) (by decide) fun p hp =>
      p.type.store.boundInRust?_statement (hword p (List.mem_of_mem_filter hp)))
  have hlocals : (boundBy boundInRust? (textsWithin ((f.safe api).lines errorType))).map Prod.fst =
      f.valued.map (fun p => valueLocal p.name) ++ if f.keepsResult then [resultLabel] else [] := by
    rw [boundBy_map_fst, f.textsWithin_safe, List.filterMap_append, hprepared, List.filterMap_cons,
      boundInRust?_safeCall f hapi, hfilling]
    cases f.keepsResult <;> rfl
  unfold Scope.names rustScope
  rw [hparameters, hlocals]

/-- A safe function binds no name twice. -/
theorem nodup_safe (hm : m.WellFormed) (hf : f ∈ m.functions) (hapi : isPath api = true)
    (errorType : String) : (rustScope ((f.safe api).lines errorType)).names.Nodup := by
  have hargument : ∀ p ∈ f.parameters, p.argument ∈ f.arguments := fun p hp =>
    Function.argument_mem hp
  have hnames : (f.parameters.map (·.name)).Nodup := List.pairwise_map.2 (hm.function hf).distinct
  have hvalues : (f.valued.map fun p => valueLocal p.name).Nodup := by
    have hvalued : (f.valued.map (·.name)).Nodup := hnames.sublist (List.filter_sublist.map _)
    have hmade := hvalued.map (f := valueLocal) fun _ _ => append_right_cancel
    rwa [List.map_map] at hmade
  have hbare : ∀ p ∈ f.parameters, bars p.name = 0 := fun p hp =>
    bars_of_plain (hm.plain_argument hf (hargument p hp))
  have hbar : ∀ x ∈ f.valued.map (fun p => valueLocal p.name), bars x = 1 :=
    List.forall_mem_map.2 fun p hp => hm.bars_made hf (hargument p (List.mem_of_mem_filter hp)) _
  have hkept : ∀ x ∈ (if f.keepsResult then [resultLabel] else []), x = resultLabel := by
    intro x hx
    split at hx
    · exact List.mem_singleton.1 hx
    · nomatch hx
  rw [names_safe hm hf hapi]
  refine List.nodup_append.2 ⟨hnames, List.nodup_append.2 ⟨hvalues, ?_, ?_⟩, ?_⟩
  · split <;> simp
  · rintro x hx y hy rfl
    rw [hkept x hy] at hx
    exact absurd (hbar _ hx) (by decide)
  · rintro x hx y hy rfl
    obtain ⟨p, hp, rfl⟩ := List.mem_map.1 hx
    rcases List.mem_append.1 hy with hy | hy
    -- A value has an underscore in its name, and no parameter has one.
    · have hone := hbar _ hy
      rw [hbare p hp] at hone
      nomatch hone
    · exact hm.own_ne hf (hargument p hp) (by decide : resultLabel ∈ ownNames) (hkept _ hy)

theorem bindable_safe (hm : m.WellFormed) (hf : f ∈ m.functions) (hapi : isPath api = true)
    (errorType : String) : ∀ name ∈ (rustScope ((f.safe api).lines errorType)).names,
      Bindable f name := by
  have hargument : ∀ p ∈ f.parameters, p.argument ∈ f.arguments := fun p hp =>
    Function.argument_mem hp
  rw [names_safe hm hf hapi]
  refine List.forall_mem_append.2 ⟨List.forall_mem_map.2 fun p hp => .argument (hargument p hp),
    List.forall_mem_append.2 ⟨List.forall_mem_map.2 fun p hp =>
      .value (hargument p (List.mem_of_mem_filter hp)), fun name hname => ?_⟩⟩
  split at hname
  · rw [List.mem_singleton.1 hname]
    exact .own (by decide)
  · nomatch hname

/-! ## What a safe function calls -/

/-- What fills bytes calls methods and nothing else. -/
theorem Store.calls_statement (store : Store) {target source : String} (htarget : Wordy target.toList)
    (hsource : Wordy source.toList) : Calls m.Foreign (store.statement target source) := by
  have hopen : '(' ∉ source.toList := hsource.notMem (by decide)
  have hslice : ".copy_from_slice(&" = ("." ++ "copy_from_slice") ++ ("(" ++ "&") := by decide
  unfold statement
  cases store with
  | bytes =>
    have hinside : '(' ∉ ("&" ++ (source ++ ");")).toList := by
      simp +decide only [String.toList_append, List.mem_append, hopen, or_self, not_false_eq_true]
    have hread : target ++ ".copy_from_slice(&" ++ source ++ ");" =
        target ++ ("." ++ "copy_from_slice") ++ ("(" ++ ("&" ++ (source ++ ");"))) := by
      rw [hslice]
      simp only [String.append_assoc]
    dsimp only
    rw [hread]
    exact calls_method htarget (by decide) (.of_notMem hinside)
  | byte =>
    have hclosed : '(' ∉ target.toList := htarget.notMem (by decide)
    refine .of_notMem ?_
    simp +decide only [String.toList_append, List.mem_append, hopen, hclosed, or_self,
      not_false_eq_true]
  | littleEndian =>
    have hread : target ++ ".copy_from_slice(&" ++ source ++ ".to_le_bytes());" =
        target ++ ("." ++ "copy_from_slice") ++ ("(" ++ ("&" ++
          (source ++ ("." ++ "to_le_bytes") ++ ("(" ++ "));")))) := by
      have hbytes : ".to_le_bytes());" = ("." ++ "to_le_bytes") ++ ("(" ++ "));") := by decide
      rw [hslice, hbytes]
      simp only [String.append_assoc]
    dsimp only
    rw [hread]
    exact calls_method htarget (by decide) ((Calls.of_notMem (by decide)).append
      (calls_method hsource (by decide) (.of_notMem (by decide))) (by decide))

theorem isCalleeChar_libraryPath {f : Function} (hf : f.Named) (hapi : isPath api = true) :
    ∀ c ∈ (f.libraryPath api).toList, isCalleeChar c = true := by
  have hcolons : ∀ c ∈ "::".toList, isCalleeChar c = true := List.all_eq_true.1 (by decide)
  unfold Function.libraryPath
  simp only [String.toList_append]
  refine List.forall_mem_append.2 ⟨List.forall_mem_append.2 ⟨List.forall_mem_append.2
    ⟨List.forall_mem_append.2 ⟨fun c hc => ?_, hcolons⟩,
      isCalleeChar_of_wordy (wordy_of_plain hf.module)⟩, hcolons⟩,
      isCalleeChar_of_wordy (wordy_snakeCase hf.name)⟩
  rcases pathChars_of_isPath hapi c hc with hc | rfl
  · rw [isCalleeChar, isPathChar, hc, Bool.true_or, Bool.true_or]
  · decide

/-- The call of the library, at the parenthesis behind its path. -/
theorem libraryCall_append (f : Function) (api rest : String) : f.libraryCall api ++ rest =
    f.libraryPath api ++ ("(" ++
      (commas ((f.safe api).passed.map (·.expression)) ++ (")" ++ rest))) := by
  unfold Function.libraryCall inParens
  simp only [String.append_assoc]

/-- What is passed to the library is no call, and has no path. -/
theorem notMem_libraryArgs (hm : m.WellFormed) (hf : f ∈ m.functions) (api : String) {c : Char}
    (hc : c = '(' ∨ c = ':') : c ∉ (commas ((f.safe api).passed.map (·.expression))).toList := by
  have hword : isIdentifierChar c = false := by rcases hc with rfl | rfl <;> decide
  have hcomma : c ∉ ", ".toList := by rcases hc with rfl | rfl <;> decide
  refine notMem_commas hcomma (List.forall_mem_map.2 fun a ha => ?_)
  obtain ⟨p, hp, rfl⟩ := List.mem_map.1 ha
  have hname : Wordy p.name.toList := (hm.known hf (Function.argument_mem hp)).name
  have hvalue : c ∉ (valueLocal p.name).toList := (Prepare.wordy_valueLocal hname).notMem hword
  have hplain : c ∉ p.name.toList := hname.notMem hword
  unfold LibraryArg.expression Parameter.libraryArg
  rcases hc with rfl | rfl <;> cases p.passing <;>
    simp +decide only [String.toList_append, List.mem_append, hvalue, hplain, or_self,
      not_false_eq_true]

/-- A call of the library has a path. -/
theorem calls_libraryCall (hm : m.WellFormed) (hf : f ∈ m.functions) (hapi : isPath api = true)
    {rest : String} (hrest : '(' ∉ rest.toList) : Calls m.Foreign (f.libraryCall api ++ rest) := by
  have hargs := notMem_libraryArgs hm hf api (Or.inl rfl)
  rw [libraryCall_append]
  refine .call (isCalleeChar_libraryPath (hm.named hf) hapi) ?_ (.of_notMem ?_)
  · exact foreign_of_not (isLocalName_eq_false (libraryPath_colon f api) (by decide))
  · simp +decide only [String.toList_append, List.mem_append, hargs, hrest, or_self,
      not_false_eq_true]

/-- A safe function calls no local. -/
theorem calls_safe (hm : m.WellFormed) (hf : f ∈ m.functions) (hapi : isPath api = true)
    (errorType : String) : ∀ text ∈ textsWithin ((f.safe api).lines errorType),
      Calls m.Foreign text := by
  have hword : ∀ p ∈ f.outputs, Wordy p.name.toList := fun p hp =>
    (hm.known hf (Function.argument_mem (List.mem_of_mem_filter hp))).name
  rw [f.textsWithin_safe]
  refine List.forall_mem_append.2 ⟨List.forall_mem_map.2 fun p hp => ?_, List.forall_mem_cons.2
    ⟨?_, forall_filling ?_ ?_ fun p hp => ?_⟩⟩
  · rcases Prepare.calls_one (named_prepared hm hf p hp) with hfree | ⟨helper, hmem, hone⟩
    · exact .of_notMem hfree
    · obtain ⟨hwordy, htaken⟩ := (by decide : ∀ h ∈ safeHelpers, Wordy h.toList ∧ h ∈ helperNames)
        helper hmem
      exact hone.calls (isPathChar_of_wordy hwordy) (foreign_of_mem htaken)
  · have hcall : ∀ {rest : String}, '(' ∉ rest.toList →
        Calls m.Foreign (f.libraryCall api ++ rest) := calls_libraryCall hm hf hapi
    unfold Function.safeCall
    split
    · split
      · rw [← String.append_empty (s := f.libraryCall api)]
        exact hcall (by decide)
      · rw [inParens, String.append_assoc]
        exact .call (List.all_eq_true.1 (by decide)) (foreign_of_not (by decide)) (hcall (by decide))
    · rw [String.append_assoc, String.append_assoc]
      refine Calls.append (.of_notMem ?_) (hcall ?_) ?_ <;> split <;> decide
  · exact calls_of_callees (by decide)
  · exact calls_of_callees (by decide)
  · exact p.type.store.calls_statement (hword p hp) (Prepare.wordy_valueLocal (hword p hp))

end

end Bindery
