/-
  LIBRARY PATHS: the function of the library that an export ends at.

  An export calls one function of the safe layer, and that one calls one function of the library; both
  have a path in front of them, and nothing else that the two bodies call has (`LibraryBound`).  So the
  exports are bound to the library by the paths of the functions, and whether two of them meet is a
  question about names alone.

  The safe layer keeps the name of a function as it is declared, and the path of the library has it in
  snake case.  In one module the paths of two functions are the same exactly if their names are the same
  in camel case (`libraryPath_eq_iff`): `aBc` and `aBC` are two exports of one library function.
-/
import Bindery.Proofs.Boundary.CoreScopes
import Bindery.Proofs.Text.Words

namespace Bindery

open Naming Source Target

/-! ## When two paths meet -/

/-- Two functions have the same path exactly if they are in one module and have one name in camel
case, wherever the library is. -/
theorem libraryPath_eq_iff {f g : Function} (hf : f.Named) (hg : g.Named) (api : String) :
    f.libraryPath api = g.libraryPath api ↔
      f.module = g.module ∧ camelCase f.name = camelCase g.name := by
  have hcolon : ∀ {name : String}, Plain name.toList → ∀ c ∈ name.toList, (c == ':') = false :=
    fun h c hc => beq_false_of_ne fun heq => (wordy_of_plain h).notMem (by decide) (heq ▸ hc)
  unfold Function.libraryPath
  constructor
  · intro h
    simp only [String.append_assoc] at h
    have hlist := congrArg String.toList (append_left_cancel (append_left_cancel h))
    rw [String.toList_append, String.toList_append, String.toList_append, String.toList_append] at hlist
    -- A module has no colon, so it ends where the path goes on.
    obtain ⟨hmodule, _, hrest⟩ := Text.append_cons_inj_of_first (p := (· == ':')) (hcolon hf.module)
      (hcolon hg.module) (by decide) (by decide) hlist
    have hname : snakeCase f.name = snakeCase g.name := String.toList_inj.1 (List.cons.inj hrest).2
    exact ⟨String.toList_inj.1 hmodule, (snakeCase_eq_iff hf.name hg.name).1 hname⟩
  · rintro ⟨hmodule, hname⟩
    rw [hmodule, (snakeCase_eq_iff hf.name hg.name).2 hname]

namespace Model.WellFormed

variable {m : Model}

/-- The paths of an API are all different exactly if the names in each module are, in camel case. -/
theorem nodup_libraryPaths_iff (hm : m.WellFormed) (api : String) :
    (m.functions.map (·.libraryPath api)).Nodup ↔
      ∀ module ∈ m.modules, (module.functions.map fun f => camelCase f.name).Nodup := by
  have hmem : ∀ {module : Module}, module ∈ m.modules → ∀ f ∈ module.functions,
      f.Named ∧ f.module = module.name := fun hmodule f hf =>
    ⟨hm.named (Model.mem_functions.2 ⟨_, hmodule, hf⟩), ((hm.modules _ hmodule).functions f hf).2⟩
  unfold Model.functions
  rw [List.map_flatMap, List.nodup_flatMap]
  constructor
  · rintro ⟨hpaths, _⟩ module hmodule
    refine List.pairwise_map.2 ((List.pairwise_map.1 (hpaths module hmodule)).imp_of_mem ?_)
    intro f g hf hg hne hname
    obtain ⟨hfnamed, hfmodule⟩ := hmem hmodule f hf
    obtain ⟨hgnamed, hgmodule⟩ := hmem hmodule g hg
    exact hne ((libraryPath_eq_iff hfnamed hgnamed api).2 ⟨hfmodule.trans hgmodule.symm, hname⟩)
  · intro hnames
    refine ⟨fun module hmodule => ?_, ?_⟩
    · refine List.pairwise_map.2 ((List.pairwise_map.1 (hnames module hmodule)).imp_of_mem ?_)
      intro f g hf hg hne hpath
      exact hne ((libraryPath_eq_iff (hmem hmodule f hf).1 (hmem hmodule g hg).1 api).1 hpath).2
    -- Functions of different modules have the modules in their paths.
    · refine (List.pairwise_map.1 hm.distinct).imp_of_mem fun {a b} ha hb hne => ?_
      intro path hpath hpath'
      obtain ⟨f, hf, rfl⟩ := List.mem_map.1 hpath
      obtain ⟨g, hg, heq⟩ := List.mem_map.1 hpath'
      obtain ⟨hfnamed, hfmodule⟩ := hmem ha f hf
      obtain ⟨hgnamed, hgmodule⟩ := hmem hb g hg
      have hsame := ((libraryPath_eq_iff hgnamed hfnamed api).1 heq).1
      exact hne (hfmodule.symm.trans (hsame.symm.trans hgmodule))

/-- Functions that are named in camel case are apart. -/
theorem nodup_libraryPaths (hm : m.WellFormed) (hnames : ∀ f ∈ m.functions, camelCase f.name = f.name)
    (api : String) : (m.functions.map (·.libraryPath api)).Nodup := by
  refine (hm.nodup_libraryPaths_iff api).2 fun module hmodule => ?_
  have hcamel : (module.functions.map fun f => camelCase f.name) = module.functions.map (·.name) :=
    List.map_congr_left fun f hf => hnames f (Model.mem_functions.2 ⟨module, hmodule, hf⟩)
  rw [hcamel]
  exact List.pairwise_map.2 (hm.modules module hmodule).distinct

end Model.WellFormed

/-! ## Calls with a path -/

/-- `Unpathed text` — nothing that the text calls has a path in front of it. -/
def Unpathed : String → Prop := Calls fun callee => ':' ∉ callee.toList

/-- What the lines of a body call with a path in front of it, in order. -/
def pathCallees (texts : List String) : List String :=
  (texts.flatMap calleesIn).filter fun callee => decide (':' ∈ callee.toList)

theorem pathCallees_append (texts more : List String) :
    pathCallees (texts ++ more) = pathCallees texts ++ pathCallees more := by
  unfold pathCallees
  rw [List.flatMap_append, List.filter_append]

theorem pathCallees_cons (text : String) (texts : List String) :
    pathCallees (text :: texts) = pathCallees [text] ++ pathCallees texts :=
  pathCallees_append [text] texts

theorem pathCallees_eq_nil {texts : List String} (h : ∀ text ∈ texts, Unpathed text) :
    pathCallees texts = [] := by
  refine List.filter_eq_nil_iff.2 fun callee hcallee hcolon => ?_
  obtain ⟨text, htext, hmem⟩ := List.mem_flatMap.1 hcallee
  exact h text htext callee hmem (of_decide_eq_true hcolon)

/-- A text with one call of a path, and besides it calls without. -/
theorem pathCallees_call {before path after : String} (hbefore : Unpathed before)
    (hlast : Text.Stops isCalleeChar before.toList.reverse)
    (hpath : ∀ c ∈ path.toList, isCalleeChar c = true) (hcolon : ':' ∈ path.toList)
    (hafter : Unpathed after) : pathCallees [before ++ (path ++ ("(" ++ after))] = [path] := by
  have hcall : calleesIn (path ++ ("(" ++ after)) = path :: calleesIn after := by
    have hread : (path ++ ("(" ++ after)).toList = path.toList ++ '(' :: after.toList := by
      simp only [String.toList_append]
      rfl
    unfold calleesIn
    rw [hread, calleesFrom_name _ hpath, List.reverse_nil, List.nil_append, String.ofList_toList]
  have hall : calleesIn (before ++ (path ++ ("(" ++ after))) =
      calleesIn before ++ path :: calleesIn after := by
    rw [← hcall]
    unfold calleesIn
    rw [String.toList_append]
    by_cases hne : before.toList = []
    · rw [hne]
      rfl
    · exact calleesFrom_append _ hne hlast
  have hnone : ∀ {text : String}, Unpathed text →
      (calleesIn text).filter (fun callee => decide (':' ∈ callee.toList)) = [] := fun h =>
    List.filter_eq_nil_iff.2 fun callee hmem => by simpa using h callee hmem
  unfold pathCallees
  rw [List.flatMap_singleton, hall, List.filter_append, hnone hbefore, List.nil_append,
    List.filter_cons, if_pos (decide_eq_true hcolon), hnone hafter]

/-- A text without a colon. -/
theorem Unpathed.of_notMem {text : String} (h : ':' ∉ text.toList) : Unpathed text := by
  -- What has been read of a name is part of the text.
  have hread : ∀ (s run : List Char), ':' ∉ s → ':' ∉ run → ∀ callee ∈ calleesFrom run s,
      ':' ∉ callee.toList := by
    intro s
    induction s with
    | nil => exact fun _ _ _ _ hmem => absurd hmem List.not_mem_nil
    | cons c s ih =>
      intro run hs hrun
      rw [List.mem_cons, not_or] at hs
      rw [calleesFrom]
      refine List.forall_mem_append.2 ⟨?_, ih _ hs.2 ?_⟩
      · split
        · refine List.forall_mem_singleton.2 ?_
          rw [String.toList_ofList, List.mem_reverse]
          exact hrun
        · exact fun _ hmem => absurd hmem List.not_mem_nil
      · split
        · rw [List.mem_cons, not_or]
          exact ⟨hs.1, hrun⟩
        · exact List.not_mem_nil
  exact hread _ [] h List.not_mem_nil

theorem Store.unpathed_statement (store : Store) {target source : String}
    (htarget : Wordy target.toList) (hsource : Wordy source.toList) :
    Unpathed (store.statement target source) := by
  have hword : ∀ {name : String}, Wordy name.toList → ':' ∉ name.toList := fun h =>
    h.notMem (by decide)
  refine .of_notMem ?_
  unfold Store.statement
  cases store <;>
    simp +decide only [String.toList_append, List.mem_append, hword htarget, hword hsource, or_self,
      not_false_eq_true]

/-! ## What an export calls -/

section

variable {m : Model} {f : Function}

/-- A check calls its helper; what it hands over may have a path, but is not called. -/
theorem SlotCheck.unpathed_statement {c : SlotCheck} (hslot : Wordy c.slot.toList)
    (hargs : ∀ a ∈ c.told.2.2, '(' ∉ a.toList) : Unpathed c.statement := by
  obtain ⟨mid, after, hmid, hlast, hafter, heq⟩ := c.statement_call
  have hone : OneCall c.told.2.1 c.statement := by
    refine ⟨"let " ++ c.slot ++ mid, commas c.told.2.2 ++ ")" ++ after, ?_, ?_,
      stops_reverse (getLast?_toList_append _ hlast) (by decide), ?_⟩
    · rw [heq]
      simp only [inParens, String.append_assoc]
    · have hfree : '(' ∉ c.slot.toList := hslot.notMem (by decide)
      simp +decide only [String.toList_append, List.mem_append, hfree, hmid, or_self,
        not_false_eq_true]
    · have hfree : '(' ∉ (commas c.told.2.2).toList := notMem_commas (by decide) hargs
      simp +decide only [String.toList_append, List.mem_append, hfree, hafter, or_self,
        not_false_eq_true]
  obtain ⟨hword, hcolon⟩ := (by decide : ∀ h ∈ checkHelpers, Wordy h.toList ∧ ':' ∉ h.toList) _
    c.helper_mem
  exact hone.calls (isPathChar_of_wordy hword) hcolon

/-- What a check hands over is a name or a size, and calls nothing. -/
theorem Argument.notMem_told {a : Argument} (hm : m.WellFormed) (ha : a.Known m) {c : SlotCheck}
    (hc : a.check? = some c) : ∀ x ∈ c.told.2.2, '(' ∉ x.toList := by
  have hname : '(' ∉ a.name.toList := Wordy.notMem ha.name (by decide)
  have hlength : '(' ∉ (lengthSlot a.name).toList := by
    unfold lengthSlot
    rw [String.toList_append, List.mem_append, not_or]
    exact ⟨hname, by decide⟩
  have hsize : '(' ∉ (exportedSize a.type.size).toList :=
    (a.tight_exportedSize hm ha).notMem (by decide) (by decide) (by decide)
  have hcount : '(' ∉ (fromSafeLayer (countConstant a.type.name)).toList :=
    (tight_fromSafeLayer (hm.wordy_countConstant ha.type)).notMem (by decide) (by decide) (by decide)
  have hthree : ∀ x ∈ [a.name, lengthSlot a.name, exportedSize a.type.size], '(' ∉ x.toList :=
    List.forall_mem_cons.2 ⟨hname, List.forall_mem_cons.2 ⟨hlength, List.forall_mem_singleton.2 hsize⟩⟩
  rcases a.check?_cases ha with ⟨h, _⟩ | ⟨h, _⟩ | ⟨h, _⟩ | ⟨h, _⟩ <;> rw [h] at hc
  · cases hc
    exact hthree
  · cases hc
    exact hthree
  · cases hc
    exact List.forall_mem_cons.2 ⟨hname, List.forall_mem_singleton.2 hcount⟩
  · nomatch hc

/-- The line that calls the safe layer, at the parenthesis behind the name. -/
theorem Function.callLine_eq (f : Function) : f.callLine =
    (if f.returns.isSome then "let " ++ resultLabel ++ " = " else "") ++
      (fromSafeLayer f.safeSymbol ++ ("(" ++ (commas f.callArgs ++ ").map_err(ffi_return_code)?;"))) := by
  have hend : ").map_err(ffi_return_code)?;" = ")" ++ (".map_err(ffi_return_code)?" ++ ";") := by decide
  unfold Function.callLine Export.call
  rw [f.passed_eq, hend]
  simp only [inParens, String.append_assoc]
  rfl

theorem pathCallees_callLine (hm : m.WellFormed) (hf : f ∈ m.functions) :
    pathCallees [f.callLine] = [fromSafeLayer f.safeSymbol] := by
  have hargs : ':' ∉ (commas f.callArgs).toList := by
    refine notMem_commas (by decide) (List.forall_mem_map.2 fun p hp => ?_)
    have hname : ':' ∉ p.name.toList :=
      Wordy.notMem (hm.known hf (Function.argument_mem hp)).name (by decide)
    unfold Argument.pass
    split
    · show ':' ∉ ("&" ++ p.name).toList
      rw [String.toList_append, List.mem_append, not_or]
      exact ⟨by decide, hname⟩
    · exact hname
  rw [f.callLine_eq]
  refine pathCallees_call (.of_notMem ?_) ?_ ?_ (fromSafeLayer_colon _) (.of_notMem ?_)
  · split <;> decide
  · split <;> decide
  · unfold fromSafeLayer
    rw [String.toList_append]
    exact List.forall_mem_append.2 ⟨List.all_eq_true.1 (by decide),
      isCalleeChar_of_wordy (hm.named hf).wordy_safeSymbol⟩
  · rw [String.toList_append, List.mem_append, not_or]
    exact ⟨hargs, by decide⟩

/-- An export calls its function of the safe layer, and nothing else with a path. -/
theorem pathCallees_exported (hm : m.WellFormed) (hf : f ∈ m.functions) :
    pathCallees (textsWithin f.exported.lines) = [fromSafeLayer f.safeSymbol] := by
  have hslots : pathCallees f.exportParameters = [] := by
    refine pathCallees_eq_nil (List.forall_mem_map.2 fun slot hslot => Calls.of_notMem ?_)
    have hname : '(' ∉ slot.name.toList := (hm.wordy_slot hf hslot).notMem (by decide)
    have hkind : '(' ∉ slot.kind.rust.toList := by
      cases slot.kind with
      | value w => cases w <;> decide
      | _ => decide
    unfold typed
    simp +decide only [String.toList_append, List.mem_append, hname, hkind, or_self,
      not_false_eq_true]
  have hguard : pathCallees ["ffi_guard(move || " ++ opening] = [] := by decide
  have hclose : pathCallees [closing ++ ")"] = [] := by decide
  have hchecks : pathCallees (f.exported.checks.map (·.statement)) = [] := by
    refine pathCallees_eq_nil (List.forall_mem_map.2 fun c hc => ?_)
    obtain ⟨a, ha, hcheck, hname⟩ := exists_of_mem_checks hc
    refine c.unpathed_statement ?_ (a.notMem_told hm (hm.known hf ha) hcheck)
    rw [hname]
    exact (hm.known hf ha).name
  have hstoring : pathCallees f.storing = [] := pathCallees_eq_nil
    (f.forall_storing (Unpathed.of_notMem (by decide)) fun store =>
      store.unpathed_statement (by decide) (by decide))
  rw [f.textsWithin_exported]
  simp only [pathCallees_append, hslots, hguard, hchecks, pathCallees_callLine hm hf, hstoring, hclose,
    List.nil_append, List.append_nil]

end

/-! ## What a safe function calls -/

section

variable {m : Model} {f : Function} {api : String}

/-- The call of the library, with what may stand around it. -/
theorem pathCallees_libraryCall (hm : m.WellFormed) (hf : f ∈ m.functions) (hapi : isPath api = true)
    {front rest : String} (hfront : ':' ∉ front.toList)
    (hlast : Text.Stops isCalleeChar front.toList.reverse) (hrest : ':' ∉ rest.toList) :
    pathCallees [front ++ (f.libraryCall api ++ rest)] = [f.libraryPath api] := by
  have hargs := notMem_libraryArgs hm hf api (Or.inr rfl)
  rw [libraryCall_append]
  refine pathCallees_call (.of_notMem hfront) hlast (isCalleeChar_libraryPath (hm.named hf) hapi)
    (libraryPath_colon f api) (.of_notMem ?_)
  simp +decide only [String.toList_append, List.mem_append, hargs, hrest, or_self, not_false_eq_true]

/-- A safe function calls its function of the library, and nothing else with a path. -/
theorem pathCallees_safe (hm : m.WellFormed) (hf : f ∈ m.functions) (hapi : isPath api = true)
    (errorType : String) :
    pathCallees (textsWithin ((f.safe api).lines errorType)) = [f.libraryPath api] := by
  have hprepared : pathCallees ((f.safe api).prepared.map (·.statement)) = [] := by
    refine pathCallees_eq_nil (List.forall_mem_map.2 fun p hp => ?_)
    rcases Prepare.calls_one (named_prepared hm hf p hp) with hfree | ⟨helper, hmem, hone⟩
    · exact Calls.of_notMem hfree
    · obtain ⟨hword, hcolon⟩ := (by decide : ∀ h ∈ safeHelpers, Wordy h.toList ∧ ':' ∉ h.toList)
        helper hmem
      exact hone.calls (isPathChar_of_wordy hword) hcolon
  have hfilling : pathCallees f.filling = [] := by
    refine pathCallees_eq_nil (forall_filling (Unpathed.of_notMem (by decide))
      (Unpathed.of_notMem (by decide)) fun p hp => ?_)
    have hname : Wordy p.name.toList :=
      (hm.known hf (Function.argument_mem (List.mem_of_mem_filter hp))).name
    exact p.type.store.unpathed_statement hname (Prepare.wordy_valueLocal hname)
  have hcall : pathCallees [f.safeCall api] = [f.libraryPath api] := by
    have hcallee : ∀ {front rest : String}, ':' ∉ front.toList →
        Text.Stops isCalleeChar front.toList.reverse → ':' ∉ rest.toList →
        pathCallees [front ++ (f.libraryCall api ++ rest)] = [f.libraryPath api] :=
      pathCallees_libraryCall hm hf hapi
    unfold Function.safeCall
    split
    · split
      · have hbare : f.libraryCall api = "" ++ (f.libraryCall api ++ "") := by
          rw [String.append_empty, String.empty_append]
        rw [hbare]
        exact hcallee (by decide) (by decide) (by decide)
      · have hwrapped : "Ok" ++ inParens (f.libraryCall api) = "Ok(" ++ (f.libraryCall api ++ ")") := by
          have hok : "Ok(" = "Ok" ++ "(" := by decide
          rw [hok]
          simp only [inParens, String.append_assoc]
        rw [hwrapped]
        exact hcallee (by decide) (by decide) (by decide)
    · rw [String.append_assoc, String.append_assoc]
      refine hcallee ?_ ?_ ?_ <;> split <;> decide
  rw [f.textsWithin_safe, pathCallees_append, pathCallees_cons, hprepared, hcall, hfilling]
  rfl

/-- The head of a safe function. -/
def safeHead : String := "pub fn "

theorem declared_safe (hf : f.Named) (api errorType : String) :
    declared safeHead ((f.safe api).lines errorType) = [f.safeSymbol] := by
  have hsymbol : '(' ∉ f.safeSymbol.toList := hf.wordy_safeSymbol.notMem (by decide)
  obtain ⟨head, tail, hlines, hquiet, rest, hhead⟩ : ∃ head tail,
      (f.safe api).lines errorType = line head :: tail ∧ AllQuiet 'p' tail ∧
        ∃ rest, head.toList = safeHead.toList ++ (f.safeSymbol.toList ++ '(' :: rest) := by
    refine ⟨_, _, rfl, ?_, ?_⟩
    · exact ((AllQuiet.indent _).append (.cons (quiet_line '\x7d' rfl (by decide)) .nil)).append
        (.cons quiet_gap .nil)
    · simp only [inParens, String.toList_append, List.append_assoc]
      exact ⟨_, rfl⟩
  rw [hlines, declared_cons, declaredBy?_line rest hhead hsymbol, declared_eq_nil 'p' rfl hquiet]
  rfl

end

/-! ## The library below the exports -/

/-- `LibraryBound s m core` — for every function there is an export in the file of its module and a safe
function in the safe layer; the first calls the second and the second its function of the library, and
neither calls anything else that has a path. -/
structure LibraryBound (s : Setting) (m : Model) (core : List Source.File) : Prop where
  exports : ∀ module ∈ m.modules,
    Emitted core s ("ffiapi/ffiapi_" ++ module.name ++ ".rs") (exportLines s module)
  safe : ∃ body, Emitted core s "simpleapi/simpleapi.rs" body ∧ ∀ f ∈ m.functions,
    (f.safe s.options.apiPath).lines s.options.errorTypeName <:+: body
  upper : ∀ module ∈ m.modules, ∀ f ∈ module.functions, f.exported.lines <:+: exportLines s module ∧
    declared exportHead f.exported.lines = [f.coreSymbol] ∧
    pathCallees (textsWithin f.exported.lines) = [fromSafeLayer f.safeSymbol]
  lower : ∀ f ∈ m.functions,
    declared safeHead ((f.safe s.options.apiPath).lines s.options.errorTypeName) = [f.safeSymbol] ∧
    pathCallees (textsWithin ((f.safe s.options.apiPath).lines s.options.errorTypeName)) =
      [f.libraryPath s.options.apiPath]

theorem libraryBound {m : Model} {o : Options} {t : ErrorTable} {core : List Source.File}
    (hm : m.WellFormed) (ho : o.Valid) (hcore : Target.core.emit m o t = .ok core) :
    ∃ s : Setting, s.For o t ∧ LibraryBound s m core := by
  obtain ⟨s, hs, refused, rfl⟩ := emit_core hcore
  have hapi : isPath s.options.apiPath = true := by
    rw [hs.options]
    exact ho.apiPath
  refine ⟨s, hs, fun module hmodule => ?_, ⟨safeLines s m refused, ?_, fun f hf => ?_⟩,
    fun module hmodule f hf => ?_, fun f hf => ?_⟩
  · rw [← exportPath module.name]
    exact emitted_exportModule hm.distinct refused hmodule
  · exact emitted_of_last (List.forall_mem_nil _)
  · exact safe_infix hf refused
  · have hmem : f ∈ m.functions := Model.mem_functions.2 ⟨module, hmodule, hf⟩
    have hlines := infix_flatMap (fun f : Function => f.exported.lines) hf
    exact ⟨hlines.trans (List.suffix_append _ _).isInfix, declared_exported (hm.named hmem),
      pathCallees_exported hm hmem⟩
  · exact ⟨declared_safe (hm.named hf) _ _, pathCallees_safe hm hf hapi _⟩

/-- **Where exports meet in the library.**  Whatever the API and wherever the library is, two functions
have the same path exactly if they are in one module and named alike in camel case; so the paths are all
different exactly if the names in each module are when put in camel case, as they are when they were
declared so.  And in what is generated under valid options each export ends at the path of its
function and nowhere else. -/
theorem library_paths_told {es : List (Value × Value)} {m : Model} {o : Options} {t : ErrorTable}
    {core : List Source.File} (hm : Model.ofDescription es = .ok m) (ho : o.Valid)
    (hcore : Target.core.emit m o t = .ok core) :
    (∀ api, ∀ f ∈ m.functions, ∀ g ∈ m.functions, f.libraryPath api = g.libraryPath api ↔
      f.module = g.module ∧ camelCase f.name = camelCase g.name) ∧
    (∀ api, (m.functions.map (·.libraryPath api)).Nodup ↔
      ∀ module ∈ m.modules, (module.functions.map fun f => camelCase f.name).Nodup) ∧
    ((∀ f ∈ m.functions, camelCase f.name = f.name) →
      ∀ api, (m.functions.map (·.libraryPath api)).Nodup) ∧
    ∃ s : Setting, s.For o t ∧ LibraryBound s m core := by
  have hw : m.WellFormed := (ofDescription_eq_ok.1 hm).2
  exact ⟨fun api f hf g hg => libraryPath_eq_iff (hw.named hf) (hw.named hg) api,
    hw.nodup_libraryPaths_iff, hw.nodup_libraryPaths, libraryBound hw ho hcore⟩

/-- A description with functions that are named alike but for the last letter of a run of capitals. -/
def runEntries : List (Value × Value) :=
  [(.str "modules", .list [.map [(.str "name", .str "a"), (.str "functions", .list
    [.map [(.str "name", .str "aBc")], .map [(.str "name", .str "aBC")]])]])]

theorem library_paths_told_run : ∃ m core s, Model.ofDescription runEntries = .ok m ∧
    m.functions.map (·.coreSymbol) = ["ffi_a_aBc", "ffi_a_aBC"] ∧
    m.functions.map (·.libraryPath "crate::api") = ["crate::api::a::a_bc", "crate::api::a::a_bc"] ∧
    LibraryBound s m core := by
  let m : Model := ⟨[], [⟨"a", [⟨"aBc", "a", [], none, false⟩, ⟨"aBC", "a", [], none, false⟩]⟩]⟩
  have hm : Model.ofDescription runEntries = .ok m := by decide +kernel
  obtain ⟨core, hcore⟩ : ∃ fs, Target.core.emit m .standard .standard = .ok fs :=
    exists_eq_ok (by decide +kernel)
  obtain ⟨_, _, _, s, _, hs⟩ := library_paths_told hm valid_standard hcore
  exact ⟨m, core, s, hm, by decide +kernel, by decide +kernel, hs⟩

end Bindery
