/-
  THE ORDER OF A SHIM: checks, one call, and then what is filled.

  An export checks every slot that can be wrong, calls the safe layer once and stores the result.  The
  checks go through the parameters in another order than the arguments of the call do, inputs first;
  what they are due to be is said from the description alone (`Function.dueChecks`), and read off the
  lines they are that (`checks_told`).  What the call hands over has the types that the safe function
  declares in its own file (`suits_callArgs`).

  With the order of the safe function below it, this is the order of the whole shim.
-/
import Bindery.Proofs.Boundary.Filling

namespace Bindery

open Naming Source

/-! ## The checks of an export -/

/-- The helpers that check a slot. -/
def checkHelpers : List String := ["ffi_input", "ffi_output", "ffi_enum"]

/-- What a line checks: the slot that it binds again, the helper, and what the helper is handed. -/
def checkIn? (text : String) : Option (String × String × List String) :=
  match (Reader.named "let ").read? text.toList, callIn? text with
  | some slot, some call => if checkHelpers.contains call.1 then some (slot, call) else none
  | _, _ => none

/-- The check of bytes that are filled. -/
def dueOutput (slot : String) (t : TypeDef) : String × String × List String :=
  (slot, "ffi_output", [slot, lengthSlot slot, exportedSize t.size])

/-- The check that is due to an input: a buffer is checked with its length, a variant with the number
of variants, and any other number not at all. -/
def Parameter.dueCheck? (p : Parameter) : Option (String × String × List String) :=
  match p.type.shape with
  | .buffer _ => some (p.name, "ffi_input", [p.name, lengthSlot p.name, exportedSize p.type.size])
  | .enum _ => some (p.name, "ffi_enum", [p.name, fromSafeLayer p.type.countConstant])
  | .scalar _ => none

/-- The checks that are due to a function: those of its inputs, then those of its outputs, then that of
its result. -/
def Function.dueChecks (f : Function) : List (String × String × List String) :=
  f.inputs.filterMap (·.dueCheck?) ++ f.outputs.map (fun p => dueOutput p.name p.type) ++
    (f.returns.map (dueOutput resultSlot)).toList

namespace SlotCheck

/-- What a check says. -/
def told : SlotCheck → String × String × List String
  | input slot size => (slot, "ffi_input", [slot, lengthSlot slot, exportedSize size])
  | output slot size => (slot, "ffi_output", [slot, lengthSlot slot, exportedSize size])
  | variant slot type => (slot, "ffi_enum", [slot, fromSafeLayer (countConstant type)])

theorem helper_mem (c : SlotCheck) : c.told.2.1 ∈ checkHelpers := by
  cases c <;> simp [told, checkHelpers]

/-- A check as a call, with what stands in front of it and behind it. -/
theorem statement_call (c : SlotCheck) : ∃ mid after, '(' ∉ mid.toList ∧
    mid.toList.getLast? = some ' ' ∧ '(' ∉ after.toList ∧ c.statement =
      "let " ++ c.slot ++ mid ++ (c.told.2.1 ++ (inParens (commas c.told.2.2) ++ after)) := by
  have hunsafe : ∀ slot helper args : String,
      "let " ++ slot ++ " = unsafe " ++ inBraces (helper ++ inParens args ++ "?") ++ ";" =
        "let " ++ slot ++ " = unsafe \x7b " ++ (helper ++ (inParens args ++ "? \x7d;")) := by
    intro slot helper args
    have hopen : " = unsafe \x7b " = " = unsafe " ++ (Source.opening ++ " ") := by decide
    have hclose : "? \x7d;" = "?" ++ (" " ++ (closing ++ ";")) := by decide
    rw [hopen, hclose]
    simp only [inBraces, String.append_assoc]
  have henum : " = ffi_enum" = " = " ++ "ffi_enum" := by decide
  unfold statement told slot
  cases c with
  | input slot size => exact ⟨_, _, by decide, by decide, by decide, hunsafe _ _ _⟩
  | output slot size => exact ⟨_, _, by decide, by decide, by decide, hunsafe _ _ _⟩
  | variant slot type =>
    refine ⟨" = ", "?;", by decide, by decide, by decide, ?_⟩
    dsimp only
    rw [henum]
    simp only [String.append_assoc]

theorem callIn?_statement {c : SlotCheck} (hslot : Wordy c.slot.toList)
    (hargs : ∀ a ∈ c.told.2.2, ListItem a) : callIn? c.statement = some c.told.2 := by
  obtain ⟨mid, after, hmid, hlast, _, heq⟩ := c.statement_call
  have hpath : Wordy c.told.2.1.toList :=
    (by decide : ∀ h ∈ checkHelpers, Wordy h.toList) _ c.helper_mem
  refine callIn?_eq _ after heq ?_ (stops_reverse (getLast?_toList_append _ hlast) (by decide))
    (isPathChar_of_wordy hpath) hargs
  simp only [String.toList_append, List.mem_append, not_or]
  exact ⟨⟨by decide, hslot.notMem (by decide)⟩, hmid⟩

theorem checkIn?_statement {c : SlotCheck} (hslot : Wordy c.slot.toList)
    (hargs : ∀ a ∈ c.told.2.2, ListItem a) : checkIn? c.statement = some c.told := by
  have hread : (Reader.named "let ").read? c.statement.toList = some c.slot := by
    have hstops : Text.Stops isIdentifierChar
        (c.opening ++ (c.before ++ (c.bound ++ c.after))).toList :=
      stops_append ⟨c.opening_stops.2, c.opening_stops.1⟩ _
    rw [c.statement_eq, String.toList_append, String.toList_append]
    refine (Reader.read?_append (r := .named "let ") _).trans ?_
    show some (String.ofList _) = _
    rw [Text.takeWhile_append_stops hslot hstops, String.ofList_toList]
  have htold : (c.slot, c.told.2) = c.told := by cases c <;> rfl
  rw [checkIn?, hread, callIn?_statement hslot hargs]
  dsimp only
  rw [if_pos (List.contains_iff_mem.2 c.helper_mem), htold]

/-- A check fills nothing. -/
theorem filledBy?_statement (c : SlotCheck) : filledBy? c.statement = none := by
  rw [c.statement_eq]
  exact filledBy?_let _

end SlotCheck

theorem Tight.listItem {text : String} (h : Tight text) (hne : text ≠ "") : ListItem text := by
  obtain ⟨c, s, hs⟩ := List.exists_cons_of_ne_nil (l := text.toList) fun hnil =>
    hne (String.toList_inj.1 hnil)
  refine ⟨⟨c, s, hs, ?_⟩, h.notMem (by decide) (by decide) (by decide),
    h.notMem (by decide) (by decide) (by decide)⟩
  rintro rfl
  exact h.notMem (c := ' ') (by decide) (by decide) (by decide) (hs ▸ List.mem_cons_self)

theorem fromSafeLayer_ne (name : String) : fromSafeLayer name ≠ "" := by
  intro hempty
  have hcolon := fromSafeLayer_colon name
  rw [hempty] at hcolon
  nomatch hcolon

theorem exportedSize_ne (size : Size) : exportedSize size ≠ "" := by
  cases size with
  | lengthOf type => exact fromSafeLayer_ne _
  | bytes n => exact Reader.toList_integer_ne n

section

variable {m : Model} {f : Function} {a : Argument}

/-- What a check hands to its helper can be told apart. -/
theorem Argument.listItems (hm : m.WellFormed) (ha : a.Known m) (hne : a.name ≠ "") {c : SlotCheck}
    (hc : a.check? = some c) : Wordy c.slot.toList ∧ ∀ x ∈ c.told.2.2, ListItem x := by
  have hname : ListItem a.name := .of_wordy ha.name hne
  have hlength : ListItem (lengthSlot a.name) := hname.append (by decide) (by decide)
  have hsize : ListItem (exportedSize a.type.size) :=
    (a.tight_exportedSize hm ha).listItem (exportedSize_ne _)
  have hcount : ListItem (fromSafeLayer (countConstant a.type.name)) :=
    (tight_fromSafeLayer (hm.wordy_countConstant ha.type)).listItem (fromSafeLayer_ne _)
  have hthree : ∀ x ∈ [a.name, lengthSlot a.name, exportedSize a.type.size], ListItem x :=
    List.forall_mem_cons.2 ⟨hname, List.forall_mem_cons.2 ⟨hlength, List.forall_mem_singleton.2 hsize⟩⟩
  rcases a.check?_cases ha with ⟨h, _⟩ | ⟨h, _⟩ | ⟨h, _⟩ | ⟨h, _⟩ <;> rw [h] at hc
  · cases hc
    exact ⟨ha.name, hthree⟩
  · cases hc
    exact ⟨ha.name, hthree⟩
  · cases hc
    exact ⟨ha.name, List.forall_mem_cons.2 ⟨hname, List.forall_mem_singleton.2 hcount⟩⟩
  · nomatch hc

theorem Parameter.told_check? (p : Parameter) (h : p.isOutput = false) :
    p.argument.check?.map (·.told) = p.dueCheck? := by
  obtain ⟨name, ⟨type, shape, placement⟩, direction⟩ := p
  cases direction with
  | output => nomatch h
  | input => cases shape <;> rfl

theorem Parameter.told_output (p : Parameter) (h : p.isOutput = true) :
    p.argument.check?.map (·.told) = some (dueOutput p.name p.type) := by
  obtain ⟨name, type, direction⟩ := p
  cases direction with
  | output => rfl
  | input => nomatch h

/-- The checks of an export are those that are due. -/
theorem Function.told_checks (f : Function) : f.exported.checks.map (·.told) = f.dueChecks := by
  have hread : f.inputs.filterMap (fun p => p.argument.check?.map (·.told)) =
      f.inputs.filterMap (·.dueCheck?) :=
    List.filterMap_congr fun p hp => p.told_check? (by simpa using (List.mem_filter.1 hp).2)
  have hfilled : f.outputs.filterMap (fun p => p.argument.check?.map (·.told)) =
      f.outputs.map fun p => dueOutput p.name p.type := by
    rw [← List.filterMap_eq_map]
    exact List.filterMap_congr fun p hp => p.told_output (List.mem_filter.1 hp).2
  have hresult : ((f.returns.map fun t => (⟨resultSlot, t, .outBuffer, true⟩ : Argument)).toList.filterMap
      fun a => a.check?.map (·.told)) = (f.returns.map (dueOutput resultSlot)).toList := by
    cases f.returns <;> rfl
  unfold exported readFirst dueChecks
  rw [List.map_filterMap, List.filterMap_append, f.arguments_read, f.arguments_filled,
    List.filterMap_append, List.filterMap_map, List.filterMap_map, hresult, ← List.append_assoc]
  exact congrArg (· ++ _) (congrArg₂ _ hread hfilled)

/-- The lines of the checks say what is due. -/
theorem checks_told (hm : m.WellFormed) (hf : f ∈ m.functions) :
    (f.exported.checks.map (·.statement)).map checkIn? = f.dueChecks.map some := by
  rw [← f.told_checks, List.map_map, List.map_map]
  refine List.map_congr_left fun c hc => ?_
  obtain ⟨a, ha, hcheck⟩ := List.mem_filterMap.1 hc
  rw [mem_readFirst] at ha
  obtain ⟨hslot, hargs⟩ := a.listItems hm (hm.known hf ha) (hm.free_name hf ha).1 hcheck
  exact SlotCheck.checkIn?_statement hslot hargs

end

/-! ## The call of an export -/

/-- A parameter as it is declared. -/
def typed (name type : String) : String := name ++ ": " ++ type

/-- `Suits front slots arg parameter` — behind such checks and with such slots the argument has the type
that the parameter declares: copied bytes are lent, bytes that are filled are passed on, and so is a
number that was checked or arrived as what it is. -/
inductive Suits (front slots : List String) : String → String → Prop where
  | read {name text : String} {args : List String} : text ∈ front →
      checkIn? text = some (name, "ffi_input", args) → Suits front slots ("&" ++ name) (typed name "&[u8]")
  | filled {name text : String} {args : List String} : text ∈ front →
      checkIn? text = some (name, "ffi_output", args) → Suits front slots name (typed name "&mut [u8]")
  | variant {name text : String} {args : List String} : text ∈ front →
      checkIn? text = some (name, "ffi_enum", args) → Suits front slots name (typed name "u8")
  | number {name : String} (w : Width) : typed name w.rust ++ "," ∈ slots →
      (∀ text ∈ front, ∀ x, checkIn? text = some x → x.1 ≠ name) →
      Suits front slots name (typed name w.rust)

/-- The arguments of the call of the safe layer. -/
def Function.callArgs (f : Function) : List String := f.parameters.map fun p => p.argument.pass.expression

theorem Argument.check?_slot {a : Argument} {c : SlotCheck} (h : a.check? = some c) :
    c.told.1 = a.name := by
  unfold check? at h
  split at h
  · obtain rfl := Option.some.inj h
    rfl
  · obtain rfl := Option.some.inj h
    rfl
  · obtain rfl := Option.some.inj h
    rfl
  · nomatch h

theorem Function.passed_eq (f : Function) :
    f.exported.passed.map (·.expression) = f.callArgs := by
  have hresult : (f.returns.map fun t => (⟨resultSlot, t, .outBuffer, true⟩ : Argument)).toList.filter
      (!·.isResult) = [] := by
    cases f.returns <;> rfl
  have hparams : (f.parameters.map (·.argument)).filter (!·.isResult) = f.parameters.map (·.argument) := by
    refine List.filter_eq_self.2 (List.forall_mem_map.2 fun p _ => rfl)
  unfold exported arguments callArgs
  dsimp only
  rw [List.filter_append, hresult, hparams, List.append_nil, List.map_map, List.map_map]
  rfl

theorem textsAt_exported (f : Function) : textsAt 2 f.exported.lines = f.exported.statements := by
  simp [Export.lines]

theorem slot_mem_exported {f : Function} (slot : Slot) (h : slot ∈ f.slots) :
    typed slot.name slot.kind.rust ++ "," ∈ textsAt 1 f.exported.lines := by
  have hslots : (f.exported.slots.map fun x => x.1 ++ ": " ++ x.2.rust ++ ",") ⊆
      textsAt 1 f.exported.lines := by
    simp [Export.lines]
  exact hslots (List.mem_map.2 ⟨(slot.name, slot.kind), List.mem_map.2 ⟨slot, h, rfl⟩, rfl⟩)

section

variable {m : Model} {f : Function}

theorem signatureOf_safe (hm : m.WellFormed) (hf : f ∈ m.functions) (api errorType : String) :
    signatureOf ((f.safe api).lines errorType) =
      f.parameters.map fun p => typed p.name p.safeType.rust := by
  have hhead : (textsAt 0 ((f.safe api).lines errorType)).headD "" =
      "pub fn " ++ f.safeSymbol ++
        (inParens (commas (f.parameters.map fun p => typed p.name p.safeType.rust)) ++
          (" -> Result<" ++ (f.safe api).returns.rust ++ ", " ++ errorType ++ ">" ++ " " ++ opening)) := by
    simp [SafeFunction.lines, block, Function.safe, typed, Function.comp_def, String.append_assoc]
  have hfree : '(' ∉ ("pub fn " ++ f.safeSymbol).toList := by
    rw [String.toList_append, List.mem_append, not_or]
    exact ⟨by decide, (hm.named hf).wordy_safeSymbol.notMem (by decide)⟩
  rw [signatureOf, hhead, parametersIn_append _ hfree]
  refine List.forall_mem_map.2 fun p hp => ?_
  have ha : p.argument ∈ f.arguments := Function.argument_mem hp
  have hname : ListItem p.name := .of_wordy (hm.known hf ha).name (hm.free_name hf ha).1
  have htype : ',' ∉ p.safeType.rust.toList ∧ ')' ∉ p.safeType.rust.toList := by
    cases p.safeType with
    | number w => cases w <;> decide
    | _ => decide
  exact (hname.append (by decide) (by decide)).append htype.1 htype.2

theorem check_mem_front {a : Argument} (ha : a ∈ f.arguments) {c : SlotCheck}
    (hc : a.check? = some c) : c.statement ∈ f.exported.checks.map (·.statement) :=
  List.mem_map.2 ⟨c, List.mem_filterMap.2 ⟨a, mem_readFirst.2 ha, hc⟩, rfl⟩

/-- What needs no check has none, not even one under its name. -/
theorem checkIn?_ne (hm : m.WellFormed) (hf : f ∈ m.functions) {a : Argument} (ha : a ∈ f.arguments)
    (hnone : a.check? = none) {text : String} (htext : text ∈ f.exported.checks.map (·.statement))
    {x : String × String × List String} (hx : checkIn? text = some x) : x.1 ≠ a.name := by
  obtain ⟨c, hc, rfl⟩ := List.mem_map.1 htext
  obtain ⟨b, hb, hcheck⟩ := List.mem_filterMap.1 hc
  rw [mem_readFirst] at hb
  obtain ⟨hslot, hargs⟩ := b.listItems hm (hm.known hf hb) (hm.free_name hf hb).1 hcheck
  rw [SlotCheck.checkIn?_statement hslot hargs] at hx
  cases hx
  rw [Argument.check?_slot hcheck]
  -- The check would be one of an argument with the same name, and there is no other.
  intro hname
  obtain rfl := List.inj_on_of_nodup_map (f.nodup_arguments (hm.function hf).native) hb ha hname
  rw [hnone] at hcheck
  nomatch hcheck

/-- Every argument of the call has the type of its parameter. -/
theorem suits_callArgs (hm : m.WellFormed) (hf : f ∈ m.functions) :
    List.Forall₂ (Suits (f.exported.checks.map (·.statement)) (textsAt 1 f.exported.lines)) f.callArgs
      (f.parameters.map fun p => typed p.name p.safeType.rust) := by
  unfold Function.callArgs
  rw [List.forall₂_map_left_iff, List.forall₂_map_right_iff]
  refine List.forall₂_same.2 fun p hp => ?_
  have ha : p.argument ∈ f.arguments := Function.argument_mem hp
  have hcheck : ∀ {c : SlotCheck}, p.argument.check? = some c →
      c.statement ∈ f.exported.checks.map (·.statement) ∧ checkIn? c.statement = some c.told := by
    intro c hc
    obtain ⟨hslot, hargs⟩ :=
      p.argument.listItems hm (hm.known hf ha) (hm.free_name hf ha).1 hc
    exact ⟨check_mem_front ha hc, SlotCheck.checkIn?_statement hslot hargs⟩
  -- Direction and shape decide both what is handed over and what is declared.
  obtain ⟨name, ⟨type, shape, placement⟩, direction⟩ := p
  cases direction with
  | output =>
    obtain ⟨hmem, htold⟩ := hcheck rfl
    exact .filled hmem htold
  | input =>
    cases shape with
    | buffer size =>
      obtain ⟨hmem, htold⟩ := hcheck rfl
      exact .read hmem htold
    | enum variants =>
      obtain ⟨hmem, htold⟩ := hcheck rfl
      exact .variant hmem htold
    | scalar w =>
      refine .number w ?_ fun text htext x hx => checkIn?_ne hm hf ha rfl htext hx
      exact slot_mem_exported ⟨name, .value w, _⟩
        (List.mem_flatMap.2 ⟨_, ha, List.mem_singleton_self _⟩)

end

/-! ## An export in order -/

/-- Whether a line calls a function of the safe layer. -/
def callsSafeLayer (text : String) : Bool :=
  (callIn? text).any fun call => (fromSafeLayer "").toList.isPrefixOf call.1.toList

/-- `f.ExportInOrder parameters front call back` — the export of the function: all checks that are due
and none besides, the one call of its safe function, with an argument for every one of the parameters,
and then what is stored of the result. -/
structure Function.ExportInOrder (f : Function) (parameters front : List String) (call : String)
    (back : List String) : Prop where
  cut : CutByCall (textsAt 2 f.exported.lines) front call back
  checks : front.map checkIn? = f.dueChecks.map some
  checked : ∀ text ∈ call :: back, checkIn? text = none
  called : ∃ args, callIn? call = some (fromSafeLayer f.safeSymbol, args) ∧
    List.Forall₂ (Suits front (textsAt 1 f.exported.lines)) args parameters
  once : ∀ text ∈ front ++ back, callsSafeLayer text = false
  filled : back.filterMap filledBy? = (f.returns.map fun _ => resultSlot).toList

namespace Function

/-- The line of an export that calls the safe layer. -/
def callLine (f : Function) : String :=
  (if f.returns.isSome then "let " ++ resultLabel ++ " = " else "") ++ f.exported.call ++ ";"

/-- What an export does behind the call. -/
def storing (f : Function) : List String :=
  (f.returns.map fun t => t.store.statement resultSlot resultLabel).toList ++ ["Ok(())"]

theorem statements_eq (f : Function) : f.exported.statements =
    f.exported.checks.map (·.statement) ++ f.callLine :: f.storing := by
  have hstored : f.exported.stored = f.returns.map (·.store) := rfl
  unfold Export.statements callLine storing
  rw [List.append_assoc, hstored]
  cases f.returns with
  | none => simp
  | some t => simp [String.append_assoc]

/-- Of the lines behind the call there are few. -/
theorem forall_storing {P : String → Prop} (f : Function) (hok : P "Ok(())")
    (h : ∀ store : Store, P (store.statement resultSlot resultLabel)) : ∀ text ∈ f.storing, P text := by
  refine List.forall_mem_append.2 ⟨?_, List.forall_mem_singleton.2 hok⟩
  intro text htext
  obtain ⟨t, _, rfl⟩ := Option.map_eq_some_iff.1 (Option.mem_toList.1 htext)
  exact h _

theorem filled_storing (f : Function) :
    f.storing.filterMap filledBy? = (f.returns.map fun _ => resultSlot).toList := by
  have hok : filledBy? "Ok(())" = none := by decide
  have hstore : ∀ store : Store, filledBy? (store.statement resultSlot resultLabel) = some resultSlot :=
    fun store => store.filledBy?_statement (by decide)
  unfold storing
  rw [List.filterMap_append]
  cases f.returns with
  | none => simp [hok]
  | some t => simp [hok, hstore]

end Function

theorem filledBy?_callLine (f : Function) : filledBy? f.callLine = none := by
  have hcall : ∃ rest, f.exported.call = "simpleapi::" ++ rest := by
    unfold Export.call fromSafeLayer
    simp only [String.append_assoc]
    exact ⟨_, rfl⟩
  obtain ⟨rest, hcall⟩ := hcall
  unfold Function.callLine
  rw [hcall]
  split
  · have hlet : "let " ++ resultLabel ++ " = " = "let " ++ (resultLabel ++ " = ") := String.append_assoc
    rw [hlet, String.append_assoc, String.append_assoc]
    exact filledBy?_let _
  · refine filledBy?_eq_none (c := ':') ?_ (by decide)
    rw [behindWord, String.append_assoc, String.append_assoc, String.empty_append, String.toList_append]
    rfl

section

variable {m : Model} {f : Function}

theorem listItem_callArgs (hm : m.WellFormed) (hf : f ∈ m.functions) : ∀ a ∈ f.callArgs, ListItem a := by
  refine List.forall_mem_map.2 fun p hp => ?_
  have ha : p.argument ∈ f.arguments := Function.argument_mem hp
  have hname : ListItem p.name := .of_wordy (hm.known hf ha).name (hm.free_name hf ha).1
  have hlent : ListItem "&" := ⟨⟨'&', [], rfl, by decide⟩, by decide, by decide⟩
  unfold Argument.pass
  split
  · exact hlent.append hname.noComma hname.noClosing
  · exact hname

theorem callIn?_callLine (hm : m.WellFormed) (hf : f ∈ m.functions) :
    callIn? f.callLine = some (fromSafeLayer f.safeSymbol, f.callArgs) := by
  have hpath : ∀ c ∈ (fromSafeLayer f.safeSymbol).toList, isPathChar c = true := by
    unfold fromSafeLayer
    rw [String.toList_append]
    exact List.forall_mem_append.2 ⟨List.all_eq_true.1 (by decide),
      isPathChar_of_wordy (hm.named hf).wordy_safeSymbol⟩
  refine callIn?_eq (if f.returns.isSome then "let " ++ resultLabel ++ " = " else "")
    (".map_err(ffi_return_code)?" ++ ";") ?_ ?_ ?_ hpath (listItem_callArgs hm hf)
  · unfold Function.callLine Export.call
    rw [f.passed_eq]
    simp only [String.append_assoc]
    rfl
  · split <;> decide
  · split <;> decide

theorem checkIn?_callLine (hm : m.WellFormed) (hf : f ∈ m.functions) : checkIn? f.callLine = none := by
  have hother : ¬ checkHelpers.contains (fromSafeLayer f.safeSymbol) = true := by
    intro hmem
    exact (by decide : ∀ h ∈ checkHelpers, ':' ∉ h.toList) _ (List.contains_iff_mem.1 hmem)
      (fromSafeLayer_colon _)
  rw [checkIn?, callIn?_callLine hm hf]
  split
  · rename_i hcall
    cases hcall
    exact if_neg hother
  · rfl

theorem callsSafeLayer_eq_false {text : String} (helpers : List String)
    (hcalls : ∀ x, callIn? text = some x → x.1 ∈ helpers)
    (hother : ∀ h ∈ helpers, (fromSafeLayer "").toList.isPrefixOf h.toList = false) :
    callsSafeLayer text = false := by
  unfold callsSafeLayer
  cases hcall : callIn? text with
  | none => rfl
  | some x => exact hother _ (hcalls x hcall)

theorem exportInOrder (hm : m.WellFormed) (hf : f ∈ m.functions) (api errorType : String) :
    f.ExportInOrder (signatureOf ((f.safe api).lines errorType))
      (f.exported.checks.map (·.statement)) f.callLine f.storing where
  cut := by
    refine ⟨?_, List.forall_mem_append.2 ⟨?_, ?_⟩, f.forall_storing (by decide) fun store => ?_⟩
    · rw [textsAt_exported, f.statements_eq]
    · exact List.forall_mem_map.2 fun c _ => c.filledBy?_statement
    · exact List.forall_mem_singleton.2 (filledBy?_callLine f)
    · exact store.leavesEarly_statement (by decide) (by decide) (by decide)
  checks := checks_told hm hf
  checked := by
    refine List.forall_mem_cons.2 ⟨checkIn?_callLine hm hf, f.forall_storing (by decide) fun store => ?_⟩
    unfold checkIn?
    split
    · rename_i x _ hx
      rw [store.callIn?_statement (by decide) (by decide) hx]
      exact if_neg (by decide)
    · rfl
  called := by
    refine ⟨f.callArgs, callIn?_callLine hm hf, ?_⟩
    rw [signatureOf_safe hm hf]
    exact suits_callArgs hm hf
  once := by
    -- The checks call their helpers, and what is stored calls a method, if anything.
    refine List.forall_mem_append.2 ⟨List.forall_mem_map.2 fun c hc => ?_, ?_⟩
    · obtain ⟨a, ha, hcheck⟩ := List.mem_filterMap.1 hc
      rw [mem_readFirst] at ha
      obtain ⟨hslot, hargs⟩ := a.listItems hm (hm.known hf ha) (hm.free_name hf ha).1 hcheck
      refine callsSafeLayer_eq_false checkHelpers (fun x hx => ?_) (by decide)
      rw [SlotCheck.callIn?_statement hslot hargs] at hx
      cases hx
      exact c.helper_mem
    · refine f.forall_storing (by decide) fun store => ?_
      refine callsSafeLayer_eq_false ["copy_from_slice"] (fun x hx => ?_) (by decide)
      exact List.mem_singleton.2 (store.callIn?_statement (by decide) (by decide) hx)
  filled := f.filled_storing

end

/-! ## The shims of a description -/

/-- `ShimsInOrder s m core` — for every function there is an export and a safe function in the files of
the two layers, and both are in order; the export goes by the parameters that the safe function
declares. -/
structure ShimsInOrder (s : Setting) (m : Model) (core : List Source.File) : Prop where
  exports : ∀ module ∈ m.modules,
    Emitted core s ("ffiapi/ffiapi_" ++ module.name ++ ".rs") (exportLines s module)
  safe : ∃ body, Emitted core s "simpleapi/simpleapi.rs" body ∧ ∀ f ∈ m.functions,
    (f.safe s.options.apiPath).lines s.options.errorTypeName <:+: body
  exportOrder : ∀ module ∈ m.modules, ∀ f ∈ module.functions,
    f.exported.lines <:+: exportLines s module ∧ ∃ front call back, f.ExportInOrder
      (signatureOf ((f.safe s.options.apiPath).lines s.options.errorTypeName)) front call back
  safeOrder : ∀ f ∈ m.functions, ∃ front call back,
    f.SafeInOrder s.options.apiPath s.options.errorTypeName front call back

/-- **Shims check, call and then fill**, whatever the API: in what is generated from a valid description
under valid options, every export and every safe function is in order. -/
theorem shims_in_order {es : List (Value × Value)} {m : Model} {o : Options} {t : ErrorTable}
    {core : List Source.File} (hm : Model.ofDescription es = .ok m) (ho : o.Valid)
    (hcore : Target.core.emit m o t = .ok core) :
    ∃ s : Setting, s.For o t ∧ ShimsInOrder s m core := by
  have hw : m.WellFormed := (ofDescription_eq_ok.1 hm).2
  obtain ⟨s, hs, refused, rfl⟩ := emit_core hcore
  have hapi : isPath s.options.apiPath = true := by
    rw [hs.options]
    exact ho.apiPath
  refine ⟨s, hs, fun module hmodule => ?_, ⟨safeLines s m refused, ?_, fun f hf => ?_⟩,
    fun module hmodule f hf => ?_, fun f hf => ⟨_, _, _, safeInOrder hw hf hapi _⟩⟩
  · rw [← exportPath module.name]
    exact emitted_exportModule hw.distinct refused hmodule
  · exact emitted_of_last (List.forall_mem_nil _)
  · exact safe_infix hf refused
  · have hlines := infix_flatMap (fun f : Function => f.exported.lines) hf
    exact ⟨hlines.trans (List.suffix_append _ _).isInfix, _, _, _,
      exportInOrder hw (Model.mem_functions.2 ⟨module, hmodule, hf⟩) _ _⟩

/-- A description with a function that declares an output in front of its inputs. -/
def sealEntries : List (Value × Value) :=
  [(.str "types", .list
      [.map [(.str "name", .str "Key"), (.str "kind", .str "buffer"), (.str "size", .int 32)],
        .map [(.str "name", .str "Round"), (.str "kind", .str "scalar"), (.str "size", .int 2)],
        .map [(.str "name", .str "Mode"), (.str "kind", .str "enum"),
          (.str "variants", .list [.str "Fast", .str "Slow"])]]),
    (.str "modules", .list [.map [(.str "name", .str "vault"), (.str "functions", .list
      [.map [(.str "name", .str "seal"), (.str "fallible", .bool true), (.str "params", .list
          [.map [(.str "name", .str "tag"), (.str "type", .str "Key"), (.str "direction", .str "out")],
            .map [(.str "name", .str "key"), (.str "type", .str "Key")],
            .map [(.str "name", .str "round"), (.str "type", .str "Round")],
            .map [(.str "name", .str "mode"), (.str "type", .str "Mode")]]),
        (.str "returns", .str "Round")]])]])]

theorem shims_in_order_seal :
    ∃ m core s, Model.ofDescription sealEntries = .ok m ∧
      m.functions.map (·.dueChecks) =
        [[("key", "ffi_input", ["key", "keyLen", "simpleapi::KEY_LEN"]),
          ("mode", "ffi_enum", ["mode", "simpleapi::MODE_VARIANTS"]),
          ("tag", "ffi_output", ["tag", "tagLen", "simpleapi::KEY_LEN"]),
          ("out", "ffi_output", ["out", "outLen", "2"])]] ∧ ShimsInOrder s m core := by
  let key : TypeDef := ⟨"Key", .buffer 32, none⟩
  let round : TypeDef := ⟨"Round", .scalar .two, none⟩
  let mode : TypeDef := ⟨"Mode", .enum ["Fast", "Slow"], none⟩
  let m : Model := ⟨[key, round, mode], [⟨"vault", [⟨"seal", "vault", [⟨"tag", key, .output⟩,
    ⟨"key", key, .input⟩, ⟨"round", round, .input⟩, ⟨"mode", mode, .input⟩], some round, true⟩]⟩]⟩
  have hm : Model.ofDescription sealEntries = .ok m := by decide +kernel
  obtain ⟨core, hcore⟩ : ∃ fs, Target.core.emit m .standard .standard = .ok fs :=
    exists_eq_ok (by decide +kernel)
  obtain ⟨s, _, hs⟩ := shims_in_order hm valid_standard hcore
  exact ⟨m, core, s, hm, by decide +kernel, hs⟩

end Bindery
