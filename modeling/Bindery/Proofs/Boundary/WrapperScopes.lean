/-
  THE SCOPES OF THE WRAPPERS: what a Java method and a Swift function bind.

  Both bind the inputs, a local array for each argument that the call fills, and the number that comes
  back; a Java method that guards its decoding binds what it catches.  What they hand out has names,
  too: the fields of a result class, and the labels of a tuple.
-/
import Bindery.Proofs.Boundary.CoreScopes

namespace Bindery

open Naming Source

section

variable {m : Model} {f : Function}

theorem Model.WellFormed.word_typeName (hm : m.WellFormed) {t : TypeDef} (ht : t ∈ m.types) :
    Wordy t.name.toList ∧ t.name ≠ "" := by
  have hname : isTypeName t.name = true := (hm.types.each t ht).named.1
  refine ⟨wordy_of_plain (plain_of_isTypeName hname), fun hempty => ?_⟩
  rw [hempty] at hname
  exact absurd hname (by decide)

theorem wordy_input (hm : m.WellFormed) (hf : f ∈ m.functions) {p : Parameter} (hp : p ∈ f.inputs) :
    Wordy p.name.toList :=
  (hm.known hf (Function.argument_mem (List.mem_of_mem_filter hp))).name

/-! ## Names of a wrapper -/

namespace Function

/-- The names that a wrapper binds, with some of its own. -/
def wrapperNames (f : Function) (own : List String) : List String :=
  f.inputs.map (·.name) ++ ((f.arguments.filter (·.isFilled)).map (·.name) ++ own)

end Function

/-- A wrapper binds no name twice. -/
theorem nodup_wrapperNames (hm : m.WellFormed) (hf : f ∈ m.functions) {own : List String}
    (hown : own ⊆ ownNames) (hnodup : own.Nodup) : (f.wrapperNames own).Nodup := by
  have hnames : (f.inputs.map (·.name) ++ (f.arguments.filter (·.isFilled)).map (·.name)).Nodup := by
    have hinputs : f.inputs.map (·.name) = (f.arguments.filter (!·.isFilled)).map (·.name) := by
      rw [f.arguments_read, List.map_map]
      rfl
    rw [hinputs, ← List.map_append]
    refine (List.Perm.map _ ?_).nodup_iff.2 (f.nodup_arguments (hm.function hf).native)
    exact readFirst_perm f.arguments
  have hargument : ∀ name ∈ f.inputs.map (·.name) ++ (f.arguments.filter (·.isFilled)).map (·.name),
      ∃ a ∈ f.arguments, a.name = name := by
    refine List.forall_mem_append.2 ⟨List.forall_mem_map.2 fun p hp => ?_,
      List.forall_mem_map.2 fun a ha => ⟨a, List.mem_of_mem_filter ha, rfl⟩⟩
    exact ⟨p.argument, Function.argument_mem (List.mem_of_mem_filter hp), rfl⟩
  unfold Function.wrapperNames
  rw [← List.append_assoc]
  refine List.nodup_append.2 ⟨hnames, hnodup, ?_⟩
  rintro x hx y hy rfl
  obtain ⟨a, ha, hname⟩ := hargument x hx
  exact hm.own_ne hf ha (hown hy) hname

/-- All that a wrapper binds is bindable, and has no underscore. -/
theorem bindable_wrapperNames (hm : m.WellFormed) (hf : f ∈ m.functions) {own : List String}
    (hown : own ⊆ ["ffiResult", "e"]) : ∀ name ∈ f.wrapperNames own, Bindable f name ∧ bars name = 0 := by
  have hargument : ∀ a ∈ f.arguments, Bindable f a.name ∧ bars a.name = 0 := fun a ha =>
    ⟨.argument ha, bars_of_plain (hm.plain_argument hf ha)⟩
  refine List.forall_mem_append.2 ⟨List.forall_mem_map.2 fun p hp => ?_, List.forall_mem_append.2
    ⟨List.forall_mem_map.2 fun a ha => hargument a (List.mem_of_mem_filter ha), fun name hname => ?_⟩⟩
  · exact hargument p.argument (Function.argument_mem (List.mem_of_mem_filter hp))
  · obtain ⟨hmem, hbars⟩ := (by decide : ∀ n ∈ ["ffiResult", "e"], n ∈ ownNames ∧ bars n = 0) name
      (hown hname)
    exact ⟨.own hmem, hbars⟩

end

/-! ## Java methods -/

/-- A line of Java whose second word is followed by something else than a value. -/
theorem boundInJava?_other {word rest : String} (hword : ' ' ∉ word.toList)
    (hcatch : Apart catching word) (hrest : ¬ " = ".toList <+: behindWord rest) :
    boundInJava? (word ++ (" " ++ rest)) = none := by
  rw [boundInJava?_eq hword (hcatch.append _)]
  exact if_neg fun h => hrest h.2

/-- A condition binds nothing. -/
theorem boundInJava?_if (condition : String) : boundInJava? ("if (" ++ condition) = none := by
  have hread : "if (" ++ condition = "if" ++ (" " ++ ("(" ++ condition)) := by
    have hif : "if (" = "if" ++ (" " ++ "(") := by decide
    rw [hif]
    simp only [String.append_assoc]
  rw [hread]
  -- A parenthesis stands where a declaration has the name.
  refine boundInJava?_other (by decide) (by decide) ?_
  rintro ⟨more, hmore⟩
  rw [behindWord, String.toList_append] at hmore
  have hhead : some ' ' = some '(' := congrArg List.head? hmore
  exact absurd hhead (by decide)

theorem boundInJava?_throw (rest : String) : boundInJava? ("throw new " ++ rest) = none := by
  have hread : "throw new " ++ rest = "throw" ++ (" " ++ ("new " ++ rest)) := by
    have hnew : "throw new " = "throw" ++ (" " ++ "new ") := by decide
    rw [hnew]
    simp only [String.append_assoc]
  rw [hread]
  exact boundInJava?_statement (by decide)

theorem boundInJava?_return (rest : String) : boundInJava? ("return " ++ rest) = none := by
  have hread : "return " ++ rest = "return" ++ (" " ++ rest) := by
    have hreturn : "return " = "return" ++ " " := by decide
    rw [hreturn, String.append_assoc]
  rw [hread]
  exact boundInJava?_statement (by decide)

section

variable {m : Model} {f : Function}

/-- The lines of the check of a range. -/
theorem texts_rangeCheck (s : Setting) (x : String × Width) : (rangeCheck s x).map (·.text) =
    ["if (" ++ (x.1 ++ " < 0 || " ++ x.1 ++ " > " ++
        ("0x" ++ String.ofList (Nat.toDigits 16 x.2.greatest)) ++ ")" ++ " " ++ opening),
      "throw new " ++ (s.codes.invalidInput.exceptionName ++ "(" ++ codeConstant s.refused ++ ","),
      "\"" ++ x.1 ++ " out of range: \" + " ++ x.1 ++ ");", closing] := by
  simp [rangeCheck, block, indent, line, Source.lines, String.append_assoc]

/-- The check of a range binds nothing. -/
theorem boundInJava?_rangeCheck (s : Setting) {x : String × Width} (hx : Wordy x.1.toList) :
    ∀ text ∈ (rangeCheck s x).map (·.text), boundInJava? text = none := by
  have hblank : ' ' ∉ ("\"" ++ x.1).toList := by
    rw [String.toList_append, List.mem_append, not_or]
    exact ⟨by decide, hx.notMem (by decide)⟩
  have hcatch : Apart catching ("\"" ++ x.1) := by
    have happart : Apart catching "\"" := by decide
    exact happart.append _
  have hmessage : boundInJava? ("\"" ++ x.1 ++ " out of range: \" + " ++ x.1 ++ ");") = none := by
    have hread : "\"" ++ x.1 ++ " out of range: \" + " ++ x.1 ++ ");" =
        ("\"" ++ x.1) ++ (" " ++ ("out of range: \" + " ++ (x.1 ++ ");"))) := by
      have hout : " out of range: \" + " = " " ++ "out of range: \" + " := by decide
      rw [hout]
      simp only [String.append_assoc]
    -- The line starts with a string, which looks like a type; but nothing is assigned in it.
    rw [hread]
    refine boundInJava?_other hblank hcatch ?_
    rintro ⟨more, hmore⟩
    rw [behindWord, String.toList_append] at hmore
    have hsecond : some '=' = some 'o' := congrArg (fun s : List Char => s[1]?) hmore
    exact absurd hsecond (by decide)
  rw [texts_rangeCheck]
  exact List.forall_mem_cons.2 ⟨boundInJava?_if _, List.forall_mem_cons.2 ⟨boundInJava?_throw _,
    List.forall_mem_cons.2 ⟨hmessage, List.forall_mem_singleton.2 (by decide)⟩⟩⟩

/-- What becomes of the number that comes back, line by line. -/
theorem texts_outcome (s : Setting) (j : JavaMethod) : (j.outcome s).map (·.text) =
    if j.fallible then [baseException ++ ".checkResult(ffiResult);"]
    else ["if (" ++ ("ffiResult != " ++ (codeConstant s.ok ++ (")" ++ (" " ++ opening)))),
      "throw new " ++ ("AssertionError(\"" ++ (j.callee ++ " returned \" + ffiResult);")), closing] := by
  have hif : "if (ffiResult != " = "if (" ++ "ffiResult != " := by decide
  have hnew : "throw new AssertionError(\"" = "throw new " ++ "AssertionError(\"" := by decide
  unfold JavaMethod.outcome
  split
  · rfl
  · show ["if (ffiResult != " ++ codeConstant s.ok ++ ")" ++ " " ++ opening,
      "throw new AssertionError(\"" ++ j.callee ++ " returned \" + ffiResult);", closing] = _
    rw [hif, hnew]
    simp only [String.append_assoc]

/-- It binds nothing, either. -/
theorem boundInJava?_outcome (s : Setting) (j : JavaMethod) :
    ∀ text ∈ (j.outcome s).map (·.text), boundInJava? text = none := by
  rw [texts_outcome]
  split
  · exact List.forall_mem_singleton.2 (by decide)
  · exact List.forall_mem_cons.2 ⟨boundInJava?_if _, List.forall_mem_cons.2 ⟨boundInJava?_throw _,
      List.forall_mem_singleton.2 (by decide)⟩⟩

theorem returnStatement?_start {j : JavaMethod} {statement : String}
    (h : j.returnStatement? = some statement) : ∃ rest, statement = "return " ++ rest := by
  unfold JavaMethod.returnStatement? at h
  split at h
  · exact absurd h (by simp)
  · obtain rfl := Option.some.inj h
    exact ⟨_, String.append_assoc⟩
  · obtain rfl := Option.some.inj h
    have hnew : "return new " = "return " ++ "new " := by decide
    rw [hnew]
    simp only [String.append_assoc]
    exact ⟨_, rfl⟩

theorem boundInJava?_returnStatement {j : JavaMethod} {statement : String}
    (h : j.returnStatement? = some statement) : boundInJava? statement = none := by
  obtain ⟨rest, rfl⟩ := returnStatement?_start h
  exact boundInJava?_return rest

/-- Who returns nothing decodes nothing, and has no reason to guard it. -/
theorem guarded_eq_false {s : Setting} (h : (f.javaMethod s).returnStatement? = none) :
    f.guarded = false := by
  have hempty : f.deliveries = [] := by
    have hdecoded : (f.javaMethod s).decoded = f.deliveries.map (·.javaDecode) := rfl
    unfold JavaMethod.returnStatement? at h
    rw [hdecoded] at h
    cases hdeliveries : f.deliveries with
    | nil => rfl
    | cons d ds =>
      rw [hdeliveries] at h
      cases ds <;> nomatch h
  unfold Function.guarded Function.decodeThrows
  rw [hempty]
  exact Bool.and_false _

/-- The end of a method, line by line: what it returns stands by itself, or between a line that tries it
and one that catches. -/
theorem texts_conclusion (f : Function) (s : Setting) : ((f.javaMethod s).conclusion s).map (·.text) =
    if f.guarded then
      "try \x7b" :: (f.javaMethod s).returnStatement?.toList ++
        [catching ++ (s.codes.invalidInput.exceptionName ++ " e) \x7b"), "throw new AssertionError(e);",
          closing]
    else (f.javaMethod s).returnStatement?.toList := by
  have hguarded : (f.javaMethod s).guarded = f.guarded := rfl
  unfold JavaMethod.conclusion
  cases hstatement : (f.javaMethod s).returnStatement? with
  | none =>
    rw [guarded_eq_false hstatement]
    rfl
  | some statement =>
    rw [hguarded]
    dsimp only
    split
    · have htry : "try " ++ opening = "try \x7b" := by decide
      have hopen : closing ++ " catch (" = catching := by decide
      have hclose : " e) " ++ opening = " e) \x7b" := by decide
      show ["try " ++ opening, statement, closing ++ " catch (" ++
        s.codes.invalidInput.exceptionName ++ " e) " ++ opening, "throw new AssertionError(e);",
          closing] = _
      rw [htry, hopen, String.append_assoc, String.append_assoc, hclose]
      rfl
    · rfl

/-- At its end a method binds what it catches, if it guards its decoding. -/
theorem bound_conclusion (f : Function) (s : Setting) :
    (((f.javaMethod s).conclusion s).map (·.text)).filterMap boundInJava? =
      if f.guarded then ["e"] else [] := by
  have hreturn : (f.javaMethod s).returnStatement?.toList.filterMap boundInJava? = [] :=
    List.filterMap_eq_nil_iff.2 fun _ h => boundInJava?_returnStatement (Option.mem_toList.1 h)
  have htry : boundInJava? "try \x7b" = none := by decide
  have hassert : boundInJava? "throw new AssertionError(e);" = none := by decide
  have hclosing : boundInJava? closing = none := by decide
  rw [texts_conclusion]
  split
  · simp [hreturn, htry, hassert, hclosing, boundInJava?_catch]
  · exact hreturn

namespace Function

/-- The line of a method that calls the native method. -/
def javaCall (f : Function) : String :=
  "int ffiResult = Native." ++ f.nativeMethod ++
    inParens (commas (f.arguments.map fun a => a.nativeArg.expression)) ++ ";"

/-- The line of a method that makes room for what is filled. -/
def javaRoom (a : Argument) : String :=
  "byte[] " ++ a.name ++ " = new byte[" ++ a.type.size.spell classSize ++ "];"

theorem textsWithin_java (f : Function) (s : Setting) : textsWithin ((f.javaMethod s).lines s) =
    (f.ranged.flatMap (rangeCheck s)).map (·.text) ++
      ((f.arguments.filter (·.isFilled)).map javaRoom ++ ([f.javaCall] ++
        (((f.javaMethod s).outcome s).map (·.text) ++ ((f.javaMethod s).conclusion s).map (·.text)))) := by
  have hranged : (f.javaMethod s).ranged = f.ranged := rfl
  have hcallee : (f.javaMethod s).callee = f.nativeMethod := rfl
  have hpassed : (f.javaMethod s).passed = f.arguments.map (·.nativeArg) := rfl
  have hrooms : (f.javaMethod s).allocated =
      (f.arguments.filter (·.isFilled)).map fun a => (a.name, a.type.size) := rfl
  unfold javaCall javaRoom JavaMethod.lines
  simp [block, hranged, hcallee, hpassed, hrooms, Function.comp_def]

end Function

theorem wordy_javaValue (hm : m.WellFormed) {t : TypeDef} (ht : t ∈ m.types) :
    Wordy t.javaValue.toList ∧ t.javaValue ≠ "" := by
  unfold TypeDef.javaValue
  split
  · rename_i w _
    cases w <;> decide
  · exact hm.word_typeName ht

theorem types_deliveries (hm : m.WellFormed) (hf : f ∈ m.functions) :
    ∀ d ∈ f.deliveries, d.type ∈ m.types := by
  have hw := hm.function hf
  refine List.forall_mem_append.2 ⟨List.forall_mem_map.2 fun p hp => ?_, fun d hd => ?_⟩
  · exact (hw.parameters p (List.mem_of_mem_filter hp)).2
  · obtain ⟨t, ht, rfl⟩ := Option.map_eq_some_iff.1 (Option.mem_toList.1 hd)
    exact hw.returns t ht

theorem wordy_resultClass (hm : m.WellFormed) (hf : f ∈ m.functions) : Wordy f.resultClass.toList := by
  unfold Function.resultClass
  rw [String.toList_append]
  exact (wordy_of_plain (plain_capitalize (hm.named hf).name)).append (by decide)

theorem wordy_javaReturns (hm : m.WellFormed) (hf : f ∈ m.functions) : Wordy f.javaReturns.toList := by
  have htypes := types_deliveries hm hf
  unfold Function.javaReturns
  split
  · decide
  · rename_i d hd
    rw [hd] at htypes
    exact (wordy_javaValue hm (htypes d List.mem_cons_self)).1
  · exact wordy_resultClass hm hf

/-- The exception that a method declares, with the word in front of it. -/
def JavaMethod.throwsClause (j : JavaMethod) : String :=
  (j.throws.map fun exception => " throws " ++ exception).getD ""

/-- The head of a method: what it returns, its parameters, and what it declares to throw. -/
theorem head_java (f : Function) (s : Setting) : (textsAt 0 ((f.javaMethod s).lines s)).headD "" =
    "public static " ++ f.javaReturns ++ " " ++ f.name ++
      (inParens (commas (f.inputs.map fun p => p.type.javaValue ++ (" " ++ p.name))) ++
        ((f.javaMethod s).throwsClause ++ " " ++ opening)) := by
  have hparameters : (f.javaMethod s).parameters.map (fun p => p.1 ++ " " ++ p.2) =
      f.inputs.map fun p => p.type.javaValue ++ (" " ++ p.name) := by
    show (f.inputs.map _).map _ = _
    rw [List.map_map]
    exact List.map_congr_left fun p _ => String.append_assoc
  have hreturns : (f.javaMethod s).returns = f.javaReturns := rfl
  have hname : (f.javaMethod s).name = f.name := rfl
  unfold JavaMethod.lines JavaMethod.throwsClause
  rw [hparameters, hreturns, hname]
  cases (f.javaMethod s).throws <;>
    simp only [block, List.cons_append, textsAt_line_zero, List.headD_cons, String.append_assoc,
      Option.map_none, Option.map_some, Option.getD_none, Option.getD_some]

/-- The parameters that a method declares. -/
theorem signatureOf_java (hm : m.WellFormed) (hf : f ∈ m.functions) (s : Setting) :
    signatureOf ((f.javaMethod s).lines s) =
      f.inputs.map fun p => p.type.javaValue ++ (" " ++ p.name) := by
  have hfree : '(' ∉ ("public static " ++ f.javaReturns ++ " " ++ f.name).toList := by
    have hname : '(' ∉ f.name.toList := (wordy_of_plain (hm.named hf).name).notMem (by decide)
    have hreturn : '(' ∉ f.javaReturns.toList := (wordy_javaReturns hm hf).notMem (by decide)
    simp +decide only [String.toList_append, List.mem_append, hname, hreturn, or_self,
      not_false_eq_true]
  rw [signatureOf, head_java, parametersIn_append _ hfree]
  refine List.forall_mem_map.2 fun p hp => ?_
  have hp := List.mem_of_mem_filter hp
  have hname : Wordy p.name.toList := (hm.known hf (Function.argument_mem hp)).name
  obtain ⟨htype, hne⟩ := wordy_javaValue hm ((hm.function hf).parameters p hp).2
  refine (ListItem.of_wordy htype hne).append ?_ ?_
  · rw [String.toList_append, List.mem_append, not_or]
    exact ⟨by decide, hname.notMem (by decide)⟩
  · rw [String.toList_append, List.mem_append, not_or]
    exact ⟨by decide, hname.notMem (by decide)⟩

theorem parameters_java (hm : m.WellFormed) (hf : f ∈ m.functions) (s : Setting) :
    (signatureOf ((f.javaMethod s).lines s)).map (fun text => String.ofList (lastWord text.toList)) =
      f.inputs.map (·.name) := by
  rw [signatureOf_java hm hf, List.map_map]
  refine List.map_congr_left fun p hp => ?_
  have hname : Wordy p.name.toList := wordy_input hm hf hp
  have hread : (p.type.javaValue ++ (" " ++ p.name)).toList =
      (p.type.javaValue.toList ++ [' ']) ++ p.name.toList := by
    simp only [String.toList_append, List.append_assoc]
    rfl
  have hlast : ∀ c ∈ (p.type.javaValue.toList ++ [' ']).getLast?, c = ' ' := by
    intro c hc
    rw [List.getLast?_append] at hc
    exact (Option.some.inj hc).symm
  show String.ofList (lastWord (p.type.javaValue ++ (" " ++ p.name)).toList) = p.name
  rw [hread, lastWord_append hlast (hname.notMem (by decide)), String.ofList_toList]

theorem boundInJava?_room {a : Argument} (ha : Wordy a.name.toList) :
    boundInJava? (Function.javaRoom a) = some a.name := by
  have hread : Function.javaRoom a = "byte[]" ++ (" " ++ (a.name ++ (" = " ++
      ("new byte[" ++ (a.type.size.spell classSize ++ "];"))))) := by
    have htype : "byte[] " = "byte[]" ++ " " := by decide
    have hnew : " = new byte[" = " = " ++ "new byte[" := by decide
    unfold Function.javaRoom
    rw [htype, hnew]
    simp only [String.append_assoc]
  rw [hread]
  exact boundInJava?_declaration (by decide) (by decide) (by decide) ha

theorem boundInJava?_call (f : Function) : boundInJava? f.javaCall = some "ffiResult" := by
  have hread : f.javaCall = "int" ++ (" " ++ ("ffiResult" ++ (" = " ++ ("Native." ++ (f.nativeMethod ++
      (inParens (commas (f.arguments.map fun a => a.nativeArg.expression)) ++ ";")))))) := by
    have hint : "int ffiResult = Native." =
        "int" ++ (" " ++ ("ffiResult" ++ (" = " ++ "Native."))) := by decide
    unfold Function.javaCall
    rw [hint]
    simp only [String.append_assoc]
  rw [hread]
  exact boundInJava?_declaration (by decide) (by decide) (by decide) (by decide)

/-- What a Java method binds: the inputs, its local arrays, the number that comes back, and what it
catches. -/
theorem names_java (hm : m.WellFormed) (hf : f ∈ m.functions) (s : Setting) :
    (javaScope ((f.javaMethod s).lines s)).names =
      f.wrapperNames ("ffiResult" :: if f.guarded then ["e"] else []) := by
  have hranged : ((f.ranged.flatMap (rangeCheck s)).map (·.text)).filterMap boundInJava? = [] := by
    rw [List.map_flatMap]
    refine List.filterMap_eq_nil_iff.2 fun text htext => ?_
    obtain ⟨x, hx, htext⟩ := List.mem_flatMap.1 htext
    obtain ⟨p, hp, hrange⟩ := List.mem_filterMap.1 hx
    obtain ⟨_, _, hname⟩ := Parameter.ranged?_eq_some.1 hrange
    exact boundInJava?_rangeCheck s (hname ▸ wordy_input hm hf hp) text htext
  have hrooms : ((f.arguments.filter (·.isFilled)).map Function.javaRoom).filterMap boundInJava? =
      (f.arguments.filter (·.isFilled)).map (·.name) := by
    rw [List.filterMap_map, ← List.filterMap_eq_map]
    exact List.filterMap_congr fun a ha =>
      boundInJava?_room (hm.known hf (List.mem_of_mem_filter ha)).name
  have hcall : [f.javaCall].filterMap boundInJava? = ["ffiResult"] := by
    rw [List.filterMap_cons, boundInJava?_call]
    rfl
  have houtcome : (((f.javaMethod s).outcome s).map (·.text)).filterMap boundInJava? = [] :=
    List.filterMap_eq_nil_iff.2 (boundInJava?_outcome s _)
  have hlocals : (boundBy boundInJava? (textsWithin ((f.javaMethod s).lines s))).map Prod.fst =
      (f.arguments.filter (·.isFilled)).map (·.name) ++
        "ffiResult" :: if f.guarded then ["e"] else [] := by
    rw [boundBy_map_fst, f.textsWithin_java]
    simp only [List.filterMap_append, hranged, hrooms, hcall, houtcome, bound_conclusion,
      List.nil_append]
    rfl
  unfold Scope.names javaScope Function.wrapperNames
  rw [parameters_java hm hf, hlocals]

end

/-! ## Swift functions -/

section

variable {m : Model} {f : Function}

theorem wordy_swiftValue (hm : m.WellFormed) {t : TypeDef} (ht : t ∈ m.types) :
    Wordy t.swiftValue.toList := by
  unfold TypeDef.swiftValue
  split
  · rename_i w _
    cases w <;> decide
  · exact (hm.word_typeName ht).1

namespace Function

/-- The line of a wrapper that calls the exported function. -/
def swiftCall (f : Function) : String :=
  "let ffiResult = " ++ f.coreSymbol ++ inParens (commas (f.swift.passed.map (·.expression)))

/-- The line of a wrapper that makes room for what is filled. -/
def swiftRoom (a : Argument) : String :=
  "var " ++ a.name ++ " = [UInt8](repeating: 0, count: " ++ a.type.size.spell classSize ++ ")"

theorem textsWithin_swift (f : Function) (s : Setting) : textsWithin (f.swift.lines s) =
    (f.arguments.filter (·.isFilled)).map swiftRoom ++ ([f.swiftCall] ++ ([f.swift.outcome s] ++
      f.swift.returnStatement?.toList)) := by
  have hcallee : f.swift.callee = f.coreSymbol := rfl
  have hrooms : f.swift.allocated =
      (f.arguments.filter (·.isFilled)).map fun a => (a.name, a.type.size) := rfl
  unfold swiftCall swiftRoom SwiftFunction.lines
  simp [block, hcallee, hrooms, Function.comp_def]

end Function

/-- The head of a wrapper: its parameters, and what it is declared to return. -/
theorem head_swift (f : Function) (s : Setting) : (textsAt 0 (f.swift.lines s)).headD "" =
    "public static func " ++ f.name ++
      (inParens (commas (f.inputs.map fun p => typed p.name p.type.swiftValue)) ++
        ((if f.fallible then " throws" else "") ++ f.swift.returnClause ++ " " ++ opening)) := by
  have hparameters : f.swift.parameters.map (fun p => p.1 ++ ": " ++ p.2) =
      f.inputs.map fun p => typed p.name p.type.swiftValue := by
    show (f.inputs.map _).map _ = _
    rw [List.map_map]
    rfl
  have hname : f.swift.name = f.name := rfl
  have hfallible : f.swift.fallible = f.fallible := rfl
  unfold SwiftFunction.lines
  rw [hparameters, hname, hfallible]
  simp only [block, List.cons_append, textsAt_line_zero, List.headD_cons, String.append_assoc]

/-- The parameters of a wrapper are items of a list. -/
theorem listItem_swift (hm : m.WellFormed) (hf : f ∈ m.functions) :
    ∀ x ∈ f.inputs.map (fun p => typed p.name p.type.swiftValue), ListItem x := by
  refine List.forall_mem_map.2 fun p hp => ?_
  have hp := List.mem_of_mem_filter hp
  have ha := Function.argument_mem hp
  have htype := wordy_swiftValue hm ((hm.function hf).parameters p hp).2
  have hname : ListItem p.name := .of_wordy (hm.known hf ha).name (hm.free_name hf ha).1
  exact (hname.append (by decide) (by decide)).append (htype.notMem (by decide))
    (htype.notMem (by decide))

theorem beforeParens_swift (hm : m.WellFormed) (hf : f ∈ m.functions) :
    '(' ∉ ("public static func " ++ f.name).toList := by
  rw [String.toList_append, List.mem_append, not_or]
  exact ⟨by decide, (wordy_of_plain (hm.named hf).name).notMem (by decide)⟩

theorem parameters_swift (hm : m.WellFormed) (hf : f ∈ m.functions) (s : Setting) :
    (signatureOf (f.swift.lines s)).filterMap parameterName? = f.inputs.map (·.name) := by
  rw [signatureOf, head_swift, parametersIn_append _ (beforeParens_swift hm hf) (listItem_swift hm hf),
    List.filterMap_map, ← List.filterMap_eq_map]
  exact List.filterMap_congr fun p hp => parameterName?_typed (wordy_input hm hf hp) _

theorem boundInSwift?_room {a : Argument} (ha : Wordy a.name.toList) :
    boundInSwift? (Function.swiftRoom a) = some a.name := by
  have hread : Function.swiftRoom a = "var " ++ (a.name ++ (" = " ++
      ("[UInt8](repeating: 0, count: " ++ (a.type.size.spell classSize ++ ")")))) := by
    have hroom : " = [UInt8](repeating: 0, count: " = " = " ++ "[UInt8](repeating: 0, count: " := by
      decide
    unfold Function.swiftRoom
    rw [hroom]
    simp only [String.append_assoc]
  rw [hread]
  exact boundInSwift?_var ha (stops_append (by decide) _)

theorem boundInSwift?_call (f : Function) : boundInSwift? f.swiftCall = some "ffiResult" := by
  have hread : f.swiftCall = "let " ++ ("ffiResult" ++ (" = " ++ (f.coreSymbol ++
      inParens (commas (f.swift.passed.map (·.expression)))))) := by
    have hlet : "let ffiResult = " = "let " ++ ("ffiResult" ++ " = ") := by decide
    unfold Function.swiftCall
    rw [hlet]
    simp only [String.append_assoc]
  rw [hread]
  exact boundInSwift?_let (by decide) (stops_append (by decide) _)

theorem boundInSwift?_outcome (f : Function) (s : Setting) :
    boundInSwift? (f.swift.outcome s) = none := by
  unfold SwiftFunction.outcome
  split
  · decide
  · have hvar : Apart "var " "precondition(ffiResult == " := by decide
    have hlet : Apart "let " "precondition(ffiResult == " := by decide
    simp only [String.append_assoc]
    exact boundInSwift?_eq_none (hvar.append _) (hlet.append _)

theorem swiftReturn_start {g : SwiftFunction} {statement : String}
    (h : g.returnStatement? = some statement) : ∃ rest, statement = "return " ++ rest := by
  unfold SwiftFunction.returnStatement? at h
  dsimp only at h
  generalize (if g.fallible = true then "try" else "try!") = attempt at h
  split at h
  · exact absurd h (by simp)
  · exact ⟨_, (Option.some.inj h).symm⟩
  · exact ⟨_, (Option.some.inj h).symm⟩

theorem boundInSwift?_return {statement : String} (h : f.swift.returnStatement? = some statement) :
    boundInSwift? statement = none := by
  obtain ⟨rest, rfl⟩ := swiftReturn_start h
  have hvar : Apart "var " "return " := by decide
  have hlet : Apart "let " "return " := by decide
  exact boundInSwift?_eq_none (hvar.append _) (hlet.append _)

/-- What a Swift function binds: the inputs, its local arrays, and the number that comes back. -/
theorem names_swift (hm : m.WellFormed) (hf : f ∈ m.functions) (s : Setting) :
    (swiftScope (f.swift.lines s)).names = f.wrapperNames ["ffiResult"] := by
  have hrooms : ((f.arguments.filter (·.isFilled)).map Function.swiftRoom).filterMap boundInSwift? =
      (f.arguments.filter (·.isFilled)).map (·.name) := by
    rw [List.filterMap_map, ← List.filterMap_eq_map]
    exact List.filterMap_congr fun a ha =>
      boundInSwift?_room (hm.known hf (List.mem_of_mem_filter ha)).name
  have hcall : [f.swiftCall].filterMap boundInSwift? = ["ffiResult"] := by
    rw [List.filterMap_cons, boundInSwift?_call]
    rfl
  have houtcome : [f.swift.outcome s].filterMap boundInSwift? = [] := by
    rw [List.filterMap_cons, boundInSwift?_outcome]
    rfl
  have hreturn : f.swift.returnStatement?.toList.filterMap boundInSwift? = [] :=
    List.filterMap_eq_nil_iff.2 fun _ h => boundInSwift?_return (Option.mem_toList.1 h)
  have hlocals : (boundBy boundInSwift? (textsWithin (f.swift.lines s))).map Prod.fst =
      (f.arguments.filter (·.isFilled)).map (·.name) ++ ["ffiResult"] := by
    rw [boundBy_map_fst, f.textsWithin_swift]
    simp only [List.filterMap_append, hrooms, hcall, houtcome, hreturn, List.append_nil]
  unfold Scope.names swiftScope Function.wrapperNames
  rw [parameters_swift hm hf, hlocals]

/-! ## Names of what is handed out -/

/-- What a call delivers has names that differ. -/
theorem nodup_labels (hm : m.WellFormed) (hf : f ∈ m.functions) : (f.deliveries.map (·.label)).Nodup := by
  have hlabels : f.deliveries.map (·.label) =
      f.outputs.map (·.name) ++ (f.returns.map fun _ => resultLabel).toList := by
    unfold Function.deliveries
    rw [List.map_append, List.map_map]
    cases f.returns <;> rfl
  have hnames : (f.parameters.map (·.name)).Nodup := List.pairwise_map.2 (hm.function hf).distinct
  rw [hlabels]
  refine List.nodup_append.2 ⟨hnames.sublist (List.filter_sublist.map _), ?_, ?_⟩
  · cases f.returns <;> simp
  · rintro x hx y hy rfl
    obtain ⟨p, hp, rfl⟩ := List.mem_map.1 hx
    obtain ⟨t, _, hname⟩ := Option.map_eq_some_iff.1 (Option.mem_toList.1 hy)
    exact hm.own_ne hf (Function.argument_mem (List.mem_of_mem_filter hp))
      (by decide : resultLabel ∈ ownNames) hname.symm

theorem wordy_labels (hm : m.WellFormed) (hf : f ∈ m.functions) :
    ∀ d ∈ f.deliveries, Wordy d.label.toList ∧ d.label ≠ "" := by
  refine List.forall_mem_append.2 ⟨List.forall_mem_map.2 fun p hp => ?_, fun d hd => ?_⟩
  · have ha := Function.argument_mem (List.mem_of_mem_filter hp)
    exact ⟨(hm.known hf ha).name, (hm.free_name hf ha).1⟩
  · obtain ⟨t, _, rfl⟩ := Option.map_eq_some_iff.1 (Option.mem_toList.1 hd)
    exact (by decide : Wordy resultLabel.toList ∧ resultLabel ≠ "")

/-- What stands in a result class: the fields, and what makes an object of it. -/
theorem textsAt_resultClass (name : String) (fields : List (String × String)) :
    textsAt 1 (resultClassLines name fields) =
      fields.map (fun x => fieldHead ++ (x.1 ++ (" " ++ (x.2 ++ ";")))) ++
        ["", name ++ ("(" ++ (commas (fields.map fun x => x.1 ++ (" " ++ x.2)) ++ (") " ++ opening))),
          closing] := by
  have hempty : gap = line "" := rfl
  have hfields : (fields.map fun x => line ("public final " ++ x.1 ++ " " ++ x.2 ++ ";")) =
      fields.map fun x => line (fieldHead ++ (x.1 ++ (" " ++ (x.2 ++ ";")))) :=
    List.map_congr_left fun x _ => congrArg line (by simp only [fieldHead, String.append_assoc])
  unfold resultClassLines
  rw [hfields]
  simp [block, hempty, inParens, String.append_assoc]

/-- The fields of a result class are what the call delivers. -/
theorem classFields_resultClass (hm : m.WellFormed) (hf : f ∈ m.functions) :
    classFields (resultClassLines f.resultClass f.resultFields) = f.deliveries.map (·.label) := by
  have hfields : (f.resultFields.map fun x => fieldHead ++ (x.1 ++ (" " ++ (x.2 ++ ";")))).filterMap
      fieldName? = f.deliveries.map (·.label) := by
    show ((f.deliveries.map _).map _).filterMap fieldName? = _
    rw [List.map_map, List.filterMap_map, ← List.filterMap_eq_map]
    exact List.filterMap_congr fun d hd =>
      fieldName?_declaration _ ((wordy_labels hm hf d hd).1.notMem (by decide))
  have hconstructor : ∀ parameters, fieldName? (f.resultClass ++ ("(" ++ parameters)) = none := by
    intro parameters
    have hopen : ("(" ++ parameters).toList = '(' :: parameters.toList := by
      rw [String.toList_append]
      rfl
    refine fieldName?_eq_none ?_
    rw [behindWord_append (wordy_resultClass hm hf) (by rw [hopen]; exact Text.stops_cons.2 rfl), hopen]
    exact fun h => absurd (Option.some.inj h) (by decide)
  have hrest : ∀ parameters,
      ["", f.resultClass ++ ("(" ++ parameters), closing].filterMap fieldName? = [] := by
    intro parameters
    have hempty : fieldName? "" = none := by decide
    have hclosing : fieldName? closing = none := by decide
    rw [List.filterMap_cons, hempty, List.filterMap_cons, hconstructor, List.filterMap_cons, hclosing]
    rfl
  rw [classFields, textsAt_resultClass, List.filterMap_append, hfields, hrest, List.append_nil]

/-- The labels of a tuple can be read off the clause that declares it. -/
theorem labels_tuple (hm : m.WellFormed) {front : String} (hfront : '(' ∉ front.toList)
    {ds : List Delivery} (htypes : ∀ d ∈ ds, d.type ∈ m.types)
    (hlabels : ∀ d ∈ ds, Wordy d.label.toList ∧ d.label ≠ "") :
    (parametersIn (front ++ (inParens (commas (ds.map fun d => typed d.label d.type.swiftValue)) ++
      (" " ++ opening)))).filterMap parameterName? = ds.map (·.label) := by
  rw [parametersIn_append _ hfront, List.filterMap_map, ← List.filterMap_eq_map]
  · exact List.filterMap_congr fun d hd => parameterName?_typed (hlabels d hd).1 _
  · refine List.forall_mem_map.2 fun d hd => ?_
    have htype := wordy_swiftValue hm (htypes d hd)
    exact ((ListItem.of_wordy (hlabels d hd).1 (hlabels d hd).2).append (by decide)
      (by decide)).append (htype.notMem (by decide)) (htype.notMem (by decide))

/-- The labels of a tuple are what the call delivers; a function that returns one value has none. -/
theorem tupleLabels_swift (hm : m.WellFormed) (hf : f ∈ m.functions) (s : Setting) :
    tupleLabels (f.swift.lines s) =
      if f.deliveries.length > 1 then f.deliveries.map (·.label) else [] := by
  have hclosed : ')' ∉ ("public static func " ++ f.name).toList := by
    rw [String.toList_append, List.mem_append, not_or]
    exact ⟨by decide, (wordy_of_plain (hm.named hf).name).notMem (by decide)⟩
  have hthrows : '(' ∉ (if f.fallible then " throws" else "").toList := by
    split <;> decide
  have hreturns : f.swift.returns = f.deliveries.map fun d => (d.label, d.type.swiftValue) := rfl
  have htypes := types_deliveries hm hf
  have hlabels := wordy_labels hm hf
  unfold tupleLabels
  rw [head_swift, behindParens_append hclosed (listItem_swift hm hf), SwiftFunction.returnClause, hreturns]
  cases hd : f.deliveries with
  | nil =>
    rw [parametersIn_eq_nil]
    · rfl
    · simp +decide only [List.map_nil, String.toList_append, List.mem_append, hthrows, or_self,
        not_false_eq_true]
  | cons d ds =>
    rw [hd] at htypes hlabels
    cases ds with
    | nil =>
      have htype : '(' ∉ d.type.swiftValue.toList :=
        (wordy_swiftValue hm (htypes d List.mem_cons_self)).notMem (by decide)
      rw [parametersIn_eq_nil]
      · rfl
      · simp +decide only [List.map_cons, List.map_nil, String.toList_append, List.mem_append, hthrows,
          htype, or_self, not_false_eq_true]
    | cons e ds =>
      have hread : (if f.fallible then " throws" else "") ++ (" -> " ++ inParens (commas
          (((d :: e :: ds).map fun d => (d.label, d.type.swiftValue)).map fun r => r.1 ++ ": " ++ r.2))) ++
            " " ++ opening = ((if f.fallible then " throws" else "") ++ " -> ") ++
              (inParens (commas ((d :: e :: ds).map fun d => typed d.label d.type.swiftValue)) ++
                (" " ++ opening)) := by
        rw [List.map_map]
        simp only [typed, Function.comp_def, String.append_assoc]
      have hfree : '(' ∉ ((if f.fallible then " throws" else "") ++ " -> ").toList := by
        rw [String.toList_append, List.mem_append, not_or]
        exact ⟨hthrows, by decide⟩
      show (parametersIn ((if f.fallible then " throws" else "") ++ (" -> " ++ inParens (commas
          (((d :: e :: ds).map fun d => (d.label, d.type.swiftValue)).map fun r => r.1 ++ ": " ++ r.2))) ++
            " " ++ opening)).filterMap parameterName? = _
      rw [hread, labels_tuple hm hfree htypes hlabels, if_pos (by simp)]

end

end Bindery
