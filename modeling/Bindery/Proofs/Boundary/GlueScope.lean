/-
  THE SCOPE OF THE GLUE: what a glue function binds.

  It binds the two parameters that every native method has and what the Java side hands over; then
  bytes of its own for each array, and once more every narrow number, to what the checked conversion
  makes of it; and the number that the exported function returns.

  What it calls is read off as well.  One line compares with the constant for success, whose name comes
  from the table of error codes; the other lines depend on the description alone.
-/
import Bindery.Proofs.Boundary.CoreScopes

namespace Bindery

open Naming Source

/-! ## Steps in front of the call -/

namespace GlueStep

/-- The local that a step makes. -/
def binds : GlueStep → String
  | read parameter => bufferLocal parameter
  | allocate parameter => bufferLocal parameter
  | narrow parameter _ => parameter

end GlueStep

theorem wordy_bufferLocal {parameter : String} (h : Wordy parameter.toList) :
    Wordy (bufferLocal parameter).toList := by
  unfold bufferLocal
  rw [String.toList_append]
  exact h.append (by decide)

/-- A step is for bytes, or it narrows the number of an argument. -/
theorem Argument.glueStep?_cases {a : Argument} {step : GlueStep} (h : a.glueStep? = some step) :
    (step = .read a.name ∨ step = .allocate a.name) ∨
      ∃ w : Width, w.isNarrow = true ∧ step = .narrow a.name w := by
  unfold glueStep? at h
  cases hpass : a.passing with
  | inBuffer =>
    rw [hpass] at h
    exact Or.inl (Or.inl (Option.some.inj h).symm)
  | outBuffer =>
    rw [hpass] at h
    exact Or.inl (Or.inr (Option.some.inj h).symm)
  | inValue w =>
    rw [hpass] at h
    obtain ⟨hw, h⟩ := Option.ite_none_right_eq_some.1 h
    exact Or.inr ⟨w, hw, (Option.some.inj h).symm⟩

section

variable {m : Model} {f : Function} {s : Setting} {package : String}

/-- Every step is one of an argument. -/
theorem exists_of_mem_steps {step : GlueStep} (h : step ∈ (f.glue package).steps) :
    ∃ a ∈ f.arguments, a.glueStep? = some step := List.mem_filterMap.1 h

theorem GlueStep.boundInRust?_statement (hm : m.WellFormed) (hf : f ∈ m.functions) {step : GlueStep}
    (h : step ∈ (f.glue package).steps) : boundInRust? (step.statement s) = some step.binds := by
  obtain ⟨a, ha, hstep⟩ := exists_of_mem_steps h
  have hname := (hm.known hf ha).name
  have hstops : ∀ rest : String, Text.Stops isIdentifierChar (" = " ++ rest).toList :=
    stops_append (by decide)
  rcases Argument.glueStep?_cases hstep with (rfl | rfl) | ⟨w, _, rfl⟩
  · have hread : " = jni_read(&env, " = " = " ++ "jni_read(&env, " := by decide
    unfold statement
    simp only [hread, String.append_assoc]
    refine boundInRust?_let (wordy_bufferLocal hname) (hstops _) fun hmut => ?_
    exact append_notMem (by decide : ∀ n ∈ ["mut"], ¬ "_buf".toList <:+ n.toList) a.name
      (List.mem_singleton.2 hmut)
  · have hread : " = jni_alloc(&env, " = " = " ++ "jni_alloc(&env, " := by decide
    unfold statement
    simp only [hread, String.append_assoc]
    exact boundInRust?_letMut (wordy_bufferLocal hname) (hstops _)
  · unfold statement
    simp only [String.append_assoc]
    exact boundInRust?_let hname (hstops _) (ne_of_isReserved (hm.free_name hf ha).2 (by decide))

/-! ## The lines of a glue function -/

namespace Function

/-- The line of a glue function that calls the exported function. -/
def glueCall (f : Function) : String := "let code = " ++ f.coreSymbol ++ "("

/-- What a glue function does behind the call. -/
def writing (f : Function) (s : Setting) (package : String) : List String :=
  (if (f.glue package).written.isEmpty then []
    else ("if code == " ++ s.ok ++ " " ++ opening) :: (f.glue package).written.map writeBack ++
      [closing]) ++ ["Ok(code)"]

/-- The parameters of a glue function, line by line. -/
def glueParameters (f : Function) : List String :=
  ["env: JNIEnv,", "_class: JClass,"] ++
    f.arguments.map fun a => typed a.name (a.passing.jni ++ ",")

theorem glue_parameters (f : Function) (package : String) :
    (f.glue package).parameters.map (fun p => p.1 ++ ": " ++ p.2.jni ++ ",") =
      f.arguments.map fun a => typed a.name (a.passing.jni ++ ",") := by
  show (f.arguments.map _).map _ = _
  rw [List.map_map]
  exact List.map_congr_left fun a _ => String.append_assoc

theorem textsAt_glue (f : Function) (s : Setting) (package : String) :
    textsAt 1 ((f.glue package).lines s) =
      f.glueParameters ++ ["jni_call(|| " ++ opening, closing ++ ")"] := by
  unfold glueParameters
  rw [← f.glue_parameters package]
  simp [Glue.lines]

theorem textsWithin_glue (f : Function) (s : Setting) (package : String) :
    textsWithin ((f.glue package).lines s) = f.glueParameters ++ (["jni_call(|| " ++ opening] ++
      ((f.glue package).steps.map (·.statement s) ++ ([f.glueCall] ++
        ((f.glue package).passed.map (fun a => a.expression ++ ",") ++ ([");"] ++
          (f.writing s package ++ [closing ++ ")"])))))) := by
  have hcallee : (f.glue package).callee = f.coreSymbol := rfl
  unfold glueParameters writing glueCall
  rw [← f.glue_parameters package]
  by_cases hwritten : (f.glue package).written.isEmpty = true
  · simp [Glue.lines, Glue.body, hwritten, hcallee, Function.comp_def]
  · simp [Glue.lines, Glue.body, block, hwritten, hcallee, Function.comp_def]

/-- In front of the call a glue function takes its steps. -/
theorem steps_prefix (f : Function) (s : Setting) (package : String) :
    (f.glue package).steps.map (·.statement s) <+: textsAt 2 ((f.glue package).lines s) := by
  simp [Glue.lines, Glue.body]

/-- What a glue function does behind the call: it writes back, and hands out the number. -/
theorem forall_writing {P : String → Prop} (f : Function) (s : Setting) (package : String)
    (hif : P ("if code == " ++ s.ok ++ " " ++ opening)) (hwrite : ∀ a ∈ f.arguments, P (writeBack a.name))
    (hclose : P closing) (hcode : P "Ok(code)") : ∀ text ∈ f.writing s package, P text := by
  unfold writing
  refine List.forall_mem_append.2 ⟨?_, List.forall_mem_singleton.2 hcode⟩
  split
  · exact fun _ h => nomatch h
  · refine List.forall_mem_append.2 ⟨List.forall_mem_cons.2 ⟨hif, List.forall_mem_map.2 fun name h => ?_⟩,
      List.forall_mem_singleton.2 hclose⟩
    obtain ⟨a, ha, rfl⟩ := List.mem_map.1 h
    exact hwrite a (List.mem_filter.1 ha).1

/-- What a glue function passes on is made from the name of an argument. -/
theorem forall_passed {P : String → Prop} (package : String)
    (h : ∀ a ∈ f.arguments, P (bufferLocal a.name ++ ".as_ptr()") ∧
      P (bufferLocal a.name ++ ".as_mut_ptr()") ∧ P (bufferLocal a.name ++ ".len() as u32") ∧
      P a.name ∧ ∀ w : Width, P (a.name ++ " as " ++ w.rust)) :
    ∀ x ∈ (f.glue package).passed, P x.expression := by
  intro x hx
  obtain ⟨a, ha, hx⟩ := List.mem_flatMap.1 hx
  obtain ⟨hconst, hmut, hlength, hplain, hcast⟩ := h a ha
  have htwo : ∀ {y z : GlueArg}, P y.expression → P z.expression → x ∈ [y, z] → P x.expression := by
    intro y z hy hz hx
    rcases List.mem_cons.1 hx with rfl | hx
    · exact hy
    · rw [List.mem_singleton.1 hx]
      exact hz
  unfold Argument.glueArgs at hx
  cases hpass : a.passing with
  | inBuffer =>
    rw [hpass] at hx
    exact htwo (y := .constPointer a.name) (z := .length a.name) hconst hlength hx
  | outBuffer =>
    rw [hpass] at hx
    exact htwo (y := .mutPointer a.name) (z := .length a.name) hmut hlength hx
  | inValue w =>
    rw [hpass] at hx
    dsimp only at hx
    split at hx
    · rw [List.mem_singleton.1 hx]
      exact hplain
    · rw [List.mem_singleton.1 hx]
      exact hcast w

end Function

/-! ## What a glue function binds -/

theorem boundInRust?_passed (hm : m.WellFormed) (hf : f ∈ m.functions) (package : String) :
    ∀ x ∈ (f.glue package).passed, boundInRust? (x.expression ++ ",") = none := by
  have hhead : ∀ {name rest : String} {c : Char}, Wordy name.toList → rest.toList.head? = some c →
      isIdentifierChar c = false → c ≠ ' ' → boundInRust? (name ++ rest ++ ",") = none := by
    intro name rest c hname hrest hword hblank
    rw [String.append_assoc]
    refine boundInRust?_of_head hname ?_ hword hblank
    rw [String.toList_append, List.head?_append, hrest]
    rfl
  refine Function.forall_passed (P := fun x => boundInRust? (x ++ ",") = none) package fun a ha => ?_
  have hname := (hm.known hf ha).name
  have hbytes := wordy_bufferLocal hname
  refine ⟨hhead hbytes (c := '.') (by decide) (by decide) (by decide),
    hhead hbytes (c := '.') (by decide) (by decide) (by decide),
    hhead hbytes (c := '.') (by decide) (by decide) (by decide),
    boundInRust?_of_head hname (c := ',') (by decide) (by decide) (by decide), fun w => ?_⟩
  -- Here a blank is behind the name, but the name is no word of Rust.
  have hstops : Text.Stops isIdentifierChar (" as " ++ (w.rust ++ ",")).toList :=
    stops_append (by decide) _
  rw [String.append_assoc, String.append_assoc]
  refine boundInRust?_eq_none (Or.inl ?_)
  rw [firstWord_append hname hstops]
  exact ne_of_isReserved (hm.free_name hf ha).2 (by decide)

theorem boundInRust?_writing (f : Function) (s : Setting) (package : String) :
    ∀ text ∈ f.writing s package, boundInRust? text = none := by
  refine f.forall_writing s package ?_ (fun a _ => ?_) (by decide) (by decide)
  · have hread : "if code == " ++ s.ok ++ " " ++ opening =
        "if" ++ (" code == " ++ (s.ok ++ (" " ++ opening))) := by
      have hif : "if code == " = "if" ++ " code == " := by decide
      rw [hif]
      simp only [String.append_assoc]
    have hstops : Text.Stops isIdentifierChar (" code == " ++ (s.ok ++ (" " ++ opening))).toList :=
      stops_append (by decide) _
    rw [hread]
    refine boundInRust?_eq_none (Or.inl ?_)
    rw [firstWord_append (by decide) hstops]
    decide
  · have hread : "jni_write(&env, " = "jni_write" ++ "(&env, " := by decide
    unfold writeBack
    rw [hread]
    simp only [String.append_assoc]
    refine boundInRust?_of_head (c := '(') (by decide) ?_ (by decide) (by decide)
    rw [String.toList_append]
    rfl

theorem boundBy_glueCall (f : Function) :
    boundBy boundInRust? [f.glueCall] = [("code", f.glueCall)] := by
  have hread : f.glueCall = "let " ++ ("code" ++ (" = " ++ (f.coreSymbol ++ "("))) := by
    have hcode : "let code = " = "let " ++ ("code" ++ " = ") := by decide
    unfold Function.glueCall
    rw [hcode]
    simp only [String.append_assoc]
  have hbound : boundInRust? f.glueCall = some "code" := by
    rw [hread]
    exact boundInRust?_let (by decide) (stops_append (by decide) _) (by decide)
  rw [boundBy, List.filterMap_cons, hbound]
  rfl

/-- The parameters that a glue function declares: those of every native method, then the arguments. -/
theorem parameters_glue (hm : m.WellFormed) (hf : f ∈ m.functions) (s : Setting) (package : String) :
    (textsAt 1 ((f.glue package).lines s)).filterMap parameterName? =
      ["env", "_class"] ++ f.arguments.map (·.name) := by
  have hnative : ["env: JNIEnv,", "_class: JClass,"].filterMap parameterName? = ["env", "_class"] := by
    decide
  have hrest : ["jni_call(|| " ++ opening, closing ++ ")"].filterMap parameterName? = [] := by decide
  rw [f.textsAt_glue, Function.glueParameters, List.filterMap_append, List.filterMap_append, hnative,
    hrest, List.append_nil, List.filterMap_map, ← List.filterMap_eq_map]
  exact congrArg _ (List.filterMap_congr fun a ha => parameterName?_typed (hm.known hf ha).name _)

/-- What a glue function binds: its parameters, what its steps make, and the number it hands out. -/
theorem linewiseScope_glue (hm : m.WellFormed) (hf : f ∈ m.functions) (s : Setting)
    (package : String) : linewiseScope ((f.glue package).lines s) =
      ⟨["env", "_class"] ++ f.arguments.map (·.name),
        (f.glue package).steps.map (fun step => (step.binds, step.statement s)) ++
          [("code", f.glueCall)]⟩ := by
  have hlocals : boundBy boundInRust? (textsWithin ((f.glue package).lines s)) =
      (f.glue package).steps.map (fun step => (step.binds, step.statement s)) ++
        [("code", f.glueCall)] := by
    have hfirst : boundBy boundInRust? f.glueParameters = [] := by
      refine boundBy_eq_nil (List.forall_mem_append.2 ⟨by decide, ?_⟩)
      exact List.forall_mem_map.2 fun a ha => boundInRust?_typed (hm.known hf ha).name _
    have hguard : boundBy boundInRust? ["jni_call(|| " ++ opening] = [] := by decide
    have hsteps : boundBy boundInRust? ((f.glue package).steps.map (·.statement s)) =
        (f.glue package).steps.map fun step => (step.binds, step.statement s) :=
      boundBy_map fun step h => GlueStep.boundInRust?_statement hm hf h
    have hpassed : boundBy boundInRust? ((f.glue package).passed.map fun a => a.expression ++ ",") = [] :=
      boundBy_eq_nil (List.forall_mem_map.2 (boundInRust?_passed hm hf package))
    have hend : boundBy boundInRust? [");"] = [] := by decide
    have hwriting : boundBy boundInRust? (f.writing s package) = [] :=
      boundBy_eq_nil (boundInRust?_writing f s package)
    have hclose : boundBy boundInRust? [closing ++ ")"] = [] := by decide
    rw [f.textsWithin_glue]
    simp only [boundBy_append, hfirst, hguard, hsteps, boundBy_glueCall, hpassed, hend, hwriting, hclose,
      List.nil_append, List.append_nil]
  unfold linewiseScope
  rw [parameters_glue hm hf, hlocals]

/-- A narrow number is bound again to what the checked conversion makes of it. -/
theorem callIn?_narrow {name : String} (hname : Wordy name.toList) (hne : name ≠ "") {w : Width}
    (hw : w.isNarrow = true) : ∃ checker ∈ Scope.checkers, ∃ args,
      callIn? ((GlueStep.narrow name w).statement s) = some (checker, name :: args) := by
  have hchecker : w.rust ++ "::try_from" ∈ Scope.checkers ∧
      ∀ c ∈ (w.rust ++ "::try_from").toList, isPathChar c = true := by
    cases w with
    | one => exact ⟨by decide, List.all_eq_true.1 (by decide)⟩
    | two => exact ⟨by decide, List.all_eq_true.1 (by decide)⟩
    | _ => nomatch hw
  have hread : (GlueStep.narrow name w).statement s = ("let " ++ name ++ " = ") ++
      ((w.rust ++ "::try_from") ++
        (inParens (commas [name]) ++ (".map_err(|_| " ++ s.refused ++ ")?;"))) := by
    have hopen : "::try_from(" = "::try_from" ++ "(" := by decide
    have hclose : ").map_err(|_| " = ")" ++ ".map_err(|_| " := by decide
    unfold GlueStep.statement inParens commas
    rw [String.intercalate_singleton, hopen, hclose]
    simp only [String.append_assoc]
  have hfree : '(' ∉ ("let " ++ name ++ " = ").toList := by
    simp +decide only [String.toList_append, List.mem_append, hname.notMem (c := '(') (by decide),
      or_self, not_false_eq_true]
  exact ⟨_, hchecker.1, [], callIn?_eq _ _ hread hfree
    (stops_reverse (getLast?_toList_append (c := ' ') _ (by decide)) (by decide)) hchecker.2
    (List.forall_mem_singleton.2 (.of_wordy hname hne))⟩

/-- The bytes behind an argument have an underscore in their name, and an argument has none. -/
theorem Model.WellFormed.bufferLocal_ne (hm : m.WellFormed) (hf : f ∈ m.functions) {a b : Argument}
    (ha : a ∈ f.arguments) (hb : b ∈ f.arguments) : bufferLocal a.name ≠ b.name := by
  intro heq
  have hone : bars (bufferLocal a.name) = 1 := hm.bars_made hf ha _
  rw [heq, bars_of_plain (hm.plain_argument hf hb)] at hone
  nomatch hone

/-- The steps of a glue function bind different names: each binds that of its argument or that of the
bytes behind it. -/
theorem nodup_steps (hm : m.WellFormed) (hf : f ∈ m.functions) (package : String) :
    ((f.glue package).steps.map (·.binds)).Nodup := by
  have hnames := List.pairwise_map.1 (f.nodup_arguments (hm.function hf).native)
  refine List.pairwise_map.2 (List.pairwise_filterMap.2 (List.Pairwise.imp_of_mem ?_ hnames))
  intro a b ha hb hne step hstep step' hstep'
  rcases Argument.glueStep?_cases hstep with (rfl | rfl) | ⟨w, _, rfl⟩ <;>
    rcases Argument.glueStep?_cases hstep' with (rfl | rfl) | ⟨w', _, rfl⟩
  all_goals first
    | exact fun heq => hne (append_right_cancel heq)
    | exact hm.bufferLocal_ne hf ha hb
    | exact (hm.bufferLocal_ne hf hb ha).symm
    | exact hne

theorem code_notMem_steps (hm : m.WellFormed) (hf : f ∈ m.functions) (package : String) :
    "code" ∉ (f.glue package).steps.map (·.binds) := by
  intro hmem
  obtain ⟨step, hstep, hbinds⟩ := List.mem_map.1 hmem
  obtain ⟨a, ha, hstep⟩ := exists_of_mem_steps hstep
  have hbuffer : bufferLocal a.name ≠ "code" := by
    intro heq
    have hone : bars (bufferLocal a.name) = 1 := hm.bars_made hf ha _
    rw [heq] at hone
    exact absurd hone (by decide)
  rcases Argument.glueStep?_cases hstep with (rfl | rfl) | ⟨w, _, rfl⟩
  · exact hbuffer hbinds
  · exact hbuffer hbinds
  · exact hm.own_ne hf ha (by decide : "code" ∈ ownNames) hbinds

/-- What a glue function binds twice is a narrow number, checked. -/
theorem onceChecked_glue (hm : m.WellFormed) (hf : f ∈ m.functions) (s : Setting) (package : String) :
    (linewiseScope ((f.glue package).lines s)).OnceChecked := by
  have hnames := f.nodup_arguments (hm.function hf).native
  rw [linewiseScope_glue hm hf]
  refine ⟨?_, ?_, List.forall_mem_append.2 ⟨List.forall_mem_map.2 fun step hstep hmem => ?_,
    List.forall_mem_singleton.2 fun hmem => ?_⟩⟩
  · refine List.nodup_append.2 ⟨by decide, hnames, ?_⟩
    rintro x hx y hy rfl
    obtain ⟨a, ha, rfl⟩ := List.mem_map.1 hy
    exact hm.own_ne hf ha ((by decide : ∀ n ∈ ["env", "_class"], n ∈ ownNames) _ hx) rfl
  · rw [List.map_append, List.map_map]
    refine List.nodup_append.2 ⟨nodup_steps hm hf package, by simp, ?_⟩
    rintro x hx y hy rfl
    rw [List.mem_singleton.1 hy] at hx
    exact code_notMem_steps hm hf package hx
  · obtain ⟨a, ha, hcases⟩ := exists_of_mem_steps hstep
    -- Of the steps only the narrowing binds the name of a parameter again.
    have hbuffer : bufferLocal a.name ∉ ["env", "_class"] ++ f.arguments.map (·.name) := by
      intro hmem
      rcases List.mem_append.1 hmem with h | h
      · exact append_notMem (by decide : ∀ n ∈ ["env", "_class"], ¬ "_buf".toList <:+ n.toList) _ h
      · obtain ⟨b, hb, hname⟩ := List.mem_map.1 h
        exact hm.bufferLocal_ne hf ha hb hname.symm
    rcases Argument.glueStep?_cases hcases with (rfl | rfl) | ⟨w, hw, rfl⟩
    · exact absurd hmem hbuffer
    · exact absurd hmem hbuffer
    · exact callIn?_narrow (hm.known hf ha).name (hm.free_name hf ha).1 hw
  · rcases List.mem_append.1 hmem with h | h
    · exact absurd h (by decide : "code" ∉ ["env", "_class"])
    · obtain ⟨a, ha, hname⟩ := List.mem_map.1 h
      exact absurd hname (hm.own_ne hf ha (by decide : "code" ∈ ownNames))

theorem bindable_glue (hm : m.WellFormed) (hf : f ∈ m.functions) (s : Setting) (package : String) :
    ∀ name ∈ (linewiseScope ((f.glue package).lines s)).names, Bindable f name := by
  have hown : ∀ name ∈ ["env", "_class"], Bindable f name := fun name h =>
    .own ((by decide : ∀ n ∈ ["env", "_class"], n ∈ ownNames) name h)
  rw [linewiseScope_glue hm hf]
  refine List.forall_mem_append.2 ⟨List.forall_mem_append.2
    ⟨hown, List.forall_mem_map.2 fun a ha => .argument ha⟩, ?_⟩
  rw [List.map_append, List.map_map]
  refine List.forall_mem_append.2 ⟨List.forall_mem_map.2 fun step hstep => ?_,
    List.forall_mem_singleton.2 (.own (by decide : "code" ∈ ownNames))⟩
  obtain ⟨a, ha, hcases⟩ := exists_of_mem_steps hstep
  rcases Argument.glueStep?_cases hcases with (rfl | rfl) | ⟨w, _, rfl⟩
  · exact .buffer ha
  · exact .buffer ha
  · exact .argument ha

/-! ## What a glue function calls -/

/-- A buffer is read or made room for by one call of a helper. -/
theorem calls_buffer {front name : String} (helper : String) (hfront : '(' ∉ front.toList)
    (hname : Wordy name.toList) (hhelper : Wordy helper.toList ∧ helper ∈ helperNames) :
    Calls m.Foreign (front ++ bufferLocal name ++ (" = " ++ helper ++ "(&env, ") ++ name ++ ")?;") := by
  have hplain : '(' ∉ name.toList := hname.notMem (by decide)
  have hbytes : '(' ∉ (bufferLocal name).toList := (wordy_bufferLocal hname).notMem (by decide)
  have hone : OneCall helper
      (front ++ bufferLocal name ++ (" = " ++ helper ++ "(&env, ") ++ name ++ ")?;") := by
    refine ⟨front ++ bufferLocal name ++ " = ", "&env, " ++ name ++ ")?;", ?_, ?_,
      stops_reverse (getLast?_toList_append (c := ' ') _ (by decide)) (by decide), ?_⟩
    · have hopen : "(&env, " = "(" ++ "&env, " := by decide
      simp only [hopen, String.append_assoc]
    · simp +decide only [String.toList_append, List.mem_append, hfront, hbytes, or_self,
        not_false_eq_true]
    · simp +decide only [String.toList_append, List.mem_append, hplain, or_self, not_false_eq_true]
  exact hone.calls (isPathChar_of_wordy hhelper.1) (foreign_of_mem hhelper.2)

/-- A narrow number is converted by its type, and what is wrong with it is mapped. -/
theorem calls_narrow {name : String} (hname : Wordy name.toList) (hrefused : '(' ∉ s.refused.toList)
    (w : Width) : Calls m.Foreign ((GlueStep.narrow name w).statement s) := by
  have hplain : '(' ∉ name.toList := hname.notMem (by decide)
  have hchecked : (∀ c ∈ (w.rust ++ "::try_from").toList, isCalleeChar c = true) ∧
      isLocalName (w.rust ++ "::try_from") = false := by
    cases w <;> exact ⟨List.all_eq_true.1 (by decide), by decide⟩
  have hread : (GlueStep.narrow name w).statement s = ("let " ++ name ++ " = ") ++
      ((w.rust ++ "::try_from") ++ ("(" ++ ((name ++ ")") ++
        (".map_err" ++ ("(" ++ ("|_| " ++ s.refused ++ ")?;")))))) := by
    have hopen : "::try_from(" = "::try_from" ++ "(" := by decide
    have hclose : ").map_err(|_| " = ")" ++ (".map_err" ++ ("(" ++ "|_| ")) := by decide
    unfold GlueStep.statement
    rw [hopen, hclose]
    simp only [String.append_assoc]
  have hfront : Calls m.Foreign ("let " ++ name ++ " = ") := .of_notMem (by
    simp +decide only [String.toList_append, List.mem_append, hplain, or_self, not_false_eq_true])
  have hinside : Calls m.Foreign (name ++ ")") := .of_notMem (by
    simp +decide only [String.toList_append, List.mem_append, hplain, or_self, not_false_eq_true])
  have hbehind : Calls m.Foreign ("|_| " ++ s.refused ++ ")?;") := .of_notMem (by
    simp +decide only [String.toList_append, List.mem_append, hrefused, or_self, not_false_eq_true])
  -- There are two calls: the conversion, and behind what it is handed the mapping of its fault.
  rw [hread]
  refine hfront.append (.call hchecked.1 (foreign_of_not hchecked.2) (hinside.append
    (.call (List.all_eq_true.1 (by decide)) (foreign_of_not (by decide)) hbehind) ?_)) ?_
  · exact stops_reverse (getLast?_toList_append (c := ')') _ (by decide)) (by decide)
  · exact stops_reverse (getLast?_toList_append (c := ' ') _ (by decide)) (by decide)

theorem calls_step (hm : m.WellFormed) (hf : f ∈ m.functions) (hrefused : '(' ∉ s.refused.toList)
    {step : GlueStep} (h : step ∈ (f.glue package).steps) : Calls m.Foreign (step.statement s) := by
  obtain ⟨a, ha, hstep⟩ := exists_of_mem_steps h
  have hname := (hm.known hf ha).name
  rcases Argument.glueStep?_cases hstep with (rfl | rfl) | ⟨w, _, rfl⟩
  · exact calls_buffer "jni_read" (by decide : '(' ∉ "let ".toList) hname (by decide)
  · exact calls_buffer "jni_alloc" (by decide : '(' ∉ "let mut ".toList) hname (by decide)
  · exact calls_narrow hname hrefused w

theorem calls_passed (hm : m.WellFormed) (hf : f ∈ m.functions) (package : String) :
    ∀ x ∈ (f.glue package).passed, Calls m.Foreign (x.expression ++ ",") := by
  refine Function.forall_passed (P := fun x => Calls m.Foreign (x ++ ",")) package fun a ha => ?_
  have hname := (hm.known hf ha).name
  have hbytes := wordy_bufferLocal hname
  have hplain : '(' ∉ a.name.toList := hname.notMem (by decide)
  have hmethod : ∀ method after : String, Wordy method.toList → '(' ∉ after.toList →
      Calls m.Foreign (bufferLocal a.name ++ ("." ++ method) ++ ("(" ++ after)) :=
    fun _ _ hmethod hafter => calls_method hbytes hmethod (.of_notMem hafter)
  refine ⟨?_, ?_, ?_, .of_notMem ?_, fun w => .of_notMem ?_⟩
  · have hread : ".as_ptr()" = "." ++ "as_ptr" ++ ("(" ++ ")") := by decide
    rw [hread]
    simpa only [String.append_assoc] using hmethod "as_ptr" (")" ++ ",") (by decide) (by decide)
  · have hread : ".as_mut_ptr()" = "." ++ "as_mut_ptr" ++ ("(" ++ ")") := by decide
    rw [hread]
    simpa only [String.append_assoc] using hmethod "as_mut_ptr" (")" ++ ",") (by decide) (by decide)
  · have hread : ".len() as u32" = "." ++ "len" ++ ("(" ++ ") as u32") := by decide
    rw [hread]
    simpa only [String.append_assoc] using hmethod "len" (") as u32" ++ ",") (by decide) (by decide)
  · simp +decide only [String.toList_append, List.mem_append, hplain, or_self, not_false_eq_true]
  · have hwidth : '(' ∉ w.rust.toList := by cases w <;> decide
    simp +decide only [String.toList_append, List.mem_append, hplain, hwidth, or_self,
      not_false_eq_true]

theorem calls_glueParameters (hm : m.WellFormed) (hf : f ∈ m.functions) :
    ∀ text ∈ f.glueParameters, Calls m.Foreign text := by
  refine List.forall_mem_append.2 ⟨fun text h => .of_notMem ?_, List.forall_mem_map.2 fun a ha =>
    .of_notMem ?_⟩
  · exact (by decide : ∀ t ∈ ["env: JNIEnv,", "_class: JClass,"], '(' ∉ t.toList) text h
  · have hplain : '(' ∉ a.name.toList := (hm.known hf ha).name.notMem (by decide)
    have htype : '(' ∉ a.passing.jni.toList := by
      cases a.passing with
      | inValue w => cases w <;> decide
      | _ => decide
    unfold typed
    simp +decide only [String.toList_append, List.mem_append, hplain, htype, or_self,
      not_false_eq_true]

theorem calls_glueCall (hm : m.WellFormed) (hf : f ∈ m.functions) : Calls m.Foreign f.glueCall := by
  have hone : OneCall f.coreSymbol f.glueCall := by
    refine ⟨"let code = ", "", ?_, by decide, by decide, by decide⟩
    unfold Function.glueCall
    rw [String.append_empty, String.append_assoc]
  exact hone.calls (isPathChar_of_wordy (hm.named hf).wordy_coreSymbol) fun _ =>
    List.mem_append_right _ (List.mem_map.2 ⟨f, hf, rfl⟩)

theorem calls_writeBack {name : String} (hname : Wordy name.toList) :
    Calls m.Foreign (writeBack name) := by
  have hplain : '(' ∉ name.toList := hname.notMem (by decide)
  have hbytes : '(' ∉ (bufferLocal name).toList := (wordy_bufferLocal hname).notMem (by decide)
  have hone : OneCall "jni_write" (writeBack name) := by
    refine ⟨"", "&env, " ++ name ++ ", &" ++ bufferLocal name ++ ")?;", ?_, by decide, by decide, ?_⟩
    · have hread : "jni_write(&env, " = "jni_write" ++ ("(" ++ "&env, ") := by decide
      unfold writeBack
      rw [hread]
      simp only [String.append_assoc, String.empty_append]
    · simp +decide only [String.toList_append, List.mem_append, hplain, hbytes, or_self,
        not_false_eq_true]
  exact hone.calls (isPathChar_of_wordy (by decide)) (foreign_of_mem (by decide))

/-- A glue function calls no local. -/
theorem calls_glue (hm : m.WellFormed) (hf : f ∈ m.functions) (hok : '(' ∉ s.ok.toList)
    (hrefused : '(' ∉ s.refused.toList) (package : String) :
    ∀ text ∈ textsWithin ((f.glue package).lines s), Calls m.Foreign text := by
  have hwriting : ∀ text ∈ f.writing s package, Calls m.Foreign text := by
    refine f.forall_writing s package (.of_notMem ?_) (fun a ha => calls_writeBack (hm.known hf ha).name)
      (.of_notMem (by decide)) (calls_of_callees (by decide))
    simp +decide only [String.toList_append, List.mem_append, hok, or_self, not_false_eq_true]
  rw [f.textsWithin_glue]
  simp only [List.forall_mem_append, List.forall_mem_singleton, List.forall_mem_map]
  exact ⟨calls_glueParameters hm hf, calls_of_callees (by decide),
    fun step h => calls_step hm hf hrefused h, calls_glueCall hm hf, calls_passed hm hf package,
    .of_notMem (by decide), hwriting, .of_notMem (by decide)⟩

end

end Bindery
