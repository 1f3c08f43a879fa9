/-
  NO NAME IS CAPTURED: the five bodies of a function, where the files have them.

  What the bodies bind was read off them, each for itself; here it is put together.  In no body two
  things share a name, but for a slot of a native body that is bound again to its checked value; and
  none of the names is one that the body means something else by (`Function.Uncaptured`).

  A local of a safe function or of the glue may well be called like a function of the safe layer: the
  value of `x` is called like the function `value` of a module `x`.  In these bodies such a function is
  not called, and elsewhere there is a path in front of it.
-/
import Bindery.Proofs.Boundary.GlueScope
import Bindery.Proofs.Boundary.WrapperScopes

namespace Bindery

open Naming Source

/-! ## One function -/

/-- `f.Uncaptured m s` — what the bodies of the function bind has different names, and they are free: no
helper of the bindings and no exported function has one of them, and in the exports and the wrappers no
function of the safe layer, either.  In the other two bodies nothing that is bound is called; one line of
the glue has the name of the constant for success in it, which must not look like a call.  What is handed
out has different names, too. -/
structure Function.Uncaptured (m : Model) (s : Setting) (f : Function) : Prop where
  exportOnce : (linewiseScope f.exported.lines).OnceChecked
  exportFree : ∀ name ∈ (linewiseScope f.exported.lines).names, name ∉ m.takenNames ++ m.safeNames
  safeOnce : (rustScope ((f.safe s.options.apiPath).lines s.options.errorTypeName)).names.Nodup
  safeFree : ∀ name ∈ (rustScope ((f.safe s.options.apiPath).lines s.options.errorTypeName)).names,
    name ∉ m.takenNames ∧
      ∀ text ∈ textsWithin ((f.safe s.options.apiPath).lines s.options.errorTypeName),
        name ∉ calleesIn text
  glueOnce : (linewiseScope ((f.glue s.options.javaPackage).lines s)).OnceChecked
  glueFree : ∀ name ∈ (linewiseScope ((f.glue s.options.javaPackage).lines s)).names,
    name ∉ m.takenNames ∧ ('(' ∉ s.ok.toList →
      ∀ text ∈ textsWithin ((f.glue s.options.javaPackage).lines s), name ∉ calleesIn text)
  javaOnce : (javaScope ((f.javaMethod s).lines s)).names.Nodup
  javaFree : ∀ name ∈ (javaScope ((f.javaMethod s).lines s)).names, name ∉ m.takenNames ++ m.safeNames
  swiftOnce : (swiftScope (f.swift.lines s)).names.Nodup
  swiftFree : ∀ name ∈ (swiftScope (f.swift.lines s)).names, name ∉ m.takenNames ++ m.safeNames
  fields : (classFields (resultClassLines f.resultClass f.resultFields)).Nodup
  labels : (tupleLabels (f.swift.lines s)).Nodup

section

variable {m : Model} {f : Function} {s : Setting}

/-- The constant for refused arguments is that of the standard table, whatever the table. -/
theorem Setting.For.refused_eq {o : Options} {t : ErrorTable} (hs : s.For o t) :
    s.refused = "FFI_RETURN_INVALID_INPUT" := by
  obtain ⟨_, _, hrefused⟩ := Codes.internalFirst_eq_ok.1 hs.codes
  have hname : s.codes.invalidInput.name = ErrorTable.invalidInputName :=
    (ErrorTable.find?_eq_some hrefused).2
  unfold Setting.refused ErrorCode.constant
  rw [hname]
  decide

theorem Function.uncaptured (hm : m.WellFormed) (hf : f ∈ m.functions)
    (hapi : isPath s.options.apiPath = true) (hrefused : '(' ∉ s.refused.toList) :
    f.Uncaptured m s := by
  have hfree : ∀ {name : String}, Bindable f name ∧ bars name = 0 →
      name ∉ m.takenNames ++ m.safeNames := by
    rintro name ⟨hbindable, hbars⟩ hmem
    rcases List.mem_append.1 hmem with hmem | hmem
    · exact hbindable.notMem_takenNames hm hf hmem
    · exact notMem_safeNames hm hbars hmem
  have hjava : ("ffiResult" :: if f.guarded then ["e"] else []) ⊆ ["ffiResult", "e"] ∧
      ("ffiResult" :: if f.guarded then ["e"] else []).Nodup := by
    split <;> decide
  constructor
  case exportOnce => exact onceChecked_exported hm hf
  case exportFree => exact fun name h => hfree (bindable_exported hm hf name h)
  case safeOnce => exact nodup_safe hm hf hapi _
  case safeFree =>
    intro name h
    have hbindable := bindable_safe hm hf hapi _ name h
    exact ⟨hbindable.notMem_takenNames hm hf, fun text htext =>
      hbindable.notMem_calleesIn hm hf (calls_safe hm hf hapi _ text htext)⟩
  case glueOnce => exact onceChecked_glue hm hf s _
  case glueFree =>
    intro name h
    have hbindable := bindable_glue hm hf s _ name h
    exact ⟨hbindable.notMem_takenNames hm hf, fun hok text htext =>
      hbindable.notMem_calleesIn hm hf (calls_glue hm hf hok hrefused _ text htext)⟩
  case javaOnce =>
    rw [names_java hm hf]
    exact nodup_wrapperNames hm hf (fun _ h =>
      (by decide : ∀ n ∈ ["ffiResult", "e"], n ∈ ownNames) _ (hjava.1 h)) hjava.2
  case javaFree =>
    rw [names_java hm hf]
    exact fun name h => hfree (bindable_wrapperNames hm hf hjava.1 name h)
  case swiftOnce =>
    rw [names_swift hm hf]
    exact nodup_wrapperNames hm hf (by decide) (by decide)
  case swiftFree =>
    rw [names_swift hm hf]
    exact fun name h => hfree (bindable_wrapperNames hm hf (by decide) name h)
  case fields =>
    rw [classFields_resultClass hm hf]
    exact nodup_labels hm hf
  case labels =>
    rw [tupleLabels_swift hm hf]
    split
    · exact nodup_labels hm hf
    · exact List.nodup_nil

end

/-! ## The bodies of a description -/

/-- `NoCapture s m core jvm swift` — the files of the three targets have the five bodies of every
function, and the class for its results where there are several; none of them captures a name. -/
structure NoCapture (s : Setting) (m : Model) (core jvm swift : List Source.File) : Prop where
  exports : ∀ module ∈ m.modules,
    Emitted core s ("ffiapi/ffiapi_" ++ module.name ++ ".rs") (exportLines s module)
  safe : ∃ body, Emitted core s "simpleapi/simpleapi.rs" body ∧ ∀ f ∈ m.functions,
    (f.safe s.options.apiPath).lines s.options.errorTypeName <:+: body
  glue : Emitted jvm s "ffiapijava/ffiapijava.rs" (glueLines s m)
  classes : ∀ module ∈ m.modules,
    Emitted jvm s ("java/" ++ module.name ++ "/" ++ moduleClass module.name ++ ".java")
      (javaModuleLines s m module)
  wrappers : ∀ module ∈ m.modules,
    Emitted swift s ("swift/" ++ moduleClass module.name ++ ".swift") (swiftModuleLines s module)
  bodies : ∀ module ∈ m.modules, ∀ f ∈ module.functions,
    f.exported.lines <:+: exportLines s module ∧
      (f.glue s.options.javaPackage).lines s <:+: glueLines s m ∧
      indent ((f.javaMethod s).lines s) <:+: javaModuleLines s m module ∧
      (f.outputCount > 1 →
        indent (resultClassLines f.resultClass f.resultFields) <:+: javaModuleLines s m module) ∧
      indent (f.swift.lines s) <:+: swiftModuleLines s module
  uncaptured : ∀ f ∈ m.functions, f.Uncaptured m s

/-- **No name is captured**, whatever the API: in what the three targets generate from a valid
description under valid options, no body of a function binds a name twice or one that is taken. -/
theorem no_name_captured {es : List (Value × Value)} {m : Model} {o : Options} {t : ErrorTable}
    {core jvm swift : List Source.File} (hm : Model.ofDescription es = .ok m) (ho : o.Valid)
    (hcore : Target.core.emit m o t = .ok core) (hjvm : Target.jvm.emit m o t = .ok jvm)
    (hswift : Target.swift.emit m o t = .ok swift) :
    ∃ s : Setting, s.For o t ∧ NoCapture s m core jvm swift := by
  obtain ⟨s, hs, refused, library, _, rfl, rfl, rfl⟩ := emit_targets hcore hjvm hswift
  have hw : m.WellFormed := (ofDescription_eq_ok.1 hm).2
  have hapi : isPath s.options.apiPath = true := by
    rw [hs.options]
    exact ho.apiPath
  have hrefused : '(' ∉ s.refused.toList := by
    rw [hs.refused_eq]
    decide
  refine ⟨s, hs, ⟨fun module h => ?_, ⟨safeLines s m refused, ?_, fun f hf => safe_infix hf refused⟩,
    emitted_glueFile library, fun module h => emitted_javaModuleFile hw library h,
    fun module h => emitted_swiftModuleFile hw.spelled hw.distinct h, fun module h f hf => ?_,
    fun f hf => Function.uncaptured hw hf hapi hrefused⟩⟩
  · rw [← exportPath module.name]
    exact emitted_exportModule hw.distinct refused h
  · exact emitted_of_last (List.forall_mem_nil _)
  · have hexport := infix_flatMap (fun f : Function => f.exported.lines) hf
    have hglue := infix_flatMap (fun f : Function => (f.glue s.options.javaPackage).lines s)
      (Model.mem_functions.2 ⟨module, h, hf⟩)
    exact ⟨hexport.trans (List.suffix_append _ _).isInfix, hglue.trans (List.suffix_append _ _).isInfix,
      javaMethod_infix hf, resultClass_infix hf, swift_infix hf⟩

/-- A description of a function whose locals are called like functions of the safe layer. -/
def echoEntries : List (Value × Value) :=
  [(.str "types", .list
      [.map [(.str "name", .str "Key"), (.str "kind", .str "buffer"), (.str "size", .int 32)],
        .map [(.str "name", .str "Round"), (.str "kind", .str "scalar"), (.str "size", .int 2)],
        .map [(.str "name", .str "Mode"), (.str "kind", .str "enum"),
          (.str "variants", .list [.str "Fast", .str "Slow"])]]),
    (.str "modules", .list [.map [(.str "name", .str "x"), (.str "functions", .list
      [.map [(.str "name", .str "value"), (.str "params", .list
          [.map [(.str "name", .str "x"), (.str "type", .str "Key")],
            .map [(.str "name", .str "round"), (.str "type", .str "Round")],
            .map [(.str "name", .str "tag"), (.str "type", .str "Key"), (.str "direction", .str "out")]]),
        (.str "returns", .str "Mode")]])]])]

/-- The model with this function. -/
def echoModel : Model :=
  let key : TypeDef := ⟨"Key", .buffer 32, none⟩
  let round : TypeDef := ⟨"Round", .scalar .two, none⟩
  let mode : TypeDef := ⟨"Mode", .enum ["Fast", "Slow"], none⟩
  ⟨[key, round, mode], [⟨"x", [⟨"value", "x", [⟨"x", key, .input⟩,
    ⟨"round", round, .input⟩, ⟨"tag", key, .output⟩], some mode, false⟩]⟩]⟩

theorem ofDescription_echo : Model.ofDescription echoEntries = .ok echoModel := by
  decide +kernel

theorem no_name_captured_echo : ∃ m core jvm swift s, Model.ofDescription echoEntries = .ok m ∧
    m.safeNames = ["x_value"] ∧
    (m.functions.map fun f => (linewiseScope f.exported.lines).names) =
      [["x", "xLen", "round", "tag", "tagLen", "out", "outLen", "x", "tag", "out", "result"]] ∧
    (m.functions.map fun f =>
      (rustScope ((f.safe s.options.apiPath).lines s.options.errorTypeName)).names) =
        [["x", "round", "tag", "x_value", "tag_value", "result"]] ∧
    (m.functions.map fun f => (linewiseScope ((f.glue s.options.javaPackage).lines s)).names) =
      [["env", "_class", "x", "round", "tag", "out", "x_buf", "round", "tag_buf", "out_buf", "code"]] ∧
    (m.functions.map fun f => (javaScope ((f.javaMethod s).lines s)).names) =
      [["x", "round", "tag", "out", "ffiResult", "e"]] ∧
    (m.functions.map fun f => (swiftScope (f.swift.lines s)).names) =
      [["x", "round", "tag", "out", "ffiResult"]] ∧
    NoCapture s m core jvm swift := by
  obtain ⟨core, hcore⟩ : ∃ fs, Target.core.emit echoModel .standard .standard = .ok fs :=
    exists_eq_ok (by decide +kernel)
  obtain ⟨jvm, hjvm⟩ : ∃ fs, Target.jvm.emit echoModel .standard .standard = .ok fs :=
    exists_eq_ok (by decide +kernel)
  obtain ⟨swift, hswift⟩ : ∃ fs, Target.swift.emit echoModel .standard .standard = .ok fs :=
    exists_eq_ok (by decide +kernel)
  obtain ⟨s, hs, hnone⟩ := no_name_captured ofDescription_echo valid_standard hcore hjvm hswift
  have hw : echoModel.WellFormed := (ofDescription_eq_ok.1 ofDescription_echo).2
  refine ⟨_, core, jvm, swift, s, ofDescription_echo, by decide +kernel, by decide +kernel,
    ?_, ?_, ?_, ?_, hnone⟩
  · rw [hs.options]
    decide +kernel
  · rw [List.map_congr_left fun f hf => congrArg Scope.names (linewiseScope_glue hw hf s _)]
    rfl
  · rw [List.map_congr_left fun f hf => names_java hw hf s]
    rfl
  · rw [List.map_congr_left fun f hf => names_swift hw hf s]
    rfl

end Bindery
