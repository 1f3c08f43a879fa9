/-
  THE JAVA SIDE AGREES, where the files have it.

  `Function.javaAgree` is about three declarations of one function; here they are found in what is
  generated.  The class `Native` has the native methods, the glue their implementations and the class
  of a module its wrappers, and the value classes have what a wrapper asks of them.

  What the glue imports is read off its lines: checked conversions where it has one, and the long type
  where a parameter is declared with it.  The whole file imports the same, unless there is an import
  behind a line feed in the header (`java_side_disagrees`).
-/
import Bindery.Proofs.Boundary.Bindings
import Bindery.Proofs.Boundary.Crossing

namespace Bindery

open Source Target

/-! ## What the glue imports -/

/-- The imports of a file of Rust. -/
def rustImports : Reader String := .statement "use "

theorem outer_rustImports : rustImports.Outer := by constructor <;> decide

/-- What glue with such lines imports: checked conversions where there is one, and the long type where a
parameter has it. -/
def glueImports (path : String) (ls : List Line) : List String :=
  (if (conversions.readAt 2 ls).isEmpty then [] else ["std::convert::TryFrom"]) ++
    ["jni::objects::JClass",
      if (typedParameters ls).any (·.2 == "jlong") then "jni::sys::\x7bjbyteArray, jint, jlong\x7d"
      else "jni::sys::\x7bjbyteArray, jint\x7d",
      "jni::JNIEnv", path ++ "::ffiapi::*"]

section

variable {s : Setting} {m : Model}

theorem quiet_glue (g : Glue) : AllQuiet 'u' (g.lines s) := by
  have hhead : Quiet 'u' (line ("pub extern \"system\" fn " ++ g.symbol ++ "(")) := by
    refine quiet_line 'p' ?_ (by decide)
    rw [String.append_assoc, String.toList_append]
    rfl
  refine .append (.append (.cons (quiet_line '#' rfl (by decide)) (.cons hhead (.indent _))) ?_) ?_
  · exact .cons (quiet_line ')' rfl (by decide)) (.indent _)
  · exact .cons (quiet_line '\x7d' rfl (by decide)) (.cons quiet_gap .nil)

/-- What stands in one or two blocks of the glue belongs to its functions or to its helpers. -/
theorem textsAt_glueLines (depth : Nat) : textsAt (depth + 1) (glueLines s m) =
    textsAt (depth + 1) (glueHelpers s) ++
      m.functions.flatMap fun f => textsAt (depth + 1) ((f.glue s.options.javaPackage).lines s) := by
  have hfunctions : ∀ fs : List Function, textsAt (depth + 1)
      (fs.flatMap fun f => (f.glue s.options.javaPackage).lines s) =
        fs.flatMap fun f => textsAt (depth + 1) ((f.glue s.options.javaPackage).lines s) := by
    intro fs
    induction fs with
    | nil => rfl
    | cons f fs ih => rw [List.flatMap_cons, textsAt_append, ih, List.flatMap_cons]
  have hnarrow : textsAt (depth + 1) (if m.valueWidths.any (·.isNarrow) then
      Source.lines ["use std::convert::TryFrom;", ""] else []) = [] := by
    split <;> simp
  unfold glueLines
  rw [textsAt_append, textsAt_append, textsAt_append, textsAt_append, hnarrow, hfunctions,
    textsAt_lines_deeper, textsAt_lines_deeper, List.nil_append, List.nil_append, List.nil_append]

theorem conversions_glueLines (hm : m.WellFormed) : conversions.readAt 2 (glueLines s m) =
    m.functions.flatMap fun f => f.arguments.filterMap (·.converted?) := by
  have hhelpers : conversions.readAll (textsAt 2 (glueHelpers s)) = [] := by
    have hother : ∀ start, Apart conversions.head start → ∀ rest,
        conversions.Ignores (start ++ rest) := fun _ h rest => .of_apart (h.append rest)
    have htexts : textsAt 2 (glueHelpers s) = ["return Err(" ++ (s.refused ++ ");"),
        "return Err(" ++ (s.refused ++ ");"), ".get_array_length(array)",
        ".map_err(|_| " ++ (s.refused ++ ")?;"), ".map_err(|_| " ++ (s.broken ++ ")"),
        "Ok(code) | Err(code) => code,"] := by
      simp [glueHelpers, String.append_assoc]
    have hreturn := hother "return Err(" (by decide)
    have hmap := hother ".map_err(|_| " (by decide)
    rw [htexts]
    refine Reader.readAll_eq_nil (List.forall_mem_cons.2 ⟨hreturn _, List.forall_mem_cons.2 ⟨hreturn _,
      List.forall_mem_cons.2 ⟨by decide, List.forall_mem_cons.2 ⟨hmap _, List.forall_mem_cons.2 ⟨hmap _,
        List.forall_mem_singleton.2 (by decide)⟩⟩⟩⟩⟩)
  unfold Reader.readAt
  rw [textsAt_glueLines, Reader.readAll_append, hhelpers, List.nil_append]
  refine List.filterMap_flatMap.trans (List.flatMap_congr fun f hf => ?_)
  exact conversions_glue hm hf s _

theorem typedParameters_glueLines (hm : m.WellFormed) : typedParameters (glueLines s m) =
    m.functions.flatMap fun f => [("env", "JNIEnv"), ("_class", "JClass")] ++
      f.arguments.map fun a => (a.name, a.passing.jni) := by
  have hhelpers : (textsAt 1 (glueHelpers s)).filterMap typedIn? = [] := by
    have hread : typedIn? ("env.convert_byte_array(array).map_err(|_| " ++ s.refused ++ ")") = none :=
      typedIn?_eq_none (by
        rw [getLast?_toList_append _ (by decide : ")".toList.getLast? = some ')')]
        decide)
    simp +decide [glueHelpers, hread]
  unfold typedParameters
  rw [textsAt_glueLines, List.filterMap_append, hhelpers, List.nil_append]
  refine List.filterMap_flatMap.trans (List.flatMap_congr fun f hf => ?_)
  exact typedParameters_glue hm hf s _

theorem mem_valueWidths {w : Width} :
    w ∈ m.valueWidths ↔ ∃ f ∈ m.functions, ∃ a ∈ f.arguments, a.passing = .inValue w := by
  unfold Model.valueWidths
  rw [List.mem_filterMap]
  constructor
  · rintro ⟨a, ha, hw⟩
    obtain ⟨f, hf, ha⟩ := List.mem_flatMap.1 ha
    cases hpass : a.passing with
    | inValue w' =>
      rw [hpass] at hw
      cases hw
      exact ⟨f, hf, a, ha, hpass⟩
    | _ =>
      rw [hpass] at hw
      nomatch hw
  · rintro ⟨f, hf, a, ha, hpass⟩
    refine ⟨a, List.mem_flatMap.2 ⟨f, hf, ha⟩, ?_⟩
    rw [hpass]

theorem Argument.converted?_isSome {a : Argument} :
    a.converted?.isSome = true ↔ ∃ w, a.passing = .inValue w ∧ w.isNarrow = true := by
  unfold converted?
  cases a.passing with
  | inValue w =>
    dsimp only
    split
    · rename_i hw
      exact ⟨fun _ => ⟨w, rfl, hw⟩, fun _ => rfl⟩
    · rename_i hw
      refine ⟨fun h => (nomatch h), ?_⟩
      rintro ⟨w', hpass, hw'⟩
      cases hpass
      exact absurd hw' hw
  | _ => exact ⟨fun h => (nomatch h), fun ⟨_, h, _⟩ => (nomatch h)⟩

/-- A narrow number crosses where the glue narrows one. -/
theorem any_isNarrow (hm : m.WellFormed) :
    m.valueWidths.any (·.isNarrow) = !(conversions.readAt 2 (glueLines s m)).isEmpty := by
  rw [conversions_glueLines hm, Bool.eq_iff_iff, List.any_eq_true, Bool.not_eq_true',
    List.isEmpty_eq_false_iff_exists_mem]
  constructor
  · rintro ⟨w, hw, hnarrow⟩
    obtain ⟨f, hf, a, ha, hpass⟩ := mem_valueWidths.1 hw
    obtain ⟨x, hx⟩ := Option.isSome_iff_exists.1 (Argument.converted?_isSome.2 ⟨w, hpass, hnarrow⟩)
    exact ⟨x, List.mem_flatMap.2 ⟨f, hf, List.mem_filterMap.2 ⟨a, ha, hx⟩⟩⟩
  · rintro ⟨x, hx⟩
    obtain ⟨f, hf, hx⟩ := List.mem_flatMap.1 hx
    obtain ⟨a, ha, hx⟩ := List.mem_filterMap.1 hx
    obtain ⟨w, hpass, hnarrow⟩ := Argument.converted?_isSome.1 (Option.isSome_iff_exists.2 ⟨x, hx⟩)
    exact ⟨w, mem_valueWidths.2 ⟨f, hf, a, ha, hpass⟩, hnarrow⟩

/-- The long type is named where a parameter has it. -/
theorem contains_eight (hm : m.WellFormed) : m.valueWidths.contains .eight =
    (typedParameters (glueLines s m)).any (·.2 == "jlong") := by
  have hlong : ∀ p : Passing, p.jni = "jlong" ↔ p = .inValue .eight := by
    intro p
    cases p with
    | inValue w => cases w <;> decide
    | _ => decide
  rw [typedParameters_glueLines hm, Bool.eq_iff_iff, List.contains_iff_mem, mem_valueWidths,
    List.any_eq_true]
  constructor
  · rintro ⟨f, hf, a, ha, hpass⟩
    exact ⟨_, List.mem_flatMap.2 ⟨f, hf, List.mem_append_right _ (List.mem_map.2 ⟨a, ha, rfl⟩)⟩,
      beq_iff_eq.2 ((hlong _).2 hpass)⟩
  · rintro ⟨p, hp, hjni⟩
    obtain ⟨f, hf, hp⟩ := List.mem_flatMap.1 hp
    rcases List.mem_append.1 hp with hp | hp
    · have hown : ∀ p ∈ [("env", "JNIEnv"), ("_class", "JClass")], (p.2 == "jlong") = false := by decide
      rw [hown p hp] at hjni
      nomatch hjni
    · obtain ⟨a, ha, rfl⟩ := List.mem_map.1 hp
      exact ⟨f, hf, a, ha, (hlong _).1 (beq_iff_eq.1 hjni)⟩

/-- **What the glue imports** is what its lines use. -/
theorem rustImports_glueLines (hm : m.WellFormed) : rustImports.readAt 0 (glueLines s m) =
    glueImports s.options.ffiPath (glueLines s m) := by
  have hrest : rustImports.readAt 0 (m.functions.flatMap fun f =>
      (f.glue s.options.javaPackage).lines s) = [] := by
    refine Reader.readAt_eq_nil_of_quiet (c := 'u') (by decide) fun l hl => ?_
    obtain ⟨f, _, hl⟩ := List.mem_flatMap.1 hl
    exact quiet_glue _ l hl
  have hhelpers : rustImports.readAt 0 (glueHelpers s) = [] :=
    Reader.readAt_eq_nil_of_quiet (c := 'u') (by decide) (quiet_glueHelpers (by decide) (by decide) s)
  have hexports : rustImports.read? ("use " ++ s.options.ffiPath ++ "::ffiapi::*;").toList =
      some (s.options.ffiPath ++ "::ffiapi::*") := by
    refine Reader.read?_statement ?_
    have hend : "::ffiapi::*;" = "::ffiapi::*" ++ ";" := by decide
    rw [hend]
    simp only [String.append_assoc]
  have htypes : rustImports.read? ("use jni::sys::" ++ opening ++ commas (glueTypes m) ++ closing ++
      ";").toList = some (if (typedParameters (glueLines s m)).any (·.2 == "jlong") then
        "jni::sys::\x7bjbyteArray, jint, jlong\x7d" else "jni::sys::\x7bjbyteArray, jint\x7d") := by
    unfold glueTypes
    rw [contains_eight hm]
    cases (typedParameters (glueLines s m)).any (·.2 == "jlong") <;> decide
  have hnarrow : rustImports.readAt 0 (if m.valueWidths.any (·.isNarrow) then
      Source.lines ["use std::convert::TryFrom;", ""] else []) =
        if (conversions.readAt 2 (glueLines s m)).isEmpty then [] else ["std::convert::TryFrom"] := by
    rw [any_isNarrow hm]
    cases (conversions.readAt 2 (glueLines s m)).isEmpty <;> decide
  have htop : rustImports.readAt 0 (Source.lines ["#![allow(non_snake_case)]", ""]) = [] := by decide
  have huses : rustImports.readAt 0 (Source.lines ["use jni::objects::JClass;",
      "use jni::sys::" ++ opening ++ commas (glueTypes m) ++ closing ++ ";", "use jni::JNIEnv;", "",
      "use " ++ s.options.ffiPath ++ "::ffiapi::*;", ""]) = ["jni::objects::JClass",
        if (typedParameters (glueLines s m)).any (·.2 == "jlong") then
          "jni::sys::\x7bjbyteArray, jint, jlong\x7d" else "jni::sys::\x7bjbyteArray, jint\x7d",
        "jni::JNIEnv", s.options.ffiPath ++ "::ffiapi::*"] := by
    have hclass : rustImports.read? "use jni::objects::JClass;".toList = some "jni::objects::JClass" := by
      decide
    have henv : rustImports.read? "use jni::JNIEnv;".toList = some "jni::JNIEnv" := by decide
    have hempty : rustImports.read? "".toList = none := by decide
    unfold Reader.readAt
    rw [textsAt_lines, Reader.readAll_cons, hclass, Reader.readAll_cons, htypes, Reader.readAll_cons, henv,
      Reader.readAll_cons, hempty, Reader.readAll_cons, hexports, Reader.readAll_singleton, hempty]
    rfl
  unfold glueImports
  rw [← hnarrow, ← huses]
  conv_lhs => unfold glueLines
  rw [Reader.readAt_append, Reader.readAt_append, Reader.readAt_append, Reader.readAt_append, hrest,
    hhelpers, htop, List.append_nil, List.append_nil, List.nil_append]

end

/-! ## The Java side of a model -/

/-- `JavaDeclares s m library` — class `Native`, glue and module classes have the three declarations of
every function, and these agree; the value classes have what is called on them, and the glue imports
what it uses and nothing else. -/
structure JavaDeclares (s : Setting) (m : Model) (library : FileText) : Prop where
  agree : ∀ module ∈ m.modules, ∀ f ∈ module.functions, ∃ e n g j,
    e <:+: exportLines s module ∧ line n ∈ nativeBody m library ∧ g <:+: glueLines s m ∧
      indent j <:+: javaModuleLines s m module ∧ JavaAgree m f s.options.javaPackage e n g j
  accessors : ∀ t ∈ m.types, t.isScalar = false → HasAccessor s (m.homeModule t) t
  imports : rustImports.readAt 0 (glueLines s m) = glueImports s.options.ffiPath (glueLines s m)

/-- `JavaFiles s m library files` — the files have these declarations: one is the class `Native`, one
the glue, and one for each module its class. -/
structure JavaFiles (s : Setting) (m : Model) (library : FileText) (files : List File) : Prop where
  native : ∃ file ∈ files, file.path = "java/internal/Native.java" ∧
    file.text = renderFile (s.header.map (·.text))
      (line ("package " ++ (s.options.javaPackage ++ ".internal") ++ ";") :: gap ::
        block "public final class Native" (nativeBody m library))
  glue : Emitted files s "ffiapijava/ffiapijava.rs" (glueLines s m)
  classes : ∀ module ∈ m.modules,
    Emitted files s ("java/" ++ module.name ++ "/" ++ Naming.moduleClass module.name ++ ".java")
      (javaModuleLines s m module)

/-- `GlueImports s m files` — the text of the glue, read line by line, imports what its lines use and
nothing else. -/
def GlueImports (s : Setting) (m : Model) (files : List File) : Prop :=
  ∃ file ∈ files, file.path = "ffiapijava/ffiapijava.rs" ∧
    rustImports.readIn file.text = glueImports s.options.ffiPath (glueLines s m)

theorem line_native_mem {m : Model} {f : Function} (hf : f ∈ m.functions) (library : FileText) :
    line f.native.text ∈ nativeBody m library :=
  List.mem_append_right _ (List.mem_cons_of_mem _ (List.mem_map.2 ⟨f, hf, rfl⟩))

theorem Model.WellFormed.javaDeclares {m : Model} (hm : m.WellFormed) {s : Setting}
    (hs : s.options.Valid) (library : FileText) : JavaDeclares s m library where
  agree := by
    intro module hmodule f hf
    have hfun : f ∈ m.functions := Model.mem_functions.2 ⟨module, hmodule, hf⟩
    have hexport : f.exported.lines <:+: exportLines s module :=
      (infix_flatMap (fun f : Function => f.exported.lines) hf).trans (List.suffix_append _ _).isInfix
    have hglue : (f.glue s.options.javaPackage).lines s <:+: glueLines s m :=
      (infix_flatMap (fun f : Function => (f.glue s.options.javaPackage).lines s) hfun).trans
        (List.suffix_append _ _).isInfix
    exact ⟨_, _, _, _, hexport, line_native_mem hfun library, hglue, javaMethod_infix hf,
      f.javaAgree hm hfun s hs.javaPackage⟩
  accessors := fun _ _ h => hasAccessor s _ h
  imports := rustImports_glueLines hm

/-- **The Java side agrees**, whatever the API: of every function of an accepted description the
native method, the glue and the call in the wrapper have one list of arguments in types that are the
same on both sides, and a number that crosses by value arrives whole.  What is generated has these
declarations; and if no line of the header is broken, the glue imports what it uses. -/
theorem java_side_agrees {es : List (Value × Value)} {m : Model}
    (hm : Model.ofDescription es = .ok m) :
    (∀ s library, s.options.Valid → JavaDeclares s m library) ∧
      ∀ o t files, Target.jvm.emit m o t = .ok files →
        ∃ s library, s.For o t ∧ JavaFiles s m library files ∧
          (o.Valid → o.HeaderUnbroken → t.Usable → GlueImports s m files) := by
  have hw : m.WellFormed := (ofDescription_eq_ok.1 hm).2
  refine ⟨fun s library hs => hw.javaDeclares hs library, fun o t files hfiles => ?_⟩
  obtain ⟨s, hs, library, rfl⟩ := emit_jvm hfiles
  refine ⟨s, library, hs, ⟨⟨_, nativeFile_mem hw library, rfl, nativeFile_text library⟩,
    emitted_glueFile library, fun module h => emitted_javaModuleFile hw library h⟩, ?_⟩
  intro ho hheader ht
  have hfile := Emitted.file (emitted_glueFile (s := s) (m := m) library)
  refine ⟨_, hfile.1, hfile.2, ?_⟩
  rw [(hs.harmless ho hheader ht).readIn_neat outer_rustImports
    ((hs.harmless ho hheader ht).allNeat_glueLines hw)]
  exact rustImports_glueLines hw

theorem java_side_agrees_alarm : ∃ m s jvm,
    Model.ofDescription alarmEntries = .ok m ∧
      (m.functions.map fun f => f.arguments.map (·.nativeArg.expression)) =
        [["clock.getInternalContentsForJNI()", "hour", "ticks", "sound.getValue()", "out"]] ∧
      ∃ library, JavaDeclares s m library ∧ JavaFiles s m library jvm ∧ GlueImports s m jvm := by
  obtain ⟨jvm, hjvm⟩ : ∃ fs, Target.jvm.emit alarmModel .standard .standard = .ok fs :=
    exists_eq_ok (by decide +kernel)
  obtain ⟨hdeclares, hfiles⟩ := java_side_agrees ofDescription_alarm
  obtain ⟨s, library, hs, hjava, himports⟩ := hfiles _ _ _ hjvm
  exact ⟨_, s, jvm, ofDescription_alarm, by decide +kernel, library,
    hdeclares s library (hs.options ▸ valid_standard), hjava,
    himports valid_standard headerUnbroken_standard ErrorTable.usable_standard⟩

/-! ## A header with an import of its own -/

/-- Options with an import behind a line feed in the header. -/
def importOptions : Options :=
  { Options.standard with header := .lines [.str "Bindings\nuse std::convert::TryFrom;"] }

/-- With a broken line in its header the glue can import what it does not use. -/
theorem java_side_disagrees : importOptions.Valid ∧
    Model.ofDescription signingEntries = .ok signingModel ∧
    ∃ (s : Setting) (jvm : List File) (file : File), s.For importOptions .standard ∧
      Target.jvm.emit signingModel importOptions .standard = .ok jvm ∧ file ∈ jvm ∧
      file.path = "ffiapijava/ffiapijava.rs" ∧ "std::convert::TryFrom" ∈ rustImports.readIn file.text ∧
      conversions.readAt 2 (glueLines s signingModel) = [] := by
  have hm : signingModel.WellFormed := (ofDescription_eq_ok.1 ofDescription_signing).2
  obtain ⟨jvm, hjvm⟩ : ∃ fs, Target.jvm.emit signingModel importOptions .standard = .ok fs :=
    exists_eq_ok (by decide +kernel)
  obtain ⟨s, hs, library, rfl⟩ := emit_jvm hjvm
  have hheader : s.header = [⟨"Bindings\nuse std::convert::TryFrom;", true⟩] :=
    (Except.ok.inj hs.header).symm
  have hfile := Emitted.file (emitted_glueFile (s := s) (m := signingModel) library)
  refine ⟨valid_standard.withHeader _, ofDescription_signing, s, _, _, hs, hjvm, hfile.1, hfile.2, ?_, ?_⟩
  · refine Reader.mem_readIn_of_banner (t := "// Bindings\nuse std::convert::TryFrom;") (by decide) ?_
      (by decide +kernel) _ _
    rw [hheader]
    decide +kernel
  · rw [conversions_glueLines hm]
    decide +kernel

end Bindery
