/-
  THE BINDINGS OF A MODEL agree with each other.

  The files of the three targets hold an export, a prototype, a glue function and a wrapper for every
  function, and these four agree (`Agree`).  Of each kind the bodies of the files hold nothing else
  (`BindingsAgree`).  What is read off the whole files is the same (`SequencesRead`), unless the header
  brings a line of its own: a comment that is cut by a line feed ends there, and what follows is read
  like any other line (`bindings_disagree`).
-/
import Bindery.Proofs.Boundary.Agreement
import Bindery.Proofs.Boundary.NeatFiles
import Bindery.Proofs.Codes.Agreement

namespace Bindery

open Source Target

/-- `BindingsAgree s m core jvm swift` — the files of the three targets have the exports, the
prototypes, the glue and the wrappers of the model's functions, each kind in the order of the
model and nothing else of the kind, and the four declarations of every function agree. -/
structure BindingsAgree (s : Setting) (m : Model) (core jvm swift : List Source.File) :
    Prop where
  exports : ∀ module ∈ m.modules,
    Emitted core s ("ffiapi/ffiapi_" ++ module.name ++ ".rs") (exportLines s module)
  header : Emitted swift s ("swift/" ++ s.options.libraryName ++ ".h") (headerLines s m)
  glue : Emitted jvm s "ffiapijava/ffiapijava.rs" (glueLines s m)
  wrappers : ∀ module ∈ m.modules,
    Emitted swift s ("swift/" ++ Naming.moduleClass module.name ++ ".swift")
      (swiftModuleLines s module)
  exportSequence : (m.modules.flatMap fun module => declared exportHead (exportLines s module)) =
    m.functions.map (·.coreSymbol)
  prototypeSequence : declared prototypeHead (headerLines s m) = m.functions.map (·.coreSymbol)
  glueSequence : declared glueHead (glueLines s m) =
    m.functions.map (·.nativeSymbol s.options.javaPackage)
  agree : ∀ module ∈ m.modules, ∀ f ∈ module.functions, ∃ e p g w,
    e <:+: exportLines s module ∧ line p ∈ headerLines s m ∧ g <:+: glueLines s m ∧
      indent w <:+: swiftModuleLines s module ∧ Agree f s.options.javaPackage e p g w

/-- `SequencesRead s m core jvm swift` — the texts of whole files, read line by line, declare the
exports of each module, the prototypes and the glue of the model, each kind in the order of the model and
nothing else of the kind. -/
structure SequencesRead (s : Setting) (m : Model) (core jvm swift : List Source.File) : Prop where
  exports : ∀ module ∈ m.modules, ∃ file ∈ core,
    file.path = "ffiapi/ffiapi_" ++ module.name ++ ".rs" ∧
      (Reader.declaring exportHead).readIn file.text = module.functions.map (·.coreSymbol)
  prototypes : ∃ file ∈ swift, file.path = "swift/" ++ s.options.libraryName ++ ".h" ∧
    (prototypes.readIn file.text).map Prod.fst = m.functions.map (·.coreSymbol)
  glue : ∃ file ∈ jvm, file.path = "ffiapijava/ffiapijava.rs" ∧
    (Reader.declaring glueHead).readIn file.text =
      m.functions.map (·.nativeSymbol s.options.javaPackage)

section

variable {s : Setting} {m : Model} {core jvm swift : List Source.File}

theorem bindingsAgree (hm : m.WellFormed) (hs : s.options.Valid) (refused : String)
    (library : FileText) : BindingsAgree s m (collect (coreFiles s m refused))
      (collect (jvmFiles s m library)) (collect (swiftFiles s m)) := by
  have hnamed : ∀ f ∈ m.functions, f.Named := fun f hf => hm.named hf
  have hmod : ∀ {module : Module}, module ∈ m.modules → ∀ f ∈ module.functions, f ∈ m.functions :=
    fun h f hf => Model.mem_functions.2 ⟨_, h, hf⟩
  constructor
  case exports =>
    intro module h
    rw [← exportPath module.name]
    exact emitted_exportModule hm.distinct refused h
  case header => exact emitted_headerFile
  case glue => exact emitted_glueFile library
  case wrappers => exact fun module h => emitted_swiftModuleFile hm.spelled hm.distinct h
  case exportSequence =>
    rw [Model.functions, List.map_flatMap]
    exact List.flatMap_congr fun module h =>
      declared_exportLines fun f hf => hnamed f (hmod h f hf)
  case prototypeSequence => exact declared_headerLines hnamed
  case glueSequence => exact declared_glueLines hnamed hs.javaPackage
  case agree =>
    intro module h f hf
    refine ⟨_, _, _, _, ?_, line_prototype_mem h hf, ?_, swift_infix hf,
      f.agree hm (hmod h f hf) s hs.javaPackage⟩
    · exact (infix_flatMap (fun f : Function => f.exported.lines) hf).trans
        (List.suffix_append _ _).isInfix
    · exact (infix_flatMap (fun f : Function => (f.glue s.options.javaPackage).lines s)
        (hmod h f hf)).trans (List.suffix_append _ _).isInfix

/-- Neat files are read as their bodies are. -/
theorem BindingsAgree.sequencesRead (h : BindingsAgree s m core jvm swift) (hm : m.WellFormed)
    (hs : s.Harmless) : SequencesRead s m core jvm swift := by
  have hexports : (Reader.declaring exportHead).Outer := by constructor <;> decide
  have hprototypes : Source.prototypes.Outer := by constructor <;> decide
  have hglue : (Reader.declaring glueHead).Outer := by constructor <;> decide
  constructor
  case exports =>
    intro module hmodule
    refine ⟨_, (h.exports module hmodule).file.1, (h.exports module hmodule).file.2, ?_⟩
    rw [hs.readIn_neat hexports (hs.allNeat_exportLines hm hmodule), Reader.readAt_declaring]
    exact declared_exportLines fun f hf => hm.named (Model.mem_functions.2 ⟨_, hmodule, hf⟩)
  case prototypes =>
    refine ⟨_, h.header.file.1, h.header.file.2, ?_⟩
    rw [hs.readIn_neat hprototypes (hs.allNeat_headerLines hm)]
    exact (Reader.readAt_signatures _ _ _).trans h.prototypeSequence
  case glue =>
    refine ⟨_, h.glue.file.1, h.glue.file.2, ?_⟩
    rw [hs.readIn_neat hglue (hs.allNeat_glueLines hm), Reader.readAt_declaring]
    exact h.glueSequence

end

/-- **The bindings agree**, whatever the API: in what the three targets generate from a valid
description under valid options, every function has one symbol and one native argument list.  If no
line of the header is broken, whole files declare the functions of the model and nothing else. -/
theorem bindings_agree {es : List (Value × Value)} {m : Model} {o : Options} {t : ErrorTable}
    {core jvm swift : List Source.File} (hm : Model.ofDescription es = .ok m) (ho : o.Valid)
    (hcore : Target.core.emit m o t = .ok core) (hjvm : Target.jvm.emit m o t = .ok jvm)
    (hswift : Target.swift.emit m o t = .ok swift) :
    ∃ s : Setting, s.For o t ∧ BindingsAgree s m core jvm swift ∧
      (o.HeaderUnbroken → t.Usable → SequencesRead s m core jvm swift) := by
  obtain ⟨s, hs, refused, library, _, rfl, rfl, rfl⟩ := emit_targets hcore hjvm hswift
  have hw : m.WellFormed := (ofDescription_eq_ok.1 hm).2
  have hagree := bindingsAgree hw (hs.options ▸ ho) refused library
  exact ⟨s, hs, hagree, fun hheader ht => hagree.sequencesRead hw (hs.harmless ho hheader ht)⟩

/-- A description with a function that takes a buffer and gives one back. -/
def signingEntries : List (Value × Value) :=
  [(.str "types", .list [.map [(.str "name", .str "Key"), (.str "kind", .str "buffer"),
      (.str "size", .int 32)]]),
    (.str "modules", .list [.map [(.str "name", .str "auth"), (.str "functions", .list
      [.map [(.str "name", .str "sign"),
        (.str "params", .list [.map [(.str "name", .str "key"), (.str "type", .str "Key")]]),
        (.str "returns", .str "Key")]])]])]

/-- Its model. -/
def signingModel : Model :=
  ⟨[⟨"Key", .buffer 32, none⟩], [⟨"auth", [⟨"sign", "auth",
    [⟨"key", ⟨"Key", .buffer 32, none⟩, .input⟩], some ⟨"Key", .buffer 32, none⟩, false⟩]⟩]⟩

theorem ofDescription_signing : Model.ofDescription signingEntries = .ok signingModel := by
  decide +kernel

theorem bindings_agree_signing :
    ∃ core jvm swift s, Model.ofDescription signingEntries = .ok signingModel ∧
      signingModel.functions.map (·.coreSymbol) = ["ffi_auth_sign"] ∧
      BindingsAgree s signingModel core jvm swift ∧ SequencesRead s signingModel core jvm swift := by
  obtain ⟨core, hcore⟩ : ∃ fs, Target.core.emit signingModel .standard .standard = .ok fs :=
    exists_eq_ok (by decide +kernel)
  obtain ⟨jvm, hjvm⟩ : ∃ fs, Target.jvm.emit signingModel .standard .standard = .ok fs :=
    exists_eq_ok (by decide +kernel)
  obtain ⟨swift, hswift⟩ : ∃ fs, Target.swift.emit signingModel .standard .standard = .ok fs :=
    exists_eq_ok (by decide +kernel)
  obtain ⟨s, _, hagree, hread⟩ :=
    bindings_agree ofDescription_signing valid_standard hcore hjvm hswift
  exact ⟨core, jvm, swift, s, ofDescription_signing, by decide +kernel, hagree,
    hread headerUnbroken_standard ErrorTable.usable_standard⟩

/-! ## A header with a prototype of its own -/

/-- Options with a prototype behind a line feed in the header. -/
def prototypeOptions : Options :=
  { Options.standard with header := .lines [.str "Bindings\nint32_t ffi_evil(void);"] }

/-- With a broken line in its header a file can declare what the model has not: a function without an
export, behind which there is nothing to call. -/
theorem bindings_disagree : prototypeOptions.Valid ∧
    Model.ofDescription signingEntries = .ok signingModel ∧
    ∃ (s : Setting) (swift : List Source.File) (file : Source.File), s.For prototypeOptions .standard ∧
      Target.swift.emit signingModel prototypeOptions .standard = .ok swift ∧ file ∈ swift ∧
      file.path = "swift/zkgroup.h" ∧ ("ffi_evil", []) ∈ prototypes.readIn file.text ∧
      "ffi_evil" ∉ signingModel.functions.map (·.coreSymbol) := by
  obtain ⟨swift, hswift⟩ : ∃ fs, Target.swift.emit signingModel prototypeOptions .standard = .ok fs :=
    exists_eq_ok (by decide +kernel)
  obtain ⟨s, hs, rfl⟩ := emit_swift hswift
  have hheader : s.header = [⟨"Bindings\nint32_t ffi_evil(void);", true⟩] :=
    (Except.ok.inj hs.header).symm
  have hpath : "swift/" ++ s.options.libraryName ++ ".h" = "swift/zkgroup.h" := by
    rw [hs.options]
    decide
  have hfile := (hpath ▸ emitted_headerFile : Emitted (collect (swiftFiles s signingModel)) s
    "swift/zkgroup.h" (headerLines s signingModel)).file
  refine ⟨valid_standard.withHeader _, ofDescription_signing, s, _, _, hs, hswift, hfile.1, hfile.2,
    ?_, by decide +kernel⟩
  refine Reader.mem_readIn_of_banner (t := "// Bindings\nint32_t ffi_evil(void);") (by decide) ?_
    (by decide +kernel) _ _
  rw [hheader]
  decide +kernel

end Bindery
