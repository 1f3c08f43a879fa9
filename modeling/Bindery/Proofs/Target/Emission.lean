/-
  WHAT A TARGET EMITS: files that stand under their paths, and the lines they are made of.

  A file is its lines under the header (`Emitted`), and of the files that a target collects the last
  one with a path stands.  So to say that a file is emitted is to say what comes behind it, which is
  done here for the files of the boundary: those of the exported layer, the glue and the C header, and
  the Swift wrappers.  What all files of a target depend on besides the API is one setting
  (`Setting.For`), the same for all three.
-/
import Bindery.Layer.Glue
import Bindery.Proofs.Boundary.Declarations
import Bindery.Proofs.Model.Acceptance
import Bindery.Proofs.Options.Valid
import Bindery.Proofs.Source.Collect
import Bindery.Target

namespace Bindery

open Source Target

/-! ## Files of a target -/

/-- `Emitted fs s path body` — one file has the path, and these lines are what it holds under the
header. -/
def Emitted (fs : List Source.File) (s : Setting) (path : String) (body : List Line) : Prop :=
  ∀ f, f ∈ fs ∧ f.path = path ↔ f = s.file path body

theorem Emitted.file {fs : List Source.File} {s : Setting} {path : String} {body : List Line}
    (h : Emitted fs s path body) : s.file path body ∈ fs ∧ (s.file path body).path = path :=
  (h _).2 rfl

theorem emitted_of_last {s : Setting} {path : String} {body : List Line}
    {as bs : List Source.File} (h : ∀ b ∈ bs, b.path ≠ path) :
    Emitted (collect (as ++ s.file path body :: bs)) s path body := by
  have hmem : s.file path body ∈ collect (as ++ s.file path body :: bs) :=
    mem_collect_of_last h
  intro f
  constructor
  · rintro ⟨hf, hpath⟩
    exact eq_of_mem_collect hf hmem hpath
  · rintro rfl
    exact ⟨hmem, rfl⟩

/-- An item of a list, and behind it only items with other keys. -/
theorem exists_split {α β : Type} {l : List α} {key : α → β} (hn : (l.map key).Nodup) {a : α}
    (ha : a ∈ l) : ∃ front back, l = front ++ a :: back ∧ ∀ b ∈ back, key b ≠ key a := by
  obtain ⟨front, back, rfl⟩ := List.append_of_mem ha
  refine ⟨front, back, rfl, fun b hb e => ?_⟩
  rw [List.map_append, List.map_cons] at hn
  have hnd := (List.nodup_append.1 hn).2.1
  exact (List.nodup_cons.1 hnd).1 (e ▸ List.mem_map.2 ⟨b, hb, rfl⟩)

/-! ## Paths that differ -/

theorem ne_of_head?_ne {a b : String} (h : a.toList.head? ≠ b.toList.head?) : a ≠ b :=
  fun e => h (congrArg (·.toList.head?) e)

theorem ne_of_getLast?_ne {a b : String} (h : a.toList.getLast? ≠ b.toList.getLast?) : a ≠ b :=
  fun e => h (congrArg (·.toList.getLast?) e)

theorem getLast?_toList_append (a : String) {b : String} {c : Char}
    (h : b.toList.getLast? = some c) : (a ++ b).toList.getLast? = some c := by
  rw [String.toList_append, List.getLast?_append, h]
  rfl

theorem append_left_cancel {a b c : String} (h : a ++ b = a ++ c) : b = c := by
  have hl := congrArg String.toList h
  rw [String.toList_append, String.toList_append] at hl
  exact String.toList_inj.1 (List.append_cancel_left hl)

theorem append_right_cancel {a b c : String} (h : a ++ c = b ++ c) : a = b := by
  have hl := congrArg String.toList h
  rw [String.toList_append, String.toList_append] at hl
  exact String.toList_inj.1 (List.append_cancel_right hl)

theorem toUpper_injective {c d : Char} (hc : c.isLower = true) (hd : d.isLower = true)
    (h : c.toUpper = d.toUpper) : c = d := by
  have hcl : c.toLower = c := Char.toLower_eq_of_not_isUpper (Char.not_isUpper_of_isLower hc)
  have hdl : d.toLower = d := Char.toLower_eq_of_not_isUpper (Char.not_isUpper_of_isLower hd)
  rw [← hcl, ← hdl, ← Char.toLower_toUpper_eq_toLower c, ← Char.toLower_toUpper_eq_toLower d, h]

/-- Modules with different names have different classes. -/
theorem moduleClass_injective {a b : String} (ha : Naming.isModuleName a = true)
    (hb : Naming.isModuleName b = true) (h : Naming.moduleClass a = Naming.moduleClass b) :
    a = b := by
  have hsplit : ∀ {n : String}, Naming.isModuleName n = true → ∃ c s, n.toList = c :: s ∧
      c.isLower = true ∧ (Naming.moduleClass n).toList = c.toUpper :: s := by
    intro n hn
    have hplain := plain_of_isModuleName hn
    cases hl : n.toList with
    | nil =>
      unfold Naming.isModuleName Naming.spelled at hn
      rw [hl] at hn
      nomatch hn
    | cons c s =>
      unfold Naming.isModuleName Naming.spelled at hn
      rw [hl, Naming.spelledChars, Bool.and_eq_true] at hn
      rw [hl] at hplain
      have hascii := Naming.toNat_lt_of_isAlphanum (hplain c List.mem_cons_self)
      exact ⟨c, s, rfl, hn.1, capitalize_toList hl hascii⟩
  obtain ⟨c, s, hac, hc, hca⟩ := hsplit ha
  obtain ⟨d, t, hbd, hd, hdb⟩ := hsplit hb
  rw [h, hdb] at hca
  obtain ⟨hhead, rfl⟩ := List.cons.inj hca
  apply String.toList_inj.1
  rw [hac, hbd, toUpper_injective hd hc hhead]

/-! ## The files of the boundary -/

section

variable {s : Setting} {m : Model}

theorem exportPath (module : String) :
    exportDir ++ "/" ++ exportFile module = "ffiapi/ffiapi_" ++ module ++ ".rs" := by
  apply String.toList_inj.1
  unfold exportFile
  simp only [String.toList_append, List.append_assoc]
  rfl

theorem emitted_exportModule (hn : m.moduleNames.Nodup) (refused : String) {module : Module}
    (h : module ∈ m.modules) :
    Emitted (collect (coreFiles s m refused)) s (exportDir ++ "/" ++ exportFile module.name)
      (exportLines s module) := by
  obtain ⟨front, back, hsplit, hback⟩ := exists_split hn h
  have hfiles : coreFiles s m refused = (exportRoot s m :: front.map (exportModule s)) ++
      s.file (exportDir ++ "/" ++ exportFile module.name) (exportLines s module) ::
        (back.map (exportModule s) ++ [safeLayer s m refused]) := by
    unfold coreFiles
    rw [hsplit, List.map_append, List.map_cons]
    simp only [List.cons_append, List.append_assoc]
    rfl
  rw [hfiles]
  refine emitted_of_last (List.forall_mem_append.2 ⟨?_, ?_⟩)
  · refine List.forall_mem_map.2 fun b hb e => hback b hb ?_
    have hfile : "ffiapi_" ++ b.name ++ ".rs" = "ffiapi_" ++ module.name ++ ".rs" :=
      append_left_cancel e
    exact append_left_cancel (append_right_cancel hfile)
  · refine List.forall_mem_singleton.2 (ne_of_head?_ne ?_)
    rw [String.toList_append, String.toList_append, List.append_assoc]
    show ("simpleapi/simpleapi.rs" : String).toList.head? ≠ some 'f'
    decide

/-- The value class of a type is a Java file of its home. -/
theorem exists_javaValueFile {home : String} {t : TypeDef} {f : Source.File}
    (h : javaValueFile? s home t = some f) :
    ∃ body, f = javaFile s (javaTypePath home t.name) (s.package home) body := by
  unfold javaValueFile? at h
  cases hshape : t.shape with
  | buffer size =>
    rw [hshape] at h
    cases h
    exact ⟨_, rfl⟩
  | enum variants =>
    rw [hshape] at h
    cases h
    exact ⟨_, rfl⟩
  | scalar w =>
    rw [hshape] at h
    nomatch h

/-- The value type of a type is a Swift file. -/
theorem exists_swiftValueFile {t : TypeDef} {f : Source.File} (h : swiftValueFile? s t = some f) :
    ∃ body, f = s.file (swiftDir ++ "/" ++ t.name ++ ".swift") body := by
  unfold swiftValueFile? at h
  cases hshape : t.shape with
  | buffer size =>
    rw [hshape] at h
    cases h
    exact ⟨_, rfl⟩
  | enum variants =>
    rw [hshape] at h
    cases h
    exact ⟨_, rfl⟩
  | scalar w =>
    rw [hshape] at h
    nomatch h

/-- Every Java file stands in the directory of the Java side. -/
theorem java_path {path : String} {f : Source.File} (h : f.path = javaDir ++ "/" ++ path) :
    f.path ≠ glueDir ++ "/ffiapijava.rs" := by
  refine ne_of_head?_ne ?_
  rw [h, String.toList_append, String.toList_append, List.append_assoc]
  show some 'j' ≠ some 'f'
  decide

theorem emitted_glueFile (library : FileText) :
    Emitted (collect (jvmFiles s m library)) s (glueDir ++ "/ffiapijava.rs") (glueLines s m) := by
  have hvalues : ∀ f ∈ valueFiles m (javaValueFile? s), ∃ path, f.path = javaDir ++ "/" ++ path := by
    intro f hf
    obtain ⟨home, _, hf⟩ := List.mem_flatMap.1 hf
    obtain ⟨t, _, ht⟩ := List.mem_filterMap.1 hf
    obtain ⟨_, rfl⟩ := exists_javaValueFile ht
    exact ⟨_, String.append_assoc ..⟩
  have hjava : ∀ f ∈ baseExceptionFile s ::
      s.codes.table.derivedExceptions.map (exceptionFile s) ++
      [nativeFile s m library, byteArrayFile s] ++ valueFiles m (javaValueFile? s) ++
      m.modules.map (javaModuleFile s m), ∃ path, f.path = javaDir ++ "/" ++ path := by
    refine List.forall_mem_append.2 ⟨List.forall_mem_append.2 ⟨List.forall_mem_append.2
      ⟨List.forall_mem_cons.2 ⟨⟨_, String.append_assoc ..⟩, ?_⟩, ?_⟩, hvalues⟩, ?_⟩
    · exact List.forall_mem_map.2 fun name _ => ⟨_, String.append_assoc ..⟩
    · refine List.forall_mem_cons.2 ⟨⟨_, String.append_assoc ..⟩, ?_⟩
      exact List.forall_mem_singleton.2 ⟨_, String.append_assoc ..⟩
    · exact List.forall_mem_map.2 fun module _ => ⟨_, String.append_assoc ..⟩
  have hfiles : jvmFiles s m library = [] ++ s.file (glueDir ++ "/ffiapijava.rs") (glueLines s m) ::
      (baseExceptionFile s :: s.codes.table.derivedExceptions.map (exceptionFile s) ++
      [nativeFile s m library, byteArrayFile s] ++ valueFiles m (javaValueFile? s) ++
      m.modules.map (javaModuleFile s m)) := rfl
  rw [hfiles]
  refine emitted_of_last fun f hf => ?_
  obtain ⟨path, hpath⟩ := hjava f hf
  exact java_path hpath

theorem swift_path {name : String} {f : Source.File}
    (h : f.path = swiftDir ++ "/" ++ name ++ ".swift") :
    f.path ≠ swiftDir ++ "/" ++ s.options.libraryName ++ ".h" := by
  refine ne_of_getLast?_ne ?_
  rw [h, getLast?_toList_append _ (by decide : ".swift".toList.getLast? = some 't'),
    getLast?_toList_append _ (by decide : ".h".toList.getLast? = some 'h')]
  exact fun e => absurd (Option.some.inj e) (by decide)

theorem emitted_headerFile :
    Emitted (collect (swiftFiles s m)) s (swiftDir ++ "/" ++ s.options.libraryName ++ ".h")
      (headerLines s m) := by
  have hswift : ∀ f ∈ [swiftErrorFile s, swiftByteArrayFile s] ++
      valueFiles m (fun _ => swiftValueFile? s) ++ m.modules.map (swiftModuleFile s),
      ∃ name, f.path = swiftDir ++ "/" ++ name ++ ".swift" := by
    refine List.forall_mem_append.2 ⟨List.forall_mem_append.2 ⟨?_, ?_⟩, ?_⟩
    · exact List.forall_mem_cons.2 ⟨⟨_, rfl⟩, List.forall_mem_singleton.2 ⟨_, rfl⟩⟩
    · intro f hf
      obtain ⟨home, _, hf⟩ := List.mem_flatMap.1 hf
      obtain ⟨t, _, ht⟩ := List.mem_filterMap.1 hf
      obtain ⟨_, rfl⟩ := exists_swiftValueFile ht
      exact ⟨_, rfl⟩
    · exact List.forall_mem_map.2 fun module _ => ⟨_, rfl⟩
  have hfiles : swiftFiles s m = [] ++
      s.file (swiftDir ++ "/" ++ s.options.libraryName ++ ".h") (headerLines s m) ::
        ([swiftErrorFile s, swiftByteArrayFile s] ++ valueFiles m (fun _ => swiftValueFile? s) ++
          m.modules.map (swiftModuleFile s)) := rfl
  rw [hfiles]
  refine emitted_of_last fun f hf => ?_
  obtain ⟨name, hname⟩ := hswift f hf
  exact swift_path hname

theorem emitted_swiftModuleFile (hspelled : ∀ name ∈ m.moduleNames, ModuleSpelled name)
    (hn : m.moduleNames.Nodup) {module : Module} (h : module ∈ m.modules) :
    Emitted (collect (swiftFiles s m)) s
      (swiftDir ++ "/" ++ Naming.moduleClass module.name ++ ".swift")
      (swiftModuleLines s module) := by
  obtain ⟨front, back, hsplit, hback⟩ := exists_split hn h
  have hfiles : swiftFiles s m = ([headerFile s m swiftDir, swiftErrorFile s, swiftByteArrayFile s] ++
      valueFiles m (fun _ => swiftValueFile? s) ++ front.map (swiftModuleFile s)) ++
      s.file (swiftDir ++ "/" ++ Naming.moduleClass module.name ++ ".swift")
        (swiftModuleLines s module) :: back.map (swiftModuleFile s) := by
    unfold swiftFiles
    rw [hsplit, List.map_append, List.map_cons, List.append_assoc _ (front.map _)]
    rfl
  have hname : ∀ {b : Module}, b ∈ m.modules → Naming.isModuleName b.name = true :=
    fun hb => (hspelled _ (List.mem_map.2 ⟨_, hb, rfl⟩)).1
  rw [hfiles]
  refine emitted_of_last (List.forall_mem_map.2 fun b hb e => hback b hb ?_)
  have hclass : Naming.moduleClass b.name = Naming.moduleClass module.name :=
    append_left_cancel (append_right_cancel e)
  refine moduleClass_injective (hname ?_) (hname h) hclass
  rw [hsplit]
  exact List.mem_append_right _ (List.mem_cons_of_mem _ hb)

end

/-! ## What a target depends on -/

theorem Codes.table_of_internalFirst {t : ErrorTable} {c : Codes} (h : internalFirst t = .ok c) :
    c.table = t := by
  unfold internalFirst at h
  obtain ⟨internal, _, h⟩ := bind_eq_ok.1 h
  obtain ⟨refused, _, h⟩ := bind_eq_ok.1 h
  cases h
  rfl

/-- The order in which the entries are looked for is no part of what is found. -/
theorem Codes.internalFirst_of_invalidFirst {t : ErrorTable} {c : Codes}
    (h : invalidFirst t = .ok c) : internalFirst t = .ok c := by
  unfold invalidFirst at h
  obtain ⟨refused, hrefused, h⟩ := bind_eq_ok.1 h
  obtain ⟨internal, hinternal, h⟩ := bind_eq_ok.1 h
  cases h
  unfold internalFirst
  rw [hrefused, hinternal]
  rfl

section

variable {m : Model} {o : Options} {t : ErrorTable} {fs : List Source.File}

/-- `Setting.For s o t` — what the files depend on comes from these options and this table. -/
structure Setting.For (s : Setting) (o : Options) (t : ErrorTable) : Prop where
  options : s.options = o
  header : o.header.texts = .ok s.header
  codes : Codes.internalFirst t = .ok s.codes

theorem Setting.For.unique {s s' : Setting} (h : s.For o t) (h' : s'.For o t) : s = s' := by
  obtain ⟨options, header, codes⟩ := s
  obtain ⟨options', header', codes'⟩ := s'
  obtain rfl : options = options' := h.options.trans h'.options.symm
  obtain rfl : header = header' := Except.ok.inj (h.header.symm.trans h'.header)
  obtain rfl : codes = codes' := Except.ok.inj (h.codes.symm.trans h'.codes)
  rfl

/-- What a refused argument is called is the first name that the library has for it. -/
theorem emit_core_refused (h : Target.core.emit m o t = .ok fs) :
    ∃ s : Setting, s.For o t ∧ ∃ refused, s.codes.invalidInput.libraryVariants.head? = some refused ∧
      fs = collect (coreFiles s m refused) := by
  unfold Target.emit at h
  obtain ⟨header, hheader, h⟩ := bind_eq_ok.1 h
  obtain ⟨codes, hcodes, h⟩ := bind_eq_ok.1 h
  cases hv : codes.invalidInput.libraryVariants with
  | nil =>
    rw [hv] at h
    nomatch h
  | cons refused rest =>
    rw [hv] at h
    obtain ⟨_, _, h⟩ := bind_eq_ok.1 h
    cases h
    exact ⟨⟨o, header, codes⟩, ⟨rfl, hheader, hcodes⟩, refused, congrArg List.head? hv, rfl⟩

theorem emit_core (h : Target.core.emit m o t = .ok fs) :
    ∃ s : Setting, s.For o t ∧ ∃ refused, fs = collect (coreFiles s m refused) := by
  obtain ⟨s, hs, refused, _, hfiles⟩ := emit_core_refused h
  exact ⟨s, hs, refused, hfiles⟩

/-- The library that is loaded is the one of the options. -/
theorem emit_jvm_library (h : Target.jvm.emit m o t = .ok fs) :
    ∃ s : Setting, s.For o t ∧ ∃ library, FileText.ofValue o.jniLibraryName = .ok library ∧
      fs = collect (jvmFiles s m library) := by
  unfold Target.emit at h
  obtain ⟨header, hheader, h⟩ := bind_eq_ok.1 h
  obtain ⟨codes, hcodes, h⟩ := bind_eq_ok.1 h
  obtain ⟨library, hlibrary, h⟩ := bind_eq_ok.1 h
  obtain ⟨_, _, h⟩ := bind_eq_ok.1 h
  cases h
  exact ⟨⟨o, header, codes⟩, ⟨rfl, hheader, Codes.internalFirst_of_invalidFirst hcodes⟩, library,
    hlibrary, rfl⟩

theorem emit_jvm (h : Target.jvm.emit m o t = .ok fs) :
    ∃ s : Setting, s.For o t ∧ ∃ library, fs = collect (jvmFiles s m library) := by
  obtain ⟨s, hs, library, _, hfiles⟩ := emit_jvm_library h
  exact ⟨s, hs, library, hfiles⟩

theorem emit_swift (h : Target.swift.emit m o t = .ok fs) :
    ∃ s : Setting, s.For o t ∧ fs = collect (swiftFiles s m) := by
  unfold Target.emit at h
  obtain ⟨header, hheader, h⟩ := bind_eq_ok.1 h
  obtain ⟨_, _, h⟩ := bind_eq_ok.1 h
  obtain ⟨codes, hcodes, h⟩ := bind_eq_ok.1 h
  cases h
  exact ⟨⟨o, header, codes⟩, ⟨rfl, hheader, hcodes⟩, rfl⟩

/-- What is generated for the three targets comes from one setting. -/
theorem emit_targets {core jvm swift : List File} (hcore : Target.core.emit m o t = .ok core)
    (hjvm : Target.jvm.emit m o t = .ok jvm) (hswift : Target.swift.emit m o t = .ok swift) :
    ∃ s : Setting, s.For o t ∧ ∃ refused library,
      s.codes.invalidInput.libraryVariants.head? = some refused ∧
      core = collect (coreFiles s m refused) ∧ jvm = collect (jvmFiles s m library) ∧
      swift = collect (swiftFiles s m) := by
  obtain ⟨s, hs, refused, hrefused, rfl⟩ := emit_core_refused hcore
  obtain ⟨s', hs', library, rfl⟩ := emit_jvm hjvm
  obtain rfl := hs.unique hs'
  obtain ⟨s', hs', rfl⟩ := emit_swift hswift
  obtain rfl := hs.unique hs'
  exact ⟨s, hs, refused, library, hrefused, rfl, rfl, rfl⟩

end

/-! ## Pieces of what is emitted -/

theorem infix_flatMap {α β : Type} {l : List α} (f : α → List β) {a : α} (h : a ∈ l) :
    f a <:+: l.flatMap f := by
  obtain ⟨front, back, rfl⟩ := List.append_of_mem h
  rw [List.flatMap_append, List.flatMap_cons]
  exact ⟨front.flatMap f, back.flatMap f, by rw [List.append_assoc]⟩

theorem indent_infix_block {ls body : List Line} (h : ls <:+: body) (head : String) :
    indent ls <:+: block head body :=
  (List.IsInfix.map _ h).trans ⟨[_], [_], rfl⟩

theorem line_prototype_mem {s : Setting} {m : Model} {module : Module} (h : module ∈ m.modules)
    {f : Function} (hf : f ∈ module.functions) : line f.prototype.text ∈ headerLines s m := by
  have hmem : line f.prototype.text ∈ m.modules.flatMap fun module =>
      line ("/* " ++ module.name ++ " */") ::
        module.functions.map (fun f => line f.prototype.text) ++ [gap] := by
    refine List.mem_flatMap.2 ⟨module, h, List.mem_append_left _ (List.mem_cons_of_mem _ ?_)⟩
    exact List.mem_map.2 ⟨f, hf, rfl⟩
  unfold headerLines
  exact List.mem_append_left _ (List.mem_append_right _ hmem)

theorem swift_infix {s : Setting} {module : Module} {f : Function} (hf : f ∈ module.functions) :
    indent (f.swift.lines s) <:+: swiftModuleLines s module := by
  have hbody : f.swift.lines s <:+: gap :: module.functions.flatMap fun f => f.swift.lines s :=
    (infix_flatMap (fun f : Function => f.swift.lines s) hf).trans
      (List.suffix_cons _ _).isInfix
  exact indent_infix_block hbody _

end Bindery
