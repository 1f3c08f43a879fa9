/-
  LENGTHS AGREE: one length for a slot, in all layers.

  The safe layer defines the length of every buffer and the number of variants of every enumeration,
  the header the same lengths under the same names, and the value classes their sizes.  What a layer
  goes by at a slot is one of these or a number, and comes to the number of bytes of the type of the
  slot: what the exported layer and the safe layer check, what the wrappers make room for and what
  they pass.

  A header line with a line feed can define a length once more, and so can a code called `LEN`.
-/
import Bindery.Proofs.Boundary.PassedLengths
import Bindery.Proofs.Codes.Agreement

namespace Bindery

open Naming Source Target

/-! ## What is as long as it should be -/

/-- The base class of the Java values takes no contents of another length than it is given. -/
def javaLengthCheck (s : Setting) : List Line :=
  let refused := s.codes.invalidInput.exceptionName
  block ("protected ByteArray(byte[] contents, int expectedLength) throws " ++ refused)
    (block "if (contents == null || contents.length != expectedLength)"
      (line ("throw new " ++ refused ++ "(" ++ codeConstant s.refused ++ ",") ::
        indent (Source.lines ["\"expected \" + expectedLength + \" bytes, got \"",
          "+ (contents == null ? \"null\" : Integer.toString(contents.length)));"])) ++
      Source.lines ["this.contents = contents.clone();"])

/-- The Swift values take no contents of another length than the size of their type. -/
def swiftLengthCheck (s : Setting) : List Line :=
  block "static func checkLength(_ contents: [UInt8]) throws"
    (block "guard contents.count == SIZE else"
      (Source.lines ["throw " ++ swiftError ++ "." ++ s.codes.invalidInput.caseName]))

/-! ## The files of a model -/

/-- `LengthsAgree s t m core jvm swift` — the files of the three targets define the lengths of the
model, each once, and go by them at every slot. -/
structure LengthsAgree (s : Setting) (t : ErrorTable) (m : Model) (core jvm swift : List File) :
    Prop where
  numbers : ((headerLengths m ++ enumCounts m).map Prod.fst).Nodup
  -- The safe layer writes its own constants, in what it checks and in the arrays that it makes.
  safe : ∃ body, Emitted core s "simpleapi/simpleapi.rs" body ∧
    safeNumbers.readIn (s.file "simpleapi/simpleapi.rs" body).text = headerLengths m ++ enumCounts m ∧
    ∀ f ∈ m.functions, let g := f.safe s.options.apiPath
      g.lines s.options.errorTypeName <:+: body ∧
      (∀ x ∈ g.checked, ⟨1, outputCheck x⟩ ∈ g.lines s.options.errorTypeName ∨
        ⟨1, inputCopy x⟩ ∈ g.lines s.options.errorTypeName) ∧
      resolved (headerLengths m ++ enumCounts m) g.checked =
        ((f.parameters.map (·.argument)).filter (·.isPointed)).map (·.measure) ∧
      (∀ x ∈ g.made, ⟨1, newArray x⟩ ∈ g.lines s.options.errorTypeName ∨
        x.1 = resultSlot ∧ g.returns.rust = arrayType x.2) ∧
      resolved (headerLengths m ++ enumCounts m) g.made =
        (f.arguments.filter (·.isMade)).map (·.measure)
  -- The exported layer borrows them, and checks every slot that is not a plain number.
  exports : ∀ module ∈ m.modules, ∃ body,
    Emitted core s ("ffiapi/ffiapi_" ++ module.name ++ ".rs") body ∧
    (inputChecks.measured m.exportScope body = module.functions.flatMap fun f =>
      (f.arguments.filter (·.passing == .inBuffer)).map (·.measure)) ∧
    (outputChecks.measured m.exportScope body = module.functions.flatMap fun f =>
      (f.arguments.filter (·.isFilled)).map (·.measure)) ∧
    (countChecks.measured m.exportScope body = module.functions.flatMap fun f =>
      (f.arguments.filter (·.isCount)).map (·.count))
  header : ∃ body, Emitted swift s ("swift/" ++ s.options.libraryName ++ ".h") body ∧
    headerNumbers.readIn (s.file ("swift/" ++ s.options.libraryName ++ ".h") body).text =
      t.constants ++ headerLengths m ∧
    ((∀ c ∈ t.codes, c.name ≠ "LEN") → ((t.constants ++ headerLengths m).map Prod.fst).Nodup) ∧
    (t = .standard →
      (headerNames.readIn (s.file ("swift/" ++ s.options.libraryName ++ ".h") body).text).Nodup)
  -- A value has as many bytes as its class says, so a wrapper may pass it without a length.
  javaValues : ∀ type ∈ m.bufferTypes, ∃ body,
    Emitted jvm s (javaTypeFile (m.homeModule type) type.name) body ∧
    javaNumbers.readIn (s.file (javaTypeFile (m.homeModule type) type.name) body).text =
      [("SIZE", (type.byteSize : Int))] ∧
    ⟨2, "super(contents, SIZE);"⟩ ∈ body
  javaBase : ∃ body, Emitted jvm s "java/internal/ByteArray.java" body ∧
    indent (javaLengthCheck s) <:+: body
  javaWrappers : ∀ module ∈ m.modules, ∃ body,
    Emitted jvm s (javaModulePath module.name) body ∧ ∀ f ∈ module.functions,
      let j := (f.javaMethod s).lines s
      indent j <:+: body ∧
      (∃ passed, nativeCalls.readWithin j = [passed] ∧
        passed.map (fun text => (javaLength? j text).bind (lengthIn m.classScope)) =
          f.arguments.map (·.length?)) ∧
      resolved m.classScope (javaRooms.readWithin j) =
        (f.arguments.filter (·.isFilled)).map (·.measure)
  -- The Swift types have no numbers of their own, but those of the header.
  swiftValues : ∀ type ∈ m.bufferTypes, ∃ body,
    Emitted swift s (swiftTypeFile type.name) body ∧
    swiftSizes.readIn (s.file (swiftTypeFile type.name) body).text = [lengthConstant type.name] ∧
    (headerLengths m).lookup (lengthConstant type.name) = some (type.byteSize : Int) ∧
    ⟨2, "try " ++ type.name ++ ".checkLength(contents)"⟩ ∈ body
  swiftBase : ∃ body, Emitted swift s "swift/ByteArray.swift" body ∧
    indent (swiftLengthCheck s) <:+: body
  swiftWrappers : ∀ module ∈ m.modules, ∃ body,
    Emitted swift s ("swift/" ++ moduleClass module.name ++ ".swift") body ∧ ∀ f ∈ module.functions,
      let w := f.swift.lines s
      indent w <:+: body ∧
      (∃ passed, exportCalls.readWithin w = [passed] ∧
        passed.map (fun text => (swiftLength? w text).bind (lengthIn m.classScope)) =
          f.slots.map (·.length?)) ∧
      resolved m.classScope (swiftRooms.readWithin w) =
        (f.arguments.filter (·.isFilled)).map (·.measure)

section

variable {s : Setting} {m : Model}

theorem mem_bufferTypes {t : TypeDef} (ht : t ∈ m.bufferTypes) :
    t ∈ m.types ∧ ∃ size, t.shape = .buffer size := by
  obtain ⟨ht, hbuffer⟩ := List.mem_filter.1 ht
  refine ⟨ht, ?_⟩
  unfold TypeDef.isBuffer at hbuffer
  cases hshape : t.shape with
  | buffer size => exact ⟨size, rfl⟩
  | _ =>
    rw [hshape] at hbuffer
    nomatch hbuffer

theorem bufferClass_mem {t : TypeDef} (ht : t ∈ m.bufferTypes) :
    s.file (javaTypeFile (m.homeModule t) t.name)
        (bufferClassLines s (m.homeModule t) t.name t.byteSize) ∈
      valueFiles m (javaValueFile? s) := by
  obtain ⟨hmem, size, hshape⟩ := mem_bufferTypes ht
  refine mem_valueFiles_home hmem (by rw [TypeDef.isScalar, hshape]; rfl) ?_
  rw [← bufferClass_eq, javaValueFile?, TypeDef.byteSize, hshape]
  rfl

theorem bufferStruct_mem {t : TypeDef} (ht : t ∈ m.bufferTypes) :
    s.file (swiftTypeFile t.name) (bufferStructLines t.name) ∈
      valueFiles m (fun _ => swiftValueFile? s) := by
  obtain ⟨hmem, size, hshape⟩ := mem_bufferTypes ht
  refine mem_valueFiles_home hmem (by rw [TypeDef.isScalar, hshape]; rfl) ?_
  rw [← bufferStruct_eq, swiftValueFile?, hshape]

theorem Model.WellFormed.unbroken_home (hm : m.WellFormed) {t : TypeDef} (ht : t ∈ m.types) :
    Unbroken (m.homeModule t) := by
  rcases home_cases hm ht with hmodule | hinternal
  · exact unbroken_of_wordy (wordy_of_isModuleName (hm.spelled _ hmodule).1)
  · rw [hinternal]
    decide

/-- With the standard table the header defines no name twice, its guard among them. -/
theorem nodup_headerNames (hs : s.Harmless) (hm : m.WellFormed)
    (ht : s.codes.table = .standard) :
    ((upper s.options.libraryName ++ "_H") ::
      (s.codes.table.constants ++ headerLengths m).map Prod.fst).Nodup := by
  have hguard : "_H".toList <:+ (upper s.options.libraryName ++ "_H").toList := by
    rw [String.toList_append]
    exact List.suffix_append _ _
  refine List.nodup_cons.2 ⟨fun hmem => ?_, nodup_headerNumbers hs hm (by rw [ht]; decide)⟩
  rw [List.map_append] at hmem
  rcases List.mem_append.1 hmem with hcode | hlength
  · have hnone : ∀ name ∈ ErrorTable.standard.constants.map Prod.fst,
        ¬"_H".toList <:+ name.toList := by decide
    rw [ht] at hcode
    exact hnone _ hcode hguard
  · -- A length ends in `_LEN`, which does not end like the guard.
    obtain ⟨d, hd, hname⟩ := List.mem_map.1 hlength
    have hlast := suffix_length hd
    rw [hname] at hlast
    exact absurd (List.suffix_of_suffix_length_le hguard hlast (by decide)) (by decide)

/-- A value of a Java class goes to the check of its base class with the size of the class. -/
theorem inheritsCheck (s : Setting) (home name : String) (size : Nat) :
    ⟨2, "super(contents, SIZE);"⟩ ∈ bufferClassLines s home name size := by
  have hmake := mem_block (l := line "super(contents, SIZE);") (List.mem_singleton_self _)
    ("public " ++ name ++ "(byte[] contents) throws " ++ s.codes.invalidInput.exceptionName)
  exact List.mem_cons_of_mem _ (List.mem_cons_of_mem _ (List.mem_append_right _
    (mem_block (List.mem_append_right _ hmake) _)))

/-- A value of a Swift type is checked by the size of the type. -/
theorem checksLength (name : String) :
    ⟨2, "try " ++ name ++ ".checkLength(contents)"⟩ ∈ bufferStructLines name := by
  refine mem_block (l := ⟨1, "try " ++ name ++ ".checkLength(contents)"⟩) ?_ _
  exact List.mem_append_right _ (mem_block (l := line _) List.mem_cons_self _)

theorem exists_javaBytes (s : Setting) : ∃ body,
    byteArrayFile s = s.file "java/internal/ByteArray.java" body ∧
      indent (javaLengthCheck s) <:+: body := by
  have hpath : "java/internal/ByteArray.java" = javaDir ++ "/" ++ "internal/ByteArray" ++ ".java" := by
    decide
  rw [hpath]
  refine ⟨_, rfl, List.IsInfix.trans ?_ ((List.suffix_append _
    (block "public abstract class ByteArray" _)).trans
      ((List.suffix_cons _ _).trans (List.suffix_cons _ _))).isInfix⟩
  refine indent_infix_block ?_ _
  simp only [List.append_assoc]
  exact List.infix_append' _ _ _

theorem exists_swiftBytes (s : Setting) : ∃ body,
    swiftByteArrayFile s = s.file "swift/ByteArray.swift" body ∧
      indent (swiftLengthCheck s) <:+: body := by
  have hpath : "swift/ByteArray.swift" = swiftDir ++ "/" ++ "ByteArray" ++ ".swift" := by decide
  have hmember := indent_infix_block (List.prefix_append (swiftLengthCheck s) (gap ::
    block "public func serialize() -> [UInt8]" (Source.lines ["return contents"]))).isInfix
    "extension ByteArrayValue"
  rw [hpath]
  refine ⟨_, rfl, (hmember.trans (List.suffix_cons gap _).isInfix).trans ?_⟩
  simp only [List.append_assoc]
  exact List.infix_append' _ _ _

theorem emitted_javaBytes (hm : m.WellFormed) (library : FileText) {body : List Line}
    (h : byteArrayFile s = s.file "java/internal/ByteArray.java" body) :
    Emitted (collect (jvmFiles s m library)) s "java/internal/ByteArray.java" body := by
  have hn := nodup_javaClasses hm s.options
  rw [List.map_append, ← map_path_javaClasses] at hn
  have hfiles : jvmFiles s m library = (glueFile s m :: baseExceptionFile s ::
      s.codes.table.derivedExceptions.map (exceptionFile s) ++ [nativeFile s m library]) ++
      (s.file "java/internal/ByteArray.java" body :: javaClasses s m) := by
    rw [← h]
    simp only [jvmFiles, javaClasses, List.cons_append, List.append_assoc, List.nil_append]
  rw [hfiles]
  refine emitted_of_back _ ?_ List.mem_cons_self
  exact (List.nodup_cons.1 (List.nodup_cons.1 hn).2).2

theorem lengthsAgree (hs : s.Harmless) (hm : m.WellFormed) {refused : String}
    (hv : s.codes.invalidInput.libraryVariants.head? = some refused) (library : FileText) :
    LengthsAgree s s.codes.table m (collect (coreFiles s m refused))
      (collect (jvmFiles s m library)) (collect (swiftFiles s m)) := by
  have hfunction : ∀ {module : Module}, module ∈ m.modules → ∀ {f : Function},
      f ∈ module.functions → f ∈ m.functions := fun h _ hf => Model.mem_functions.2 ⟨_, h, hf⟩
  constructor
  case numbers => exact hm.nodup_numbers
  case safe =>
    have hrefused : Unbroken refused :=
      unbroken_of_wordy (hs.usable.wordy_variant hs.refused_mem (List.mem_of_mem_head? hv))
    refine ⟨safeLines s m refused, emitted_core hm hv ?_, ?_, ?_⟩
    · exact List.mem_append_right _ (List.mem_singleton_self _)
    · rw [hs.readIn_file (by decide) (by decide), readLines_safe hs hm hrefused]
    · intro f hf
      have hlines := safe_infix (s := s) hf refused
      exact ⟨hlines, fun x hx => SafeFunction.checked_mem hx _, resolved_checked hm hf _,
        fun x hx => SafeFunction.made_mem hx _, resolved_made hm hf _⟩
  case exports =>
    intro module hmodule
    refine ⟨exportLines s module, ?_, ?_, ?_, ?_⟩
    · rw [← exportPath module.name]
      exact emitted_exportModule hm.distinct refused hmodule
    · exact (measured_exportLines _ _ module).trans
        (List.flatMap_congr fun f hf => measured_inputs hm (hfunction hmodule hf))
    · exact (measured_exportLines _ _ module).trans
        (List.flatMap_congr fun f hf => measured_outputs hm (hfunction hmodule hf))
    · exact (measured_exportLines _ _ module).trans
        (List.flatMap_congr fun f hf => measured_counts hm (hfunction hmodule hf))
  case header =>
    refine ⟨headerLines s m, emitted_headerFile, ?_, nodup_headerNumbers hs hm, fun ht => ?_⟩
    · rw [hs.readIn_file (by decide) (by decide), readLines_headerNumbers hs hm]
    · rw [hs.readIn_file (by decide) (by decide), readLines_headerNames hs hm]
      exact nodup_headerNames hs hm ht
  case javaValues =>
    intro type htype
    have ht := (mem_bufferTypes htype).1
    refine ⟨_, emitted_javaClass hm library (List.mem_append_left _ (bufferClass_mem htype)), ?_, ?_⟩
    · rw [hs.readIn_file (by decide) (by decide)]
      exact readLines_bufferClass hs (hm.unbroken_home ht) (hm.types.each _ ht).named.1 _
    · exact inheritsCheck s (m.homeModule type) type.name type.byteSize
  case javaBase =>
    obtain ⟨body, hfile, hcheck⟩ := exists_javaBytes s
    exact ⟨body, emitted_javaBytes hm library hfile, hcheck⟩
  case javaWrappers =>
    intro module hmodule
    refine ⟨javaModuleLines s m module, emitted_javaModuleFile hm library hmodule, fun f hf => ?_⟩
    have hmem := hfunction hmodule hf
    have hlines := javaMethod_infix (s := s) (m := m) hf
    refine ⟨hlines, ⟨_, nativeCalls_within hm hmem s, javaLengths hm hmem s⟩, ?_⟩
    rw [javaRooms_java hm hmem]
    exact resolved_filled hm hmem
  case swiftValues =>
    intro type htype
    have ht := (mem_bufferTypes htype).1
    have hmem := List.mem_append_right [headerFile s m swiftDir, swiftErrorFile s, swiftByteArrayFile s]
      (bufferStruct_mem (s := s) htype)
    refine ⟨_, emitted_swift hm (List.mem_append_left _ hmem), ?_, ?_, ?_⟩
    · rw [hs.readIn_file (by decide) (by decide), readLines_bufferStruct (hm.types.each _ ht).named.1]
    · exact lookup_of_mem hm.nodup_lengths
        (Model.mem_headerLengths ht (List.mem_filter.1 htype).2)
    · exact checksLength type.name
  case swiftBase =>
    obtain ⟨body, hfile, hcheck⟩ := exists_swiftBytes s
    refine ⟨body, emitted_swift hm (hfile ▸ ?_), hcheck⟩
    exact List.mem_cons_of_mem _ (List.mem_cons_of_mem _ List.mem_cons_self)
  case swiftWrappers =>
    intro module hmodule
    refine ⟨swiftModuleLines s module, ?_, fun f hf => ?_⟩
    · exact emitted_swiftModuleFile hm.spelled hm.distinct hmodule
    · have hmem := hfunction hmodule hf
      have hlines := swift_infix (s := s) hf
      refine ⟨hlines, ⟨_, exportCalls_within hm hmem s, swiftLengths hm hmem s⟩, ?_⟩
      rw [swiftRooms_swift hm hmem]
      exact resolved_filled hm hmem

end

/-- **The lengths agree**, whatever the model and whatever the table: from an accepted description
with sizes that can be written, all three targets are generated with a usable table, and if no line
of the header brings a line feed along, every layer has the lengths of the model and goes by them. -/
theorem lengths_agree {es : List (Value × Value)} {m : Model} {o : Options} {t : ErrorTable}
    (hm : Model.ofDescription es = .ok m) (hsizes : m.Short) (ho : o.Valid) (hshown : o.Shown)
    (hheader : o.HeaderUnbroken) (ht : t.Usable) :
    ∃ (s : Setting) (core jvm swift : List File), s.For o t ∧ Target.core.emit m o t = .ok core ∧
      Target.jvm.emit m o t = .ok jvm ∧ Target.swift.emit m o t = .ok swift ∧
      LengthsAgree s t m core jvm swift := by
  have hw : m.WellFormed := (ofDescription_eq_ok.1 hm).2
  obtain ⟨s, hs, refused, library, hv, hcore, hjvm, hswift⟩ := ht.generates hsizes hshown
  have htable : s.codes.table = t := Codes.table_of_internalFirst hs.codes
  subst htable
  exact ⟨s, _, _, _, hs, hcore, hjvm, hswift, lengthsAgree (hs.harmless ho hheader ht) hw hv library⟩

theorem lengths_agree_vault :
    Model.ofDescription (vaultEntries 32) = .ok (vaultModel 32) ∧
      ∃ s core jvm swift, LengthsAgree s .standard (vaultModel 32) core jvm swift := by
  obtain ⟨s, core, jvm, swift, _, _, _, _, h⟩ := lengths_agree ofDescription_vault short_vault
    valid_standard shown_standard headerUnbroken_standard ErrorTable.usable_standard
  exact ⟨ofDescription_vault, s, core, jvm, swift, h⟩

/-! ## Lengths that come twice -/

/-- Options with the length of a buffer behind a line feed in the header. -/
def lengthOptions : Options :=
  { Options.standard with header := .lines [.str "Bindings\npub const KEY_LEN: usize = 7;"] }

theorem valid_lengthOptions : lengthOptions.Valid := valid_standard.withHeader _

theorem shown_lengthOptions : lengthOptions.Shown :=
  ⟨List.forall_mem_singleton.2 (by decide), by decide⟩

theorem length_mem_safeLines {s : Setting} {m : Model} {refused : String} {t : TypeDef}
    (ht : t ∈ m.bufferTypes) : line ("pub const " ++ t.lengthConstant ++ ": usize = " ++
      Decimal.integer t.byteSize ++ ";") ∈ safeLines s m refused := by
  have hconstant : line ("pub const " ++ t.lengthConstant ++ ": usize = " ++
      Decimal.integer t.byteSize ++ ";") ∈ (safeConstants m).map (fun c =>
      line ("pub const " ++ c.1 ++ ": usize = " ++ Decimal.integer c.2 ++ ";")) :=
    List.mem_map.2 ⟨_, List.mem_append_left _ (List.mem_map.2 ⟨t, ht, rfl⟩), rfl⟩
  unfold safeLines
  simp only [List.mem_append]
  exact .inl (.inl (.inl (.inr hconstant)))

theorem length_twice : ∃ s core, s.For lengthOptions .standard ∧
    Target.core.emit (vaultModel 32) lengthOptions .standard = .ok core ∧
      DefinedTwice safeNumbers core s "simpleapi/simpleapi.rs" "KEY_LEN" := by
  have hm : (vaultModel 32).WellFormed := (ofDescription_eq_ok.1 ofDescription_vault).2
  obtain ⟨s, hs, refused, _, hv, hcore, _⟩ :=
    ErrorTable.usable_standard.generates short_vault shown_lengthOptions
  have hheader : s.header = [⟨"Bindings\npub const KEY_LEN: usize = 7;", true⟩] :=
    (Except.ok.inj hs.header).symm
  refine ⟨s, _, hs, hcore, safeLines s (vaultModel 32) refused, 32, 7,
    emitted_core hm hv (List.mem_append_right _ (List.mem_singleton_self _)), by decide, ?_, ?_⟩
  · have hkey : line ("pub const " ++ TypeDef.lengthConstant ⟨"Key", .buffer 32, none⟩ ++
        ": usize = " ++ Decimal.integer (32 : Nat) ++ ";") ∈ safeLines s (vaultModel 32) refused :=
      length_mem_safeLines (by decide)
    exact Reader.mem_readIn_of_body (by decide) hkey (by decide +kernel)
  · refine Reader.mem_readIn_of_banner (t := "// Bindings\npub const KEY_LEN: usize = 7;")
      (by decide) ?_ (by decide +kernel) _ _
    rw [hheader]
    decide +kernel

/-- Without these conditions the lengths need not agree: a header with a line feed makes the safe
layer define a length with two numbers, as the header does with a code called `LEN`; and a size of
too many digits leaves no file to define any. -/
theorem lengths_disagree :
    (lengthOptions.Valid ∧ Model.ofDescription (vaultEntries 32) = .ok (vaultModel 32) ∧
      ∃ s core, s.For lengthOptions .standard ∧
        Target.core.emit (vaultModel 32) lengthOptions .standard = .ok core ∧
        DefinedTwice safeNumbers core s "simpleapi/simpleapi.rs" "KEY_LEN") ∧
    (lengthTable.Usable ∧ Model.ofDescription returnEntries = .ok returnModel ∧
      ∃ s swift, s.For .standard lengthTable ∧
        Target.swift.emit returnModel .standard lengthTable = .ok swift ∧
        DefinedTwice headerNumbers swift s "swift/zkgroup.h" "FFI_RETURN_LEN") ∧
    Model.ofDescription (vaultEntries (10 ^ 4300)) = .ok (vaultModel (10 ^ 4300)) ∧
      ∀ (t : Target) files, t.emit (vaultModel (10 ^ 4300)) .standard .standard ≠ .ok files := by
  have hlength : lengthTable.Usable := usable_sampleTable _ (by decide) (by decide)
  have hlong : Model.ofDescription (vaultEntries (10 ^ 4300)) = .ok (vaultModel (10 ^ 4300)) := by
    decide +kernel
  exact ⟨⟨valid_lengthOptions, ofDescription_vault, length_twice⟩,
    ⟨hlength, ofDescription_return, twice_of_length⟩, hlong,
    fun _ => Target.not_emit_of_long (by decide +kernel)⟩

end Bindery
