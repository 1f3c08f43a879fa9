/-
  CODES AGREE: an error means the same in every binding.

  Put together, for any usable table: the four files define the table and nothing else, the match
  sends every variant to the constant of its code, and the switch, run with the constants that are
  read off its own file, sends every number to its exception.

  Whether a file defines what it was meant to define is a matter of its line feeds.  The
  counterexamples behind the theorem are texts that bring one along, and the one name that is not
  told from a length.
-/
import Bindery.Proofs.Target.Standing

namespace Bindery

open Source Target

/-- `CodesAgree s t m core jvm swift` — the files of the three targets define what is in the table,
and go from errors to numbers and from numbers to exceptions as the table has it. -/
structure CodesAgree (s : Setting) (t : ErrorTable) (m : Model) (core jvm swift : List File) :
    Prop where
  rust : ∃ body ls, Emitted core s "ffiapi/ffiapi.rs" body ∧
    rustCodes.readIn (s.file "ffiapi/ffiapi.rs" body).text = t.constants ∧
    block ("pub(crate) fn ffi_return_code(err: " ++ s.options.errorTypeName ++ ") -> i32")
      (block "match err" ls) <:+: body ∧
    MatchAgrees t s.options.errorTypeName ls
  java : ∃ body ls, Emitted jvm s "java/ZkGroupException.java" body ∧
    javaNumbers.readIn (s.file "java/ZkGroupException.java" body).text = t.constants ∧
    indent (block "public static void checkResult(int code) throws ZkGroupException"
      (block "switch (code)" ls)) <:+: body ∧
    SwitchAgrees t (javaNumbers.readIn (s.file "java/ZkGroupException.java" body).text) ls
  header : ∃ body, Emitted swift s ("swift/" ++ s.options.libraryName ++ ".h") body ∧
    headerNumbers.readIn (s.file ("swift/" ++ s.options.libraryName ++ ".h") body).text =
      t.constants ++ headerLengths m ∧
    headerNames.readIn (s.file ("swift/" ++ s.options.libraryName ++ ".h") body).text =
      (Naming.upper s.options.libraryName ++ "_H") ::
        (t.constants ++ headerLengths m).map Prod.fst ∧
    ((t.constants ++ headerLengths m).map Prod.fst).Nodup
  cases : ∃ body, Emitted swift s "swift/ZkGroupError.swift" body ∧
    swiftCaseNumbers.readIn (s.file "swift/ZkGroupError.swift" body).text =
      t.failures.map (fun c => (c.caseName, c.value)) ∧
    (t.failures.map (·.caseName)).Nodup ∧ (t.failures.map (·.value)).Nodup
  constants : (t.constants.map Prod.fst).Nodup

section

variable {s : Setting} {m : Model}

theorem ErrorTable.nodup_values (t : ErrorTable) : (t.failures.map (·.value)).Nodup := by
  refine List.pairwise_map.2 ((t.ascending.sublist List.filter_sublist).imp fun hlt heq => ?_)
  omega

theorem checkResult_infix (s : Setting) :
    indent (block "public static void checkResult(int code) throws ZkGroupException"
      (block "switch (code)" (switchLines s))) <:+: baseExceptionLines s := by
  have hmembers : checkResultMethod s <:+ baseExceptionMembers s := by
    unfold baseExceptionMembers
    exact (List.suffix_cons _ _).trans ((List.suffix_append _ _).trans
      ((List.suffix_append _ _).trans ((List.suffix_append _ _).trans (List.suffix_append _ _))))
  have hbody : checkResultMethod s <:+: gap :: (baseExceptionConstants s ++ baseExceptionMembers s) :=
    (hmembers.trans ((List.suffix_append _ _).trans (List.suffix_cons _ _))).isInfix
  have hblock := indent_infix_block hbody ("public class " ++ baseException ++ " extends Exception")
  unfold baseExceptionLines
  exact hblock.trans ((List.suffix_cons _ _).trans (List.suffix_append [_, _] _)).isInfix

theorem returnCode_infix (s : Setting) (m : Model) :
    block ("pub(crate) fn ffi_return_code(err: " ++ s.options.errorTypeName ++ ") -> i32")
      (block "match err" (matchLines s)) <:+: exportRootLines s m := by
  rw [← returnCodeHelper_eq]
  unfold exportRootLines
  have hfront := fun front : List Line =>
    (List.suffix_cons gap (returnCodeHelper s)).trans (List.suffix_append front _)
  exact (hfront _).isInfix.trans ((List.prefix_append _ _).trans ((List.prefix_append _ _).trans
    ((List.prefix_append _ _).trans (List.prefix_append _ _)))).isInfix

theorem codesAgree (hs : s.Harmless) (hm : m.WellFormed)
    (hd : ∀ c ∈ s.codes.table.codes, Unbroken c.description)
    (hlen : ∀ c ∈ s.codes.table.codes, c.name ≠ "LEN") {refused : String}
    (hv : s.codes.invalidInput.libraryVariants.head? = some refused) (library : FileText) :
    CodesAgree s s.codes.table m (collect (coreFiles s m refused))
      (collect (jvmFiles s m library)) (collect (swiftFiles s m)) := by
  have hrust := hs.readIn_file (r := rustCodes) (by decide) (by decide)
  have hjava := hs.readIn_file (r := javaNumbers) (by decide) (by decide)
  have hnumbers := hs.readIn_file (r := headerNumbers) (by decide) (by decide)
  have hnames := hs.readIn_file (r := headerNames) (by decide) (by decide)
  have hswift := hs.readIn_file (r := swiftCaseNumbers) (by decide) (by decide)
  constructor
  case rust =>
    refine ⟨exportRootLines s m, matchLines s, emitted_core hm hv ?_, ?_, returnCode_infix s m,
      matchAgrees hs⟩
    · exact List.mem_cons_self
    · rw [hrust, readLines_exportRoot hs hm hd]
  case java =>
    have hscope : javaNumbers.readIn (s.file "java/ZkGroupException.java"
        (baseExceptionLines s)).text = s.codes.table.constants := by
      rw [hjava, readLines_baseException hs]
    refine ⟨baseExceptionLines s, switchLines s, emitted_baseException hm library, hscope,
      checkResult_infix s, ?_⟩
    rw [hscope]
    exact switchAgrees hs
  case header =>
    refine ⟨headerLines s m, emitted_headerFile, ?_, ?_, nodup_headerNumbers hs hm hlen⟩
    · rw [hnumbers, readLines_headerNumbers hs hm]
    · rw [hnames, readLines_headerNames hs hm]
  case cases =>
    refine ⟨swiftErrorLines s, emitted_swift hm ?_, ?_, hs.usable.distinctCases,
      s.codes.table.nodup_values⟩
    · exact List.mem_cons_of_mem _ List.mem_cons_self
    · rw [hswift, readLines_swiftError hs]
      rfl
  case constants => exact s.codes.table.nodup_constants

end

/-! ## Tables of their own -/

/-- A table with the entries that are relied on, and one more. -/
def sampleTable (name description : String)
    (h : name ∉ ["OK", "INTERNAL_ERROR", "INVALID_INPUT"]) : ErrorTable where
  codes := [⟨"OK", 0, "Success", [], none, none⟩,
    ⟨"INTERNAL_ERROR", 1, "Unexpected failure", [], some "ZkGroupException", some "internalError"⟩,
    ⟨"INVALID_INPUT", 2, "Refused", ["BadArgs"], some "InvalidInputException", some "invalidInput"⟩,
    ⟨name, 3, description, ["Other"], none, some "other"⟩]
  ascending := by simp
  names := by simpa [eq_comm] using h
  variants := by simp
  zero := rfl

theorem usable_sampleTable {name description : String}
    (h : name ∉ ["OK", "INTERNAL_ERROR", "INVALID_INPUT"]) (hname : Naming.isIdentifier name = true)
    (hlength : ¬ ErrorTable.lengthEnding.toList <:+ name.toList) :
    (sampleTable name description h).Usable where
  internal := ⟨_, rfl⟩
  refused := ⟨_, rfl, by decide, _, rfl, by decide⟩
  narrow := by simp [sampleTable]
  names := by simpa [sampleTable] using ⟨by decide, by decide, by decide, hname⟩
  noLength := by simpa [sampleTable] using ⟨by decide, by decide, by decide, hlength⟩
  variants := by simpa [sampleTable] using ⟨by decide, by decide⟩
  exceptions := by simpa [sampleTable] using ⟨by decide, by decide⟩
  cases := by simpa [sampleTable] using ⟨by decide, by decide, by decide⟩
  named := by simp [sampleTable, ErrorTable.failures, ErrorCode.isOk]
  distinctCases := by simp [sampleTable, ErrorTable.failures, ErrorCode.isOk, ErrorCode.caseName]

theorem headerUnbroken_standard : Options.standard.HeaderUnbroken := by
  rintro header h
  cases h
  exact fun x hx => (nomatch hx)

/-- **The codes agree**, whatever the table: from an accepted description with sizes that can be
written, all three targets are generated with a usable table, and if no text brings a line feed along
and no code is called `LEN`, their files have the table as it is. -/
theorem codes_agree {es : List (Value × Value)} {m : Model} {o : Options} {t : ErrorTable}
    (hm : Model.ofDescription es = .ok m) (hsizes : m.Short) (ho : o.Valid) (hshown : o.Shown)
    (hheader : o.HeaderUnbroken) (ht : t.Usable)
    (hd : ∀ c ∈ t.codes, Unbroken c.description) (hlen : ∀ c ∈ t.codes, c.name ≠ "LEN") :
    ∃ (s : Setting) (core jvm swift : List File), s.For o t ∧ Target.core.emit m o t = .ok core ∧
      Target.jvm.emit m o t = .ok jvm ∧ Target.swift.emit m o t = .ok swift ∧
      CodesAgree s t m core jvm swift := by
  have hw : m.WellFormed := (ofDescription_eq_ok.1 hm).2
  obtain ⟨s, hs, refused, library, hv, hcore, hjvm, hswift⟩ := ht.generates hsizes hshown
  have htable : s.codes.table = t := Codes.table_of_internalFirst hs.codes
  subst htable
  exact ⟨s, _, _, _, hs, hcore, hjvm, hswift,
    codesAgree (hs.harmless ho hheader ht) hw hd hlen hv library⟩

theorem codes_agree_vault :
    Model.ofDescription (vaultEntries 32) = .ok (vaultModel 32) ∧
      ∃ s core jvm swift, CodesAgree s (sampleTable "STALE" "Key is out of date" (by decide))
        (vaultModel 32) core jvm swift := by
  have ht : (sampleTable "STALE" "Key is out of date" (by decide)).Usable :=
    usable_sampleTable _ (by decide) (by decide)
  obtain ⟨s, core, jvm, swift, _, _, _, _, h⟩ := codes_agree ofDescription_vault short_vault
    valid_standard shown_standard headerUnbroken_standard ht (by decide) (by decide)
  exact ⟨ofDescription_vault, s, core, jvm, swift, h⟩

/-! ## Texts that bring more along -/

/-- `DefinedTwice r fs s path name` — the file at the path defines the name with two numbers. -/
def DefinedTwice (r : Reader (String × Int)) (fs : List File) (s : Setting) (path name : String) :
    Prop :=
  ∃ body a b, Emitted fs s path body ∧ a ≠ b ∧ (name, a) ∈ r.readIn (s.file path body).text ∧
    (name, b) ∈ r.readIn (s.file path body).text

section

variable {s : Setting} {m : Model}

theorem code_mem_exportRootLines {c : ErrorCode} (hc : c ∈ s.codes.table.codes) :
    line ("pub const " ++ c.constant ++ ": i32 = " ++ Decimal.integer c.value ++ "; // " ++
      c.description) ∈ exportRootLines s m := by
  have hcode : line ("pub const " ++ c.constant ++ ": i32 = " ++ Decimal.integer c.value ++ "; // " ++
      c.description) ∈ exportedCodes s := List.mem_map.2 ⟨c, hc, rfl⟩
  unfold exportRootLines
  simp only [List.mem_append]
  exact .inl (.inl (.inl (.inl (.inl (.inl (.inr hcode))))))

end

/-- A description with a definition behind a line feed. -/
def brokenTable : ErrorTable :=
  sampleTable "STALE" "Key is out of date\npub const FFI_RETURN_OK: i32 = 7;" (by decide)

theorem twice_of_description : ∃ s core, s.For .standard brokenTable ∧
    Target.core.emit (vaultModel 32) .standard brokenTable = .ok core ∧
      DefinedTwice rustCodes core s "ffiapi/ffiapi.rs" "FFI_RETURN_OK" := by
  have hm : (vaultModel 32).WellFormed := (ofDescription_eq_ok.1 ofDescription_vault).2
  have ht : brokenTable.Usable := usable_sampleTable _ (by decide) (by decide)
  obtain ⟨s, hs, refused, _, hv, hcore, _⟩ := ht.generates short_vault shown_standard
  have htable : s.codes.table = brokenTable := Codes.table_of_internalFirst hs.codes
  have hcode : ∀ c ∈ brokenTable.codes, ∀ {x}, x ∈ rustCodes.readLine (line ("pub const " ++
      c.constant ++ ": i32 = " ++ Decimal.integer c.value ++ "; // " ++ c.description)) →
      x ∈ rustCodes.readIn (s.file "ffiapi/ffiapi.rs" (exportRootLines s (vaultModel 32))).text :=
    fun c hc _ hx => Reader.mem_readIn_of_body (by decide) (code_mem_exportRootLines (htable ▸ hc)) hx
  refine ⟨s, _, hs, hcore, _, 0, 7, emitted_core hm hv List.mem_cons_self, by decide, ?_, ?_⟩
  · exact hcode ⟨"OK", 0, "Success", [], none, none⟩ (by decide) (by decide +kernel)
  · exact hcode ⟨"STALE", 3, "Key is out of date\npub const FFI_RETURN_OK: i32 = 7;", ["Other"],
      none, some "other"⟩ (by decide) (by decide +kernel)

/-- A code whose constant is that for the length of a type. -/
def lengthTable : ErrorTable := sampleTable "LEN" "Wrong length" (by decide)

/-- A description with this type. -/
def returnEntries : List (Value × Value) :=
  [(.str "types", .list [.map [(.str "name", .str "FfiReturn"), (.str "kind", .str "buffer"),
    (.str "size", .int 8)]])]

/-- The model with this type. -/
def returnModel : Model := ⟨[⟨"FfiReturn", .buffer 8, none⟩], []⟩

theorem ofDescription_return : Model.ofDescription returnEntries = .ok returnModel := by
  decide +kernel

theorem twice_of_length : ∃ s swift, s.For .standard lengthTable ∧
    Target.swift.emit returnModel .standard lengthTable = .ok swift ∧
      DefinedTwice headerNumbers swift s "swift/zkgroup.h" "FFI_RETURN_LEN" := by
  have hm : returnModel.WellFormed := (ofDescription_eq_ok.1 ofDescription_return).2
  have hsizes : returnModel.Short := Model.checkSizes_eq_ok.1 (by decide +kernel)
  have ht : lengthTable.Usable := usable_sampleTable _ (by decide) (by decide)
  obtain ⟨s, hs, _, _, _, _, _, hswift⟩ := ht.generates hsizes shown_standard
  have htable : s.codes.table = lengthTable := Codes.table_of_internalFirst hs.codes
  have hs' := hs.harmless valid_standard headerUnbroken_standard ht
  have hpath : "swift/" ++ s.options.libraryName ++ ".h" = "swift/zkgroup.h" := by
    rw [hs.options]
    decide
  have hread : headerNumbers.readIn (s.file "swift/zkgroup.h" (headerLines s returnModel)).text =
      lengthTable.constants ++ headerLengths returnModel := by
    rw [hs'.readIn_file (by decide) (by decide), readLines_headerNumbers hs' hm, htable]
  refine ⟨s, _, hs, hswift, headerLines s returnModel, 3, 8, ?_, by decide, ?_, ?_⟩
  · rw [← hpath]
    exact emitted_headerFile
  · rw [hread]
    exact List.mem_append_left _ (by decide)
  · rw [hread]
    exact List.mem_append_right _ (by decide)

/-- Options with a definition behind a line feed in the header. -/
def brokenOptions : Options :=
  { Options.standard with
    header := .lines [.str "Bindings\npub const FFI_RETURN_OK: i32 = 7;"] }

theorem valid_brokenOptions : brokenOptions.Valid := valid_standard.withHeader _

theorem shown_brokenOptions : brokenOptions.Shown :=
  ⟨List.forall_mem_singleton.2 (by decide), by decide⟩

theorem twice_of_header : ∃ s core, s.For brokenOptions .standard ∧
    Target.core.emit (vaultModel 32) brokenOptions .standard = .ok core ∧
      DefinedTwice rustCodes core s "ffiapi/ffiapi.rs" "FFI_RETURN_OK" := by
  have hm : (vaultModel 32).WellFormed := (ofDescription_eq_ok.1 ofDescription_vault).2
  obtain ⟨s, hs, refused, _, hv, hcore, _⟩ :=
    ErrorTable.usable_standard.generates short_vault shown_brokenOptions
  have hheader : s.header = [⟨"Bindings\npub const FFI_RETURN_OK: i32 = 7;", true⟩] :=
    (Except.ok.inj hs.header).symm
  have htable : s.codes.table = .standard := Codes.table_of_internalFirst hs.codes
  refine ⟨s, _, hs, hcore, exportRootLines s (vaultModel 32), 0, 7,
    emitted_core hm hv List.mem_cons_self, by decide, ?_, ?_⟩
  · have hcode := code_mem_exportRootLines (s := s) (m := vaultModel 32)
      (c := ⟨"OK", 0, "Success", [], none, none⟩) (htable ▸ (by decide))
    exact Reader.mem_readIn_of_body (by decide) hcode (by decide +kernel)
  · refine Reader.mem_readIn_of_banner (t := "// Bindings\npub const FFI_RETURN_OK: i32 = 7;")
      (by decide) ?_ (by decide +kernel) _ _
    rw [hheader]
    decide +kernel

/-- Without these conditions the codes need not agree: a description or a header with a line feed, and
a code called `LEN`, make a file define a constant with two numbers; and a size of too many digits
leaves no file to define any. -/
theorem codes_disagree :
    (brokenTable.Usable ∧ Model.ofDescription (vaultEntries 32) = .ok (vaultModel 32) ∧
      ∃ s core, s.For .standard brokenTable ∧
        Target.core.emit (vaultModel 32) .standard brokenTable = .ok core ∧
        DefinedTwice rustCodes core s "ffiapi/ffiapi.rs" "FFI_RETURN_OK") ∧
    (lengthTable.Usable ∧ Model.ofDescription returnEntries = .ok returnModel ∧
      ∃ s swift, s.For .standard lengthTable ∧
        Target.swift.emit returnModel .standard lengthTable = .ok swift ∧
        DefinedTwice headerNumbers swift s "swift/zkgroup.h" "FFI_RETURN_LEN") ∧
    (brokenOptions.Valid ∧ ErrorTable.standard.Usable ∧
      ∃ s core, s.For brokenOptions .standard ∧
        Target.core.emit (vaultModel 32) brokenOptions .standard = .ok core ∧
        DefinedTwice rustCodes core s "ffiapi/ffiapi.rs" "FFI_RETURN_OK") ∧
    Model.ofDescription (vaultEntries (10 ^ 4300)) = .ok (vaultModel (10 ^ 4300)) ∧
      ∀ (t : Target) files, t.emit (vaultModel (10 ^ 4300)) .standard .standard ≠ .ok files := by
  have hbroken : brokenTable.Usable := usable_sampleTable _ (by decide) (by decide)
  have hlength : lengthTable.Usable := usable_sampleTable _ (by decide) (by decide)
  have hlong : Model.ofDescription (vaultEntries (10 ^ 4300)) = .ok (vaultModel (10 ^ 4300)) := by
    decide +kernel
  exact ⟨⟨hbroken, ofDescription_vault, twice_of_description⟩,
    ⟨hlength, ofDescription_return, twice_of_length⟩,
    ⟨valid_brokenOptions, ErrorTable.usable_standard, twice_of_header⟩, hlong,
    fun _ => Target.not_emit_of_long (by decide +kernel)⟩

end Bindery
