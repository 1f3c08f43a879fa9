/-
  THE CODES IN THE FILES: which numbers the files define for them.

  Four files have the codes: the root of the exported layer, the base exception, the header and the
  error type of the Swift side.  Each is read by the form of its definitions, and what is read is the
  table, entry by entry and nothing else; in the header the lengths of the buffers come behind.
-/
import Bindery.Layer.SwiftSupport
import Bindery.Proofs.Boundary.Arguments
import Bindery.Proofs.Codes.Exceptions

namespace Bindery

open Naming Source

/-! ## Forms of definitions -/

/-- The codes of the exported layer. -/
def rustCodes : Reader (String × Int) := .numbered "pub const " ": i32 = "

/-- The numbers of a Java class, one block deep. -/
def javaNumbers : Reader (String × Int) := (Reader.numbered "public static final int " " = ").deeper

/-- The numbers that a header defines. -/
def headerNumbers : Reader (String × Int) := .numbered "#define " " "

/-- The names that a header defines, with a number or without. -/
def headerNames : Reader String := .named "#define "

/-- The cases of a Swift type, one block deep. -/
def swiftCaseNumbers : Reader (String × Int) := (Reader.numbered "case " " = ").deeper

section

variable {s : Setting} {m : Model}

theorem Setting.Harmless.unbroken_constant (hs : s.Harmless) {c : ErrorCode}
    (hc : c ∈ s.codes.table.codes) : Unbroken c.constant :=
  unbroken_of_wordy (hs.usable.wordy_constant hc)

theorem Setting.Harmless.unbroken_ok (hs : s.Harmless) : Unbroken s.ok :=
  hs.unbroken_constant s.codes.table.ok_eq.1

theorem Setting.Harmless.unbroken_broken (hs : s.Harmless) : Unbroken s.broken :=
  hs.unbroken_constant hs.broken_eq.1

theorem Setting.Harmless.refused_mem (hs : s.Harmless) :
    s.codes.invalidInput ∈ s.codes.table.codes := (ErrorTable.find?_eq_some hs.refused).1

theorem Setting.Harmless.unbroken_refused (hs : s.Harmless) : Unbroken s.refused :=
  hs.unbroken_constant hs.refused_mem

theorem Setting.Harmless.unbroken_errorTypeName (hs : s.Harmless) :
    Unbroken s.options.errorTypeName := unbroken_of_wordy (wordy_lastSegment hs.options.errorType)

/-! ## The exported layer -/

/-- The lines of the root of the exported layer. -/
def exportRootLines (s : Setting) (m : Model) : List Line :=
  Source.lines ["#![allow(non_snake_case)]", "#![allow(clippy::missing_safety_doc)]", "",
      "use " ++ s.options.errorType ++ ";", ""] ++
    exportedCodes s ++ gap ::
    m.modules.flatMap (fun module => Source.lines
      ["#[path = \"" ++ exportFile module.name ++ "\"]", "pub mod " ++ module.name ++ ";",
        "pub use self::" ++ module.name ++ "::*;"]) ++ gap ::
    returnCodeHelper s ++ gap :: guardHelper s ++ gap :: inputHelper s ++ gap ::
    outputHelper s ++ gap :: enumHelper s

theorem outer_rustCodes : rustCodes.Outer := by constructor <;> decide

theorem oneLined_matchLines (hs : s.Harmless) : OneLined (matchLines s) := by
  have htype := hs.unbroken_errorTypeName
  have hbroken := hs.unbroken_broken
  refine .append (.map fun arm harm => ?_) (.cons (by decide) (.cons ?_ .nil))
  · obtain ⟨c, hc, hv, hconstant⟩ := mem_errorArms.1 harm
    have hcodes := (ErrorTable.mem_failures.1 hc).1
    have hvariant := unbroken_of_wordy (hs.usable.wordy_variant hcodes hv)
    have hcode := hs.unbroken_constant hcodes
    rw [hconstant]
    simp +decide only [unbroken_append, htype, hvariant, hcode, and_self]
  · show Unbroken ("_ => " ++ s.broken ++ ",")
    simp +decide only [unbroken_append, hbroken, and_self]

theorem skipsAll_helpers (hs : s.Harmless) : rustCodes.SkipsAll (returnCodeHelper s ++ gap ::
    guardHelper s ++ gap :: inputHelper s ++ gap :: outputHelper s ++ gap :: enumHelper s) := by
  have hr := outer_rustCodes
  have hok := hs.unbroken_ok
  have hbroken := hs.unbroken_broken
  have hrefused := hs.unbroken_refused
  have htype := hs.unbroken_errorTypeName
  have hcode : rustCodes.SkipsAll (returnCodeHelper s) := by
    have happart : Apart rustCodes.head "pub(crate) fn ffi_return_code(err: " := by decide
    refine .block hr ((happart.append _).append _) ?_ (.block (by decide) (oneLined_matchLines hs))
    simp +decide only [unbroken_append, htype, and_self]
  have hguard : rustCodes.SkipsAll (guardHelper s) := by
    refine .append (.append (.append (by decide) (.indent hr (by decide))) (.cons (by decide)
      (.indent hr (.block (by decide) ?_)))) (by decide)
    refine .cons ?_ (.cons (by decide) (.cons ?_ .nil))
    · show Unbroken ("Ok(Ok(())) => " ++ s.ok ++ ",")
      simp +decide only [unbroken_append, hok, and_self]
    · show Unbroken ("Err(_) => " ++ s.broken ++ ",")
      simp +decide only [unbroken_append, hbroken, and_self]
  have hcheck : OneLined (pointerCheck s) := by
    refine .block (by decide) (.cons ?_ .nil)
    show Unbroken ("return Err(" ++ s.refused ++ ");")
    simp +decide only [unbroken_append, hrefused, and_self]
  have hinput : rustCodes.SkipsAll (inputHelper s) :=
    .block hr (by decide) (by decide) (.append hcheck (by decide))
  have houtput : rustCodes.SkipsAll (outputHelper s) :=
    .block hr (by decide) (by decide) (.append hcheck (by decide))
  have henum : rustCodes.SkipsAll (enumHelper s) := by
    refine .block hr (by decide) (by decide) (.append (.append (by decide)
      (.cons (by decide) (.indent (.cons ?_ .nil)))) (by decide))
    show Unbroken ("Err(" ++ s.refused ++ ")")
    simp +decide only [unbroken_append, hrefused, and_self]
  exact .append (.append (.append (.append hcode (.cons (.gap hr) hguard))
    (.cons (.gap hr) hinput)) (.cons (.gap hr) houtput)) (.cons (.gap hr) henum)

/-- What the root of the exported layer defines. -/
theorem readLines_exportRoot (hs : s.Harmless) (hm : m.WellFormed)
    (hd : ∀ c ∈ s.codes.table.codes, Unbroken c.description) :
    rustCodes.readLines (exportRootLines s m) = s.codes.table.constants := by
  have hr := outer_rustCodes
  have htop : rustCodes.SkipsAll (Source.lines ["#![allow(non_snake_case)]",
      "#![allow(clippy::missing_safety_doc)]", "", "use " ++ s.options.errorType ++ ";", ""]) := by
    have hpath := unbroken_of_isPath hs.options.errorType
    have happart : Apart rustCodes.head "use " := by decide
    refine .cons (by decide) (.cons (by decide) (.cons (.gap hr) (.cons ?_ (.cons (.gap hr) .nil))))
    refine Reader.skips_line ?_ ((happart.append _).append _)
    simp +decide only [unbroken_append, hpath, and_self]
  have hcodes : rustCodes.readLines (exportedCodes s) = s.codes.table.constants := by
    refine Reader.readLines_map fun c hc => ?_
    have hcode := hs.unbroken_constant hc
    have hdescription := hd c hc
    refine Reader.readLine_numbered ("; // " ++ c.description) ?_ ?_
      (hs.usable.wordy_constant hc) (by decide) (by decide) ?_
    · simp only [String.append_assoc]
    · simp +decide only [unbroken_append, hcode, hdescription, unbroken_integer, and_self]
    · rw [String.toList_append]
      exact Text.stops_cons.2 (by decide)
  have hmodules : rustCodes.SkipsAll (m.modules.flatMap fun module => Source.lines
      ["#[path = \"" ++ exportFile module.name ++ "\"]", "pub mod " ++ module.name ++ ";",
        "pub use self::" ++ module.name ++ "::*;"]) := by
    refine .flatMap fun module hmodule => ?_
    have hname := unbroken_of_wordy (wordy_of_isModuleName (hm.isModuleName hmodule))
    have hpath : Apart rustCodes.head "#[path = \"" := by decide
    have hmod : Apart rustCodes.head "pub mod " := by decide
    have huse : Apart rustCodes.head "pub use self::" := by decide
    refine .cons (Reader.skips_line ?_ ((hpath.append _).append _))
      (.cons (Reader.skips_line ?_ ((hmod.append _).append _))
        (.cons (Reader.skips_line ?_ ((huse.append _).append _)) .nil))
    all_goals simp +decide only [exportFile, unbroken_append, hname, and_self]
  have hlines : exportRootLines s m = Source.lines ["#![allow(non_snake_case)]",
      "#![allow(clippy::missing_safety_doc)]", "", "use " ++ s.options.errorType ++ ";", ""] ++
      exportedCodes s ++ (gap :: m.modules.flatMap (fun module => Source.lines
        ["#[path = \"" ++ exportFile module.name ++ "\"]", "pub mod " ++ module.name ++ ";",
          "pub use self::" ++ module.name ++ "::*;"]) ++ gap ::
      (returnCodeHelper s ++ gap :: guardHelper s ++ gap :: inputHelper s ++ gap ::
        outputHelper s ++ gap :: enumHelper s)) := by
    simp only [exportRootLines, List.append_assoc, List.cons_append]
  have hrest := (Reader.SkipsAll.cons (.gap hr) hmodules).append
    (.cons (.gap hr) (skipsAll_helpers hs))
  rw [hlines, Reader.readLines_append, hrest.readLines, Reader.readLines_append, htop.readLines,
    hcodes, List.nil_append, List.append_nil]

/-! ## The base exception -/

/-- What the class of the base exception holds besides its constants. -/
def baseExceptionMembers (s : Setting) : List Line :=
  Source.lines ["", "private final int code;", ""] ++
    (block ("public " ++ baseException ++ "(int code)")
      (Source.lines ["this(code, \"zkgroup error \" + code);"]) ++
    (gap :: block ("public " ++ baseException ++ "(int code, String message)")
      (Source.lines ["super(message);", "this.code = code;"]) ++
    (gap :: block "public int getCode()" (Source.lines ["return code;"]) ++
    gap :: checkResultMethod s)))

/-- The constants of the base exception. -/
def baseExceptionConstants (s : Setting) : List Line :=
  s.codes.table.constants.map fun c =>
    line ("public static final int " ++ c.1 ++ " = " ++ Decimal.integer c.2 ++ ";")

/-- The lines of the base exception. -/
def baseExceptionLines (s : Setting) : List Line :=
  line ("package " ++ s.options.javaPackage ++ ";") :: gap ::
    line ("/** Error reported by the native zkgroup library; " ++ opening ++
      "@link #getCode()" ++ closing ++ " is the numeric FFI code. */") ::
    block ("public class " ++ baseException ++ " extends Exception")
      (gap :: (baseExceptionConstants s ++ baseExceptionMembers s))

theorem baseExceptionFile_eq (s : Setting) :
    baseExceptionFile s = s.file "java/ZkGroupException.java" (baseExceptionLines s) := by
  have hbody : gap :: (baseExceptionConstants s ++ baseExceptionMembers s) = gap ::
      s.codes.table.javaConstants.map (fun c => line ("public static final int " ++ c.1 ++
        " = " ++ Decimal.integer c.2 ++ ";")) ++
      Source.lines ["", "private final int code;", ""] ++
      block ("public " ++ baseException ++ "(int code)")
        (Source.lines ["this(code, \"zkgroup error \" + code);"]) ++
      gap ::
      block ("public " ++ baseException ++ "(int code, String message)")
        (Source.lines ["super(message);", "this.code = code;"]) ++
      gap ::
      block "public int getCode()" (Source.lines ["return code;"]) ++
      gap :: checkResultMethod s := by
    simp only [baseExceptionConstants, baseExceptionMembers, List.append_assoc, List.cons_append]
    rfl
  unfold baseExceptionLines
  rw [hbody]
  rfl

theorem oneLined_switchLines (hs : s.Harmless) : OneLined (switchLines s) := by
  have hok := hs.unbroken_ok
  have hlabel : ∀ {constant : String}, Unbroken constant → Unbroken ("case " ++ constant ++ ":") := by
    intro constant h
    simp +decide only [unbroken_append, h, and_self]
  refine .append (.append (.cons (hlabel hok) (by decide)) (.flatMap fun x hx => ?_)) (by decide)
  obtain ⟨e, he, rfl⟩ := List.mem_map.1 hx
  obtain ⟨c, hc, hexception, hne, _⟩ := ErrorTable.mem_derivedExceptions.1 he
  have hunbroken : Unbroken e := by
    rcases hs.usable.exceptions c (ErrorTable.mem_failures.1 hc).1 e hexception with h | h
    · exact absurd h hne
    · exact unbroken_of_wordy (wordy_of_isIdentifier h)
  refine .append (.map fun constant hconstant => ?_) (.indent (.cons ?_ .nil))
  · obtain ⟨d, hd, rfl⟩ := List.mem_map.1 hconstant
    exact hlabel (hs.unbroken_constant
      (ErrorTable.mem_failures.1 (ErrorTable.mem_reportedBy.1 hd).1).1)
  · show Unbroken ("throw new " ++ e ++ "(code);")
    simp +decide only [unbroken_append, hunbroken, and_self]

theorem unbroken_javaNumber {name : String} (h : Unbroken name) (n : Int) :
    Unbroken ("public static final int " ++ name ++ " = " ++ Decimal.integer n ++ ";") := by
  simp +decide only [unbroken_append, h, unbroken_integer, and_self]

/-- A constant of a Java class. -/
theorem readLine_javaNumber {name : String} (h : Wordy name.toList) (n : Int) :
    (Reader.numbered "public static final int " " = ").readLine
      (line ("public static final int " ++ name ++ " = " ++ Decimal.integer n ++ ";")) =
      [(name, n)] := by
  refine Reader.readLine_numbered ";" ?_ (unbroken_javaNumber (unbroken_of_wordy h) n) h (by decide)
    (by decide) (by decide)
  simp only [String.append_assoc]

theorem outer_javaNumber : (Reader.numbered "public static final int " " = ").Outer := by
  constructor <;> decide

/-- The line for the package of a class. -/
theorem skips_package {name : String} (h : Unbroken name) :
    javaNumbers.Skips (line ("package " ++ name ++ ";")) := by
  have happart : Apart javaNumbers.head "package " := by decide
  refine Reader.skips_line ?_ ((happart.append _).append _)
  simp +decide only [unbroken_append, h, and_self]

theorem skipsAll_baseExceptionMembers (hs : s.Harmless) :
    (Reader.numbered "public static final int " " = ").SkipsAll (baseExceptionMembers s) := by
  have hr := outer_javaNumber
  have hcheck : (Reader.numbered "public static final int " " = ").SkipsAll (checkResultMethod s) := by
    rw [checkResultMethod_eq]
    exact .block hr (by decide) (by decide) (.block (by decide) (oneLined_switchLines hs))
  exact .append (by decide) (.append (.block hr (by decide) (by decide) (by decide))
    (.append (.cons (.gap hr) (.block hr (by decide) (by decide) (by decide)))
    (.append (.cons (.gap hr) (.block hr (by decide) (by decide) (by decide)))
      (.cons (.gap hr) hcheck))))

/-- What the base exception defines. -/
theorem readLines_baseException (hs : s.Harmless) :
    javaNumbers.readLines (baseExceptionLines s) = s.codes.table.constants := by
  have hr := outer_javaNumber
  have hmembers := skipsAll_baseExceptionMembers hs
  have hconstants : (Reader.numbered "public static final int " " = ").readLines
      (baseExceptionConstants s) = s.codes.table.constants := by
    unfold baseExceptionConstants
    rw [Reader.readLines_map, List.map_id']
    intro c hc
    obtain ⟨d, hd, rfl⟩ := List.mem_map.1 hc
    exact readLine_javaNumber (hs.usable.wordy_constant hd) _
  have hone : OneLined (baseExceptionConstants s) := by
    refine .map fun c hc => ?_
    obtain ⟨d, hd, rfl⟩ := List.mem_map.1 hc
    exact unbroken_javaNumber (hs.unbroken_constant hd) _
  have hbody : OneLined (gap :: (baseExceptionConstants s ++ baseExceptionMembers s)) :=
    .cons (by decide) (.append hone fun l hl => (hmembers l hl).unbroken)
  have hpackage := skips_package (unbroken_of_isPackageName hs.options.javaPackage)
  have hcomment : javaNumbers.Skips (line ("/** Error reported by the native zkgroup library; " ++
      opening ++ "@link #getCode()" ++ closing ++ " is the numeric FFI code. */")) := by decide
  have hgap : javaNumbers.Skips gap := by decide
  unfold baseExceptionLines
  rw [Reader.readLines_cons, hpackage.readLine, Reader.readLines_cons, hgap.readLine,
    Reader.readLines_cons, hcomment.readLine]
  simp only [List.nil_append]
  unfold javaNumbers
  rw [Reader.readLines_block hr.head (by decide) (by decide) hbody, Reader.readLines_cons,
    (Reader.Skips.gap hr).readLine, Reader.readLines_append, hconstants, hmembers.readLines]
  exact List.append_nil _

/-! ## The error type of the Swift side -/

/-- The lines of the error type. -/
def swiftErrorLines (s : Setting) : List Line :=
  block ("public enum " ++ swiftError ++ ": Int32, Error")
    (s.codes.table.swiftCases.map (fun c => line ("case " ++ c.1 ++ " = " ++ Decimal.integer c.2)) ++
      gap ::
      block "static func check(_ ffiResult: Int32) throws"
        (block ("if ffiResult == " ++ s.ok) (Source.lines ["return"]) ++
          Source.lines ["throw " ++ swiftError ++ "(rawValue: ffiResult) ?? ." ++
            s.codes.internalError.caseName]))

/-- What the error type defines. -/
theorem readLines_swiftError (hs : s.Harmless) :
    swiftCaseNumbers.readLines (swiftErrorLines s) = s.codes.table.swiftCases := by
  have hr : (Reader.numbered "case " " = ").Outer := by constructor <;> decide
  have hok := hs.unbroken_ok
  have hinternal := unbroken_of_wordy (hs.usable.wordy_caseName hs.broken_eq.1)
  have hcase : ∀ c ∈ s.codes.table.swiftCases, Wordy c.1.toList := by
    intro c hc
    obtain ⟨d, hd, rfl⟩ := List.mem_map.1 hc
    exact hs.usable.wordy_caseName (ErrorTable.mem_failures.1 hd).1
  have hone : ∀ c ∈ s.codes.table.swiftCases,
      Unbroken ("case " ++ c.1 ++ " = " ++ Decimal.integer c.2) := by
    intro c hc
    have hname := unbroken_of_wordy (hcase c hc)
    simp +decide only [unbroken_append, hname, unbroken_integer, and_self]
  have hcases : (Reader.numbered "case " " = ").readLines (s.codes.table.swiftCases.map fun c =>
      line ("case " ++ c.1 ++ " = " ++ Decimal.integer c.2)) = s.codes.table.swiftCases := by
    rw [Reader.readLines_map, List.map_id']
    intro c hc
    refine Reader.readLine_numbered "" ?_ (hone c hc) (hcase c hc) (by decide) (by decide) (by decide)
    simp only [String.append_assoc, String.append_empty]
  have hcheck : (Reader.numbered "case " " = ").SkipsAll (gap ::
      block "static func check(_ ffiResult: Int32) throws"
        (block ("if ffiResult == " ++ s.ok) (Source.lines ["return"]) ++
          Source.lines ["throw " ++ swiftError ++ "(rawValue: ffiResult) ?? ." ++
            s.codes.internalError.caseName])) := by
    refine .cons (.gap hr) (.block hr (by decide) (by decide) (.append (.block ?_ (by decide))
      (.cons ?_ .nil)))
    · simp +decide only [unbroken_append, hok, and_self]
    · show Unbroken ("throw " ++ swiftError ++ "(rawValue: ffiResult) ?? ." ++
        s.codes.internalError.caseName)
      simp +decide only [unbroken_append, hinternal, and_self]
  have hbody : OneLined (s.codes.table.swiftCases.map (fun c =>
      line ("case " ++ c.1 ++ " = " ++ Decimal.integer c.2)) ++ gap ::
      block "static func check(_ ffiResult: Int32) throws"
        (block ("if ffiResult == " ++ s.ok) (Source.lines ["return"]) ++
          Source.lines ["throw " ++ swiftError ++ "(rawValue: ffiResult) ?? ." ++
            s.codes.internalError.caseName])) :=
    .append (.map hone) fun l hl => (hcheck l hl).unbroken
  unfold swiftErrorLines swiftCaseNumbers
  rw [Reader.readLines_block hr.head (by decide) (by decide) hbody, Reader.readLines_append, hcases,
    hcheck.readLines, List.append_nil]

/-! ## The header -/

/-- The definition that keeps a header from being taken in twice. -/
def guardLine (s : Setting) : Line := line ("#define " ++ (Naming.upper s.options.libraryName ++ "_H"))

theorem wordy_guard (hs : s.Harmless) :
    Wordy (Naming.upper s.options.libraryName ++ "_H").toList := by
  have hname := wordy_of_isIdentifier hs.options.libraryName
  have hascii : ∀ c ∈ s.options.libraryName.toList, c.toNat < 0x80 := by
    intro c hc
    rcases (Bool.or_eq_true _ _).mp (hname c hc) with h | h
    · exact toNat_lt_of_isAlphanum h
    · rw [beq_iff_eq.1 h]
      decide
  rw [String.toList_append, Naming.upper, String.toList_ofList, Text.upper_of_ascii hascii]
  exact (hname.map (fun _ => isAlphanum_toUpper) (by decide)).append (by decide)

theorem guard_ne (s : Setting) : Naming.upper s.options.libraryName ++ "_H" ≠ "" := by
  intro hempty
  have hnil := congrArg String.toList hempty
  rw [String.toList_append] at hnil
  exact absurd (List.append_eq_nil_iff.1 hnil).2 (by decide)

/-! ## Prototypes -/

theorem Model.WellFormed.unbroken_parameter (hm : m.WellFormed) {f : Function} (hf : f ∈ m.functions)
    {p : Parameter} (hp : p ∈ f.parameters) : Unbroken p.name := by
  exact unbroken_of_wordy (wordy_of_plain
    (plain_of_isMemberName ((hm.function hf).parameters p hp).1.1))

theorem Model.WellFormed.unbroken_argument (hm : m.WellFormed) {f : Function} (hf : f ∈ m.functions)
    {a : Argument} (ha : a ∈ f.arguments) : Unbroken a.name := by
  rcases Function.mem_arguments.1 ha with ⟨p, hp, rfl⟩ | ⟨t, _, rfl⟩
  · exact hm.unbroken_parameter hf hp
  · exact (by decide : Unbroken Naming.resultSlot)

theorem Model.WellFormed.unbroken_slot (hm : m.WellFormed) {f : Function} (hf : f ∈ m.functions)
    {slot : Slot} (hslot : slot ∈ f.slots) : Unbroken slot.name := by
  obtain ⟨a, ha, hslot⟩ := List.mem_flatMap.1 hslot
  have hname := hm.unbroken_argument hf ha
  have hlength : Unbroken (Naming.lengthSlot a.name) := unbroken_append.2 ⟨hname, by decide⟩
  have hall : ∀ x ∈ a.slots, x.name = a.name ∨ x.name = Naming.lengthSlot a.name := by
    unfold Argument.slots
    cases a.passing <;> simp
  rcases hall slot hslot with h | h
  · rw [h]
    exact hname
  · rw [h]
    exact hlength

theorem Model.WellFormed.unbroken_prototype (hm : m.WellFormed) {f : Function}
    (hf : f ∈ m.functions) : Unbroken f.prototype.text := by
  have hsymbol : Unbroken f.coreSymbol := unbroken_of_wordy (hm.named hf).wordy_coreSymbol
  have hdeclare : ∀ x ∈ f.prototype.slots, Unbroken (x.2.declareC x.1) := by
    refine List.forall_mem_map.2 fun slot hslot => ?_
    have hname := hm.unbroken_slot hf hslot
    unfold SlotKind.declareC
    cases slot.kind with
    | value w => cases w <;> simp +decide only [SlotKind.c, Width.c, unbroken_append, hname, and_self]
    | _ => simp +decide only [SlotKind.c, unbroken_append, hname, and_self]
  have hparameters : Unbroken (if f.prototype.slots.isEmpty then "void" else
      commas (f.prototype.slots.map fun x => x.2.declareC x.1)) := by
    split
    · decide
    · exact unbroken_commas (List.forall_mem_map.2 hdeclare)
  unfold Prototype.text inParens
  show Unbroken ("int32_t " ++ f.coreSymbol ++ ("(" ++ _ ++ ")") ++ ";")
  simp +decide only [unbroken_append, hsymbol, hparameters, and_self]

/-! ## The lines of the header -/

/-- What the header defines: the guard, the codes and the lengths. -/
theorem readLines_header {β : Type} {r : Reader β} (hr : r.head = "#define ") (hs : s.Harmless)
    (hm : m.WellFormed) : r.readLines (headerLines s m) = r.readLine (guardLine s) ++
      r.readLines ((s.codes.table.constants ++ headerLengths m).map define) := by
  have houter : r.Outer := by constructor <;> rw [hr] <;> decide
  have happart : ∀ {start : String}, Apart "#define " start → Apart r.head start := fun h => hr ▸ h
  have hguard : Unbroken (Naming.upper s.options.libraryName ++ "_H") :=
    unbroken_of_wordy (wordy_guard hs)
  have hopen : r.Skips (line ("#ifndef " ++ (Naming.upper s.options.libraryName ++ "_H"))) := by
    refine Reader.skips_line ?_ ((happart (by decide)).append _)
    simp +decide only [unbroken_append, hguard, and_self]
  have hclosed : ∀ ls, (Reader.named "#define ").SkipsAll ls → r.SkipsAll ls := fun ls h l hl =>
    ⟨(h l hl).unbroken, hr ▸ (h l hl).other⟩
  have htop : r.SkipsAll (Source.lines ["", "#include <stdint.h>", "", "#ifdef __cplusplus",
      "extern \"C\" " ++ opening, "#endif", ""]) := hclosed _ (by decide)
  have hlengths : r.SkipsAll (if ((headerLengths m).map define).isEmpty then [] else [gap]) := by
    split
    · exact .nil
    · exact .cons (.gap houter) .nil
  have hmodules : r.SkipsAll (m.modules.flatMap fun module =>
      line ("/* " ++ module.name ++ " */") ::
        module.functions.map (fun f => line f.prototype.text) ++ [gap]) := by
    refine .flatMap fun module hmodule => .append (.cons ?_ ?_) (.cons (.gap houter) .nil)
    · have hname := unbroken_of_wordy (wordy_of_isModuleName (hm.isModuleName hmodule))
      refine Reader.skips_line ?_ (((happart (by decide)).append _).append _)
      simp +decide only [unbroken_append, hname, and_self]
    · refine List.forall_mem_map.2 fun f hf => ?_
      have hfun : f ∈ m.functions := Model.mem_functions.2 ⟨module, hmodule, hf⟩
      refine Reader.skips_line (hm.unbroken_prototype hfun) ?_
      exact ((((happart (by decide)).append _).append _).append _)
  have hfoot : r.SkipsAll (Source.lines ["#ifdef __cplusplus", closing, "#endif", "",
      "#endif // " ++ (Naming.upper s.options.libraryName ++ "_H")]) := by
    refine .append (hclosed (Source.lines ["#ifdef __cplusplus", closing, "#endif", ""]) (by decide))
      (.cons (Reader.skips_line ?_ ((happart (by decide)).append _)) .nil)
    simp +decide only [unbroken_append, hguard, and_self]
  have hlines : headerLines s m = line ("#ifndef " ++ (Naming.upper s.options.libraryName ++ "_H")) ::
      guardLine s :: (Source.lines ["", "#include <stdint.h>", "", "#ifdef __cplusplus",
        "extern \"C\" " ++ opening, "#endif", ""] ++
      (s.codes.table.constants.map define ++ gap :: ((headerLengths m).map define ++
      ((if ((headerLengths m).map define).isEmpty then [] else [gap]) ++
      (m.modules.flatMap (fun module => line ("/* " ++ module.name ++ " */") ::
        module.functions.map (fun f => line f.prototype.text) ++ [gap]) ++
      Source.lines ["#ifdef __cplusplus", closing, "#endif", "",
        "#endif // " ++ (Naming.upper s.options.libraryName ++ "_H")]))))) := by
    simp only [headerLines, List.append_assoc, List.cons_append]
    rfl
  have hmiddle := (Reader.Skips.gap houter).readLine
  rw [hlines, Reader.readLines_cons, hopen.readLine, Reader.readLines_cons, Reader.readLines_append,
    htop.readLines, Reader.readLines_append, Reader.readLines_cons, hmiddle, Reader.readLines_append,
    (hlengths.append (hmodules.append hfoot)).readLines, List.map_append, Reader.readLines_append]
  simp only [List.nil_append, List.append_nil]

/-- The numbers of a header, by names. -/
theorem readLine_define {name : String} (h : Wordy name.toList) (n : Int) :
    headerNumbers.readLine (define (name, n)) = [(name, n)] := by
  have hname := unbroken_of_wordy h
  refine Reader.readLine_numbered "" ?_ ?_ h (by decide) (by decide) (by decide)
  · simp only [String.append_assoc, String.append_empty]
  · simp +decide only [unbroken_append, hname, unbroken_integer, and_self]

/-- The names of a header. -/
theorem readName_define {name : String} (h : Wordy name.toList) (hne : name ≠ "") (n : Int) :
    headerNames.readLine (define (name, n)) = [name] := by
  have hname := unbroken_of_wordy h
  refine Reader.readLine_named (" " ++ Decimal.integer n) ?_ ?_ h hne ?_
  · simp only [String.append_assoc]
  · simp +decide only [unbroken_append, hname, unbroken_integer, and_self]
  · rw [String.toList_append]
    exact Text.stops_cons.2 (by decide)

theorem Model.WellFormed.wordy_length (hm : m.WellFormed) {d : String × Int}
    (hd : d ∈ headerLengths m) : Wordy d.1.toList ∧ d.1 ≠ "" := by
  obtain ⟨t, ht, rfl⟩ := List.mem_map.1 hd
  have htype := plain_of_isTypeName (hm.types.each t (List.mem_filter.1 ht).1).named.1
  have hlist : t.lengthConstant.toList = (stem t.name).toList ++ "_LEN".toList :=
    String.toList_append
  refine ⟨?_, fun hempty => ?_⟩
  · show Wordy t.lengthConstant.toList
    rw [hlist]
    exact (wordy_stem htype).append (by decide)
  · have hnil : t.lengthConstant.toList = [] := congrArg String.toList hempty
    rw [hlist] at hnil
    exact absurd (List.append_eq_nil_iff.1 hnil).2 (by decide)

theorem Setting.Harmless.wordy_code (hs : s.Harmless) {d : String × Int}
    (hd : d ∈ s.codes.table.constants) : Wordy d.1.toList ∧ d.1 ≠ "" := by
  obtain ⟨c, hc, rfl⟩ := List.mem_map.1 hd
  refine ⟨hs.usable.wordy_constant hc, fun hempty => ?_⟩
  have hnil := congrArg String.toList hempty
  dsimp only at hnil
  rw [ErrorCode.constant, String.toList_append] at hnil
  exact absurd (List.append_eq_nil_iff.1 hnil).1 (by decide)

/-- What the header defines with a number: the codes, then the lengths. -/
theorem readLines_headerNumbers (hs : s.Harmless) (hm : m.WellFormed) :
    headerNumbers.readLines (headerLines s m) = s.codes.table.constants ++ headerLengths m := by
  have hdefine : headerNumbers.readLines ((s.codes.table.constants ++ headerLengths m).map define) =
      s.codes.table.constants ++ headerLengths m := by
    rw [Reader.readLines_map, List.map_id']
    refine List.forall_mem_append.2 ⟨fun d hd => ?_, fun d hd => ?_⟩
    · exact readLine_define (hs.wordy_code hd).1 _
    · exact readLine_define (hm.wordy_length hd).1 _
  -- The guard has no number.
  have hguard : headerNumbers.readLine (guardLine s) = [] := by
    have hwordy := wordy_guard hs
    have hsolid : ∀ c ∈ (Naming.upper s.options.libraryName ++ "_H").toList.getLast?,
        Text.isBlank c = false := fun c hc =>
      Reader.isBlank_of_isIdentifierChar (hwordy c (List.mem_of_mem_getLast? hc))
    have hall : (Naming.upper s.options.libraryName ++ "_H").toList.dropWhile isIdentifierChar = [] :=
      List.dropWhile_eq_nil_iff.2 hwordy
    have hunbroken : Unbroken ("#define " ++ (Naming.upper s.options.libraryName ++ "_H")) :=
      unbroken_append.2 ⟨by decide, unbroken_of_wordy hwordy⟩
    have htext : "#define " ++ (Naming.upper s.options.libraryName ++ "_H") =
        headerNumbers.head ++ ((Naming.upper s.options.libraryName ++ "_H") ++ "") := by
      rw [String.append_empty]
      rfl
    have hnothing : Text.trimRight "".toList = [] := rfl
    unfold guardLine
    rw [Reader.readLine_append hunbroken htext (guard_ne s) hsolid, hnothing, List.append_nil]
    unfold headerNumbers Reader.numbered
    dsimp only
    rw [hall, if_neg (by decide)]
    rfl
  rw [readLines_header rfl hs hm, hguard, List.nil_append, hdefine]

/-- What the header defines at all: the guard, the codes, then the lengths. -/
theorem readLines_headerNames (hs : s.Harmless) (hm : m.WellFormed) :
    headerNames.readLines (headerLines s m) = (Naming.upper s.options.libraryName ++ "_H") ::
      (s.codes.table.constants ++ headerLengths m).map Prod.fst := by
  have hdefine : headerNames.readLines ((s.codes.table.constants ++ headerLengths m).map define) =
      (s.codes.table.constants ++ headerLengths m).map Prod.fst := by
    refine Reader.readLines_map (List.forall_mem_append.2 ⟨fun d hd => ?_, fun d hd => ?_⟩)
    · exact readName_define (hs.wordy_code hd).1 (hs.wordy_code hd).2 _
    · exact readName_define (hm.wordy_length hd).1 (hm.wordy_length hd).2 _
  have hguard : headerNames.readLine (guardLine s) = [Naming.upper s.options.libraryName ++ "_H"] := by
    have hwordy := wordy_guard hs
    have hunbroken := unbroken_of_wordy hwordy
    refine Reader.readLine_named "" ?_ ?_ hwordy ?_ (by decide)
    · rw [String.append_empty]
    · exact unbroken_append.2 ⟨by decide, hunbroken⟩
    · exact guard_ne s
  rw [readLines_header rfl hs hm, hguard, hdefine]
  rfl

/-! ## No name twice -/

/-- The stems of the constants of different types are different. -/
theorem Model.WellFormed.nodup_stems (hm : m.WellFormed) :
    (m.types.map fun t => stem t.name).Nodup := by
  refine List.pairwise_map.2 (hm.types.apart.imp_of_mem fun ha hb hne heq => hne ?_)
  exact lower_eq_of_stem_eq (plain_of_isTypeName (hm.types.each _ ha).named.1)
    (plain_of_isTypeName (hm.types.each _ hb).named.1) heq

theorem Model.WellFormed.nodup_lengths (hm : m.WellFormed) :
    ((headerLengths m).map Prod.fst).Nodup := by
  have hnames : (headerLengths m).map Prod.fst =
      (m.bufferTypes.map fun t => stem t.name).map (· ++ "_LEN") := by
    unfold headerLengths
    rw [List.map_map, List.map_map]
    rfl
  rw [hnames]
  refine List.Nodup.map (fun _ _ => append_right_cancel) ?_
  exact hm.nodup_stems.sublist (List.filter_sublist.map _)

theorem suffix_length {m : Model} {d : String × Int} (hd : d ∈ headerLengths m) :
    ErrorTable.lengthEnding.toList <:+ d.1.toList := by
  obtain ⟨t, _, rfl⟩ := List.mem_map.1 hd
  show "_LEN".toList <:+ (stem t.name ++ "_LEN").toList
  rw [String.toList_append]
  exact List.suffix_append _ _

/-- Unless a code is called `LEN`, no name has two numbers in the header. -/
theorem nodup_headerNumbers (hs : s.Harmless) (hm : m.WellFormed)
    (hlen : ∀ c ∈ s.codes.table.codes, c.name ≠ "LEN") :
    ((s.codes.table.constants ++ headerLengths m).map Prod.fst).Nodup := by
  rw [List.map_append]
  refine List.Nodup.append s.codes.table.nodup_constants hm.nodup_lengths ?_
  intro name hcode hlength
  obtain ⟨d, hd, rfl⟩ := List.mem_map.1 hlength
  obtain ⟨e, he, hname⟩ := List.mem_map.1 hcode
  obtain ⟨c, hc, rfl⟩ := List.mem_map.1 he
  refine hs.usable.constant_noLength hc (hlen c hc) ?_
  have hsame : c.constant = d.1 := hname
  rw [hsame]
  exact suffix_length hd

end

end Bindery
