/-
  LENGTHS IN THE FILES: where the length of a type is written down.

  The number of bytes of a buffer is written in three places.  The safe layer has a constant for it,
  beside one for the number of variants of every enumeration; the header has a constant of the same
  name; and the Java class of the buffer has it as its `SIZE`.  The Swift type of the buffer takes its
  `SIZE` from the header.  All of them are read off the files by the form of their definitions.
-/
import Bindery.Proofs.Boundary.JavaModules
import Bindery.Proofs.Target.Standing

namespace Bindery

open Naming Source Target

/-! ## Numbers of a model -/

/-- The numbers of variants of the enumerations. -/
def enumCounts (m : Model) : List (String × Int) :=
  m.enumTypes.map fun t => (t.countConstant, (t.shape.variants.length : Int))

namespace Model.WellFormed

variable {m : Model}

theorem wordy_lengthConstant (hm : m.WellFormed) {t : TypeDef} (ht : t ∈ m.types) :
    Wordy (Naming.lengthConstant t.name).toList := by
  unfold Naming.lengthConstant
  rw [String.toList_append]
  exact (wordy_stem (plain_of_isTypeName (hm.types.each t ht).named.1)).append (by decide)

theorem wordy_countConstant (hm : m.WellFormed) {t : TypeDef} (ht : t ∈ m.types) :
    Wordy (Naming.countConstant t.name).toList := by
  unfold Naming.countConstant
  rw [String.toList_append]
  exact (wordy_stem (plain_of_isTypeName (hm.types.each t ht).named.1)).append (by decide)

/-- Lengths and numbers of variants have different names. -/
theorem nodup_numbers (hm : m.WellFormed) :
    ((headerLengths m ++ enumCounts m).map Prod.fst).Nodup := by
  have hcounts : (enumCounts m).map Prod.fst =
      (m.enumTypes.map fun t => stem t.name).map (· ++ "_VARIANTS") := by
    unfold enumCounts
    rw [List.map_map, List.map_map]
    rfl
  have hnodup : ((enumCounts m).map Prod.fst).Nodup := by
    rw [hcounts]
    refine List.Nodup.map (fun _ _ => append_right_cancel) ?_
    exact hm.nodup_stems.sublist (List.filter_sublist.map _)
  rw [List.map_append]
  refine List.Nodup.append hm.nodup_lengths hnodup ?_
  intro name hlength hcount
  obtain ⟨d, hd, rfl⟩ := List.mem_map.1 hlength
  rw [hcounts] at hcount
  obtain ⟨word, _, hword⟩ := List.mem_map.1 hcount
  -- One ends with an N and the other with an S.
  have hN := suffix_length hd
  rw [← hword] at hN
  have hS : "_VARIANTS".toList <:+ (word ++ "_VARIANTS").toList := by
    rw [String.toList_append]
    exact List.suffix_append _ _
  exact absurd (List.suffix_of_suffix_length_le hN hS (by decide)) (by decide)

end Model.WellFormed

/-! ## The safe layer -/

/-- The numbers of the safe layer. -/
def safeNumbers : Reader (String × Int) := .numbered "pub const " ": usize = "

/-- The lines of the safe layer. -/
def safeLines (s : Setting) (m : Model) (refused : String) : List Line :=
  Source.lines ["#![allow(non_snake_case)]", "", "use std::convert::TryInto;", "",
      "use " ++ s.options.errorType ++ ";", ""] ++
    (safeConstants m).map (fun c =>
      line ("pub const " ++ c.1 ++ ": usize = " ++ Decimal.integer c.2 ++ ";")) ++
    gap :: fixedHelper s.options.errorTypeName refused ++ gap ::
    checkOutputHelper s.options.errorTypeName refused ++ gap ::
    m.functions.flatMap fun f => (f.safe s.options.apiPath).lines s.options.errorTypeName

theorem outer_safeNumbers : safeNumbers.Outer := by constructor <;> decide

section

variable {s : Setting} {m : Model}

theorem safe_infix {f : Function} (hf : f ∈ m.functions) (refused : String) :
    (f.safe s.options.apiPath).lines s.options.errorTypeName <:+: safeLines s m refused := by
  have hfunctions := infix_flatMap (fun f : Function =>
    (f.safe s.options.apiPath).lines s.options.errorTypeName) hf
  unfold safeLines
  exact hfunctions.trans ((List.suffix_cons _ _).trans (List.suffix_append _ _)).isInfix

theorem unbroken_width (w : Width) : Unbroken w.rust := by cases w <;> decide

theorem Model.WellFormed.unbroken_returns (hm : m.WellFormed) {f : Function} (hf : f ∈ m.functions)
    (api : String) : Unbroken (f.safe api).returns.rust := by
  have hw := hm.function hf
  unfold Function.safe
  dsimp only
  cases hreturns : f.returns with
  | none => decide
  | some t =>
    have hlength := unbroken_of_wordy (hm.wordy_lengthConstant (hw.returns t hreturns))
    show Unbroken (t.safeReturn t.lengthConstant).rust
    unfold TypeDef.safeReturn
    cases t.shape.valueWidth? with
    | some w => exact unbroken_width w
    | none =>
      show Unbroken ("[u8; " ++ Naming.lengthConstant t.name ++ "]")
      simp +decide only [unbroken_append, hlength, and_self]

theorem Model.WellFormed.unbroken_prepared (hm : m.WellFormed) {f : Function}
    (hf : f ∈ m.functions) (api : String) {p : Prepare} (hp : p ∈ (f.safe api).prepared) :
    Unbroken p.statement := by
  obtain ⟨q, hq, hp⟩ := List.mem_flatMap.1 hp
  have hname := hm.unbroken_parameter hf hq
  have hw := hm.function hf
  have hlength := unbroken_of_wordy (hm.wordy_lengthConstant (hw.parameters q hq).2)
  have hsize : Unbroken (q.type.size.spell Naming.lengthConstant) := by
    unfold TypeDef.size
    split
    · exact hlength
    · exact unbroken_integer _
  unfold Parameter.prepare at hp
  cases hpass : q.passing with
  | inBuffer =>
    rw [hpass] at hp
    obtain rfl := List.mem_singleton.1 hp
    simp +decide only [Prepare.statement, valueLocal, arrayType, inParens, unbroken_append, hname,
      hlength, and_self]
  | inValue w =>
    rw [hpass] at hp
    nomatch hp
  | outBuffer =>
    have hcheck : Unbroken (Prepare.checkOutput q.name q.type.size).statement := by
      have hcommas : Unbroken (commas [q.name, q.type.size.spell Naming.lengthConstant]) :=
        unbroken_commas (by simp [hname, hsize])
      simp +decide only [Prepare.statement, inParens, unbroken_append, hcommas, and_self]
    rw [hpass] at hp
    cases hwidth : q.type.shape.valueWidth? with
    | none =>
      rw [hwidth] at hp
      rcases List.mem_cons.1 hp with rfl | hp
      · exact hcheck
      · obtain rfl := List.mem_singleton.1 hp
        simp +decide only [Prepare.statement, valueLocal, unbroken_append, hname, hlength, and_self]
    | some w =>
      rw [hwidth] at hp
      rcases List.mem_cons.1 hp with rfl | hp
      · exact hcheck
      · obtain rfl := List.mem_singleton.1 hp
        have hrust := unbroken_width w
        simp +decide only [Prepare.statement, valueLocal, unbroken_append, hname, hrust, and_self]

theorem Model.WellFormed.unbroken_call (hm : m.WellFormed) {f : Function} (hf : f ∈ m.functions)
    {api : String} (hapi : Unbroken api) : Unbroken (f.safe api).call := by
  have hmodule := unbroken_of_wordy (wordy_of_plain (hm.named hf).module)
  have hname := unbroken_of_wordy (wordy_snakeCase (hm.named hf).name)
  have hpassed : Unbroken (commas ((f.safe api).passed.map (·.expression))) := by
    refine unbroken_commas (List.forall_mem_map.2 (List.forall_mem_map.2 fun p hp => ?_))
    have hparameter := hm.unbroken_parameter hf hp
    unfold Parameter.libraryArg
    cases p.passing <;>
      simp +decide only [LibraryArg.expression, valueLocal, unbroken_append, hparameter, and_self]
  show Unbroken (api ++ "::" ++ f.module ++ "::" ++ snakeCase f.name ++ ("(" ++ _ ++ ")"))
  simp +decide only [unbroken_append, hapi, hmodule, hname, hpassed, and_self]

theorem Model.WellFormed.unbroken_conclusion (hm : m.WellFormed) {f : Function}
    (hf : f ∈ m.functions) {api : String} (hapi : Unbroken api) :
    ∀ text ∈ (f.safe api).conclusion, Unbroken text := by
  have hcall := hm.unbroken_call hf hapi
  unfold SafeFunction.conclusion
  split
  · refine List.forall_mem_singleton.2 ?_
    split
    · exact hcall
    · simp +decide only [inParens, unbroken_append, hcall, and_self]
  · refine List.forall_mem_cons.2 ⟨?_, List.forall_mem_append.2 ⟨?_, ?_⟩⟩
    · refine unbroken_append.2 ⟨unbroken_append.2 ⟨unbroken_append.2 ⟨?_, hcall⟩, ?_⟩, by decide⟩ <;>
        split <;> decide
    · refine List.forall_mem_map.2 (List.forall_mem_map.2 fun p hp => ?_)
      have hname := hm.unbroken_parameter hf (List.mem_filter.1 hp).1
      cases p.type.store <;>
        simp +decide only [Store.statement, valueLocal, unbroken_append, hname, and_self]
    · refine List.forall_mem_singleton.2 ?_
      split <;> decide

theorem Model.WellFormed.skipsAll_safe (hm : m.WellFormed) {f : Function} (hf : f ∈ m.functions)
    {api errorType : String} (hapi : Unbroken api) (herror : Unbroken errorType) :
    safeNumbers.SkipsAll ((f.safe api).lines errorType) := by
  have hr := outer_safeNumbers
  have happart : Apart safeNumbers.head "pub fn " := by decide
  have hsymbol : Unbroken f.safeSymbol := by
    have hmodule := unbroken_of_wordy (wordy_of_plain (hm.named hf).module)
    have hname := unbroken_of_wordy (wordy_of_plain (hm.named hf).name)
    simp +decide only [Function.safeSymbol, unbroken_append, hmodule, hname, and_self]
  have hparameters : Unbroken (commas ((f.safe api).parameters.map fun p => p.1 ++ ": " ++ p.2.rust)) := by
    refine unbroken_commas (List.forall_mem_map.2 (List.forall_mem_map.2 fun p hp => ?_))
    have hname := hm.unbroken_parameter hf hp
    have htype : Unbroken p.safeType.rust := by
      unfold Parameter.safeType
      cases p.passing with
      | inValue w => exact unbroken_width w
      | _ => decide
    simp +decide only [unbroken_append, hname, htype, and_self]
  have hreturns := hm.unbroken_returns hf api
  unfold SafeFunction.lines
  refine .append (.block hr (((((((happart.append _).append _).append _).append _).append _).append _).append
    _) ?_ (.map ?_)) (.cons (.gap hr) .nil)
  · show Unbroken ("pub fn " ++ f.safeSymbol ++ ("(" ++ _ ++ ")") ++ " -> Result<" ++ _ ++ ", " ++
      errorType ++ ">")
    simp +decide only [unbroken_append, hsymbol, hparameters, hreturns, herror, and_self]
  · refine List.forall_mem_append.2 ⟨List.forall_mem_map.2 fun p hp => ?_, ?_⟩
    · exact hm.unbroken_prepared hf api hp
    · exact hm.unbroken_conclusion hf hapi

theorem skipsAll_safeHelpers {errorType refused : String} (herror : Unbroken errorType)
    (hrefused : Unbroken refused) :
    safeNumbers.SkipsAll (fixedHelper errorType refused ++ gap ::
      checkOutputHelper errorType refused) := by
  have hr := outer_safeNumbers
  have hfixed : Apart safeNumbers.head "fn fixed<const N: usize>(bytes: &[u8]) -> Result<[u8; N], " := by
    decide
  have hcheck : Apart safeNumbers.head
      "fn check_output(bytes: &[u8], expected: usize) -> Result<(), " := by decide
  refine .append (.block hr ((hfixed.append _).append _) ?_ (.cons ?_ .nil))
    (.cons (.gap hr) (.block hr ((hcheck.append _).append _) ?_
      (.append (.append (.cons (by decide) (by decide)) (.cons (by decide)
        (.indent (.cons ?_ .nil)))) (by decide))))
  · simp +decide only [unbroken_append, herror, and_self]
  · show Unbroken ("bytes.try_into().map_err(|_| " ++ errorType ++ "::" ++ refused ++ ")")
    simp +decide only [unbroken_append, herror, hrefused, and_self]
  · simp +decide only [unbroken_append, herror, and_self]
  · show Unbroken ("Err(" ++ errorType ++ "::" ++ refused ++ ")")
    simp +decide only [unbroken_append, herror, hrefused, and_self]

theorem Model.WellFormed.wordy_safeConstant (hm : m.WellFormed) {c : String × Nat}
    (hc : c ∈ safeConstants m) : Wordy c.1.toList := by
  rcases List.mem_append.1 hc with hc | hc
  · obtain ⟨t, ht, rfl⟩ := List.mem_map.1 hc
    exact hm.wordy_lengthConstant (List.mem_filter.1 ht).1
  · obtain ⟨t, ht, rfl⟩ := List.mem_map.1 hc
    exact hm.wordy_countConstant (List.mem_filter.1 ht).1

/-- What the safe layer defines. -/
theorem readLines_safe (hs : s.Harmless) (hm : m.WellFormed) {refused : String}
    (hrefused : Unbroken refused) :
    safeNumbers.readLines (safeLines s m refused) = headerLengths m ++ enumCounts m := by
  have hr := outer_safeNumbers
  have hpath := unbroken_of_isPath hs.options.errorType
  have hconstants : safeNumbers.readLines ((safeConstants m).map fun c =>
      line ("pub const " ++ c.1 ++ ": usize = " ++ Decimal.integer c.2 ++ ";")) =
      headerLengths m ++ enumCounts m := by
    have hnumbers : headerLengths m ++ enumCounts m =
        (safeConstants m).map fun c => (c.1, (c.2 : Int)) := by
      unfold headerLengths enumCounts safeConstants
      rw [List.map_append, List.map_map, List.map_map]
      rfl
    rw [hnumbers]
    refine Reader.readLines_map fun c hc => ?_
    have hname := unbroken_of_wordy (hm.wordy_safeConstant hc)
    refine Reader.readLine_numbered ";" ?_ ?_ (hm.wordy_safeConstant hc) (by decide) (by decide)
      (by decide)
    · simp only [String.append_assoc]
    · simp +decide only [unbroken_append, hname, unbroken_integer, and_self]
  have htop : safeNumbers.SkipsAll (Source.lines ["#![allow(non_snake_case)]", "",
      "use std::convert::TryInto;", "", "use " ++ s.options.errorType ++ ";", ""]) := by
    have happart : Apart safeNumbers.head "use " := by decide
    refine .cons (by decide) (.cons (by decide) (.cons (by decide) (.cons (by decide) (.cons ?_
      (.cons (.gap hr) .nil)))))
    refine Reader.skips_line ?_ ((happart.append _).append _)
    simp +decide only [unbroken_append, hpath, and_self]
  have hfunctions : safeNumbers.SkipsAll (m.functions.flatMap fun f =>
      (f.safe s.options.apiPath).lines s.options.errorTypeName) :=
    .flatMap fun f hf => hm.skipsAll_safe hf (unbroken_of_isPath hs.options.apiPath)
      hs.unbroken_errorTypeName
  have hlines : safeLines s m refused = Source.lines ["#![allow(non_snake_case)]", "",
      "use std::convert::TryInto;", "", "use " ++ s.options.errorType ++ ";", ""] ++
      (safeConstants m).map (fun c =>
        line ("pub const " ++ c.1 ++ ": usize = " ++ Decimal.integer c.2 ++ ";")) ++
      (gap :: ((fixedHelper s.options.errorTypeName refused ++ gap ::
        checkOutputHelper s.options.errorTypeName refused) ++ gap ::
        m.functions.flatMap fun f => (f.safe s.options.apiPath).lines s.options.errorTypeName)) := by
    simp only [safeLines, List.append_assoc, List.cons_append]
  have hrest := Reader.SkipsAll.cons (.gap hr) ((skipsAll_safeHelpers hs.unbroken_errorTypeName
    hrefused).append (.cons (.gap hr) hfunctions))
  rw [hlines, Reader.readLines_append, hrest.readLines, Reader.readLines_append, htop.readLines,
    hconstants, List.nil_append, List.append_nil]

/-! ## The Java class of a buffer -/

/-- The lines of the Java class of a buffer. -/
def bufferClassLines (s : Setting) (home name : String) (size : Nat) : List Line :=
  line ("package " ++ s.package home ++ ";") :: gap ::
    (Source.lines ["import " ++ s.baseClass s.codes.invalidInput.exceptionName ++ ";",
      "import " ++ s.package Model.internalModule ++ ".ByteArray;", ""] ++
    block ("public final class " ++ name ++ " extends ByteArray")
      (Source.lines ["", "public static final int SIZE = " ++ Decimal.integer size ++ ";", ""] ++
        block ("public " ++ name ++ "(byte[] contents) throws " ++
            s.codes.invalidInput.exceptionName)
          (Source.lines ["super(contents, SIZE);"])))

/-- Where the Java class of a type stands. -/
def javaTypeFile (home type : String) : String := "java/" ++ home ++ "/" ++ type ++ ".java"

theorem javaTypeFile_eq (home type : String) :
    javaTypeFile home type = javaDir ++ "/" ++ javaTypePath home type ++ ".java" := by
  have hdir : javaDir ++ "/" = "java/" := by decide
  rw [hdir, javaTypePath, javaTypeFile]
  simp only [String.append_assoc]

theorem bufferClass_eq (home name : String) (size : Nat) :
    bufferClass s home name size = s.file (javaTypeFile home name) (bufferClassLines s home name size) := by
  rw [javaTypeFile_eq]
  rfl

/-- The constructor of the class is no constant. -/
theorem skipsAll_bufferConstructor {name refused : String} (hname : Naming.isTypeName name = true)
    (hrefused : Unbroken refused) : (Reader.numbered "public static final int " " = ").SkipsAll
      (block ("public " ++ name ++ "(byte[] contents) throws " ++ refused)
        (Source.lines ["super(contents, SIZE);"])) := by
  have hunbroken := unbroken_of_wordy (wordy_of_plain (plain_of_isTypeName hname))
  -- A class starts with a capital, so its constructor does not look like a constant.
  have happart : Apart "public static final int " ("public " ++ name) := by
    obtain ⟨c, t, hc, hupper⟩ := exists_upper_of_isTypeName hname
    refine Apart.of_char (c := 's') (s := "tatic final int ".toList) (d := c) (t := t)
      (by decide : _ = "public ".toList ++ 's' :: "tatic final int ".toList) ?_ ?_
    · rw [String.toList_append, hc]
    · rintro rfl
      exact absurd hupper (by decide)
  refine .block outer_javaNumber ((happart.append _).append _) ?_ (by decide)
  simp +decide only [unbroken_append, hunbroken, hrefused, and_self]

/-- What the Java class of a buffer defines. -/
theorem readLines_bufferClass (hs : s.Harmless) {home name : String} (hhome : Unbroken home)
    (hname : Naming.isTypeName name = true) (size : Nat) :
    javaNumbers.readLines (bufferClassLines s home name size) = [("SIZE", (size : Int))] := by
  have hr := outer_javaNumber
  have hpackage := unbroken_of_isPackageName hs.options.javaPackage
  have hrefused := unbroken_of_wordy (hs.usable.wordy_exceptionName hs.refused_mem)
  have hunbroken := unbroken_of_wordy (wordy_of_plain (plain_of_isTypeName hname))
  have hplace : Unbroken (s.package home) := by
    simp +decide only [Setting.package, unbroken_append, hpackage, hhome, and_self]
  have himports : javaNumbers.SkipsAll (Source.lines
      ["import " ++ s.baseClass s.codes.invalidInput.exceptionName ++ ";",
        "import " ++ s.package Model.internalModule ++ ".ByteArray;", ""]) := by
    have happart : Apart javaNumbers.head "import " := by decide
    refine .cons (Reader.skips_line ?_ ((happart.append _).append _))
      (.cons (Reader.skips_line ?_ ((happart.append _).append _)) (by decide))
    · simp +decide only [Setting.baseClass, unbroken_append, hpackage, hrefused, and_self]
    · simp +decide only [Setting.package, unbroken_append, hpackage, and_self]
  have hmake := skipsAll_bufferConstructor hname hrefused
  have hsize : (Reader.numbered "public static final int " " = ").readLines (Source.lines
      ["", "public static final int SIZE = " ++ Decimal.integer size ++ ";", ""]) =
      [("SIZE", (size : Int))] := by
    have hgap := (Reader.Skips.gap hr).readLine
    show (Reader.numbered "public static final int " " = ").readLines (gap ::
      line ("public static final int " ++ "SIZE" ++ " = " ++ Decimal.integer size ++ ";") ::
        [gap]) = _
    rw [Reader.readLines_cons, hgap, Reader.readLines_cons, readLine_javaNumber (by decide),
      Reader.readLines_cons, hgap]
    rfl
  have hnumber : Unbroken ("public static final int " ++ "SIZE" ++ " = " ++ Decimal.integer size ++ ";") :=
    unbroken_javaNumber (by decide) size
  have hbody : OneLined (Source.lines ["", "public static final int SIZE = " ++
      Decimal.integer size ++ ";", ""] ++ block ("public " ++ name ++ "(byte[] contents) throws " ++
        s.codes.invalidInput.exceptionName) (Source.lines ["super(contents, SIZE);"])) :=
    .append (.cons (by decide) (.cons hnumber (by decide)))
      fun l hl => (hmake l hl).unbroken
  have hhead : Unbroken ("public final class " ++ name ++ " extends ByteArray") := by
    simp +decide only [unbroken_append, hunbroken, and_self]
  have hgap : javaNumbers.Skips gap := by decide
  unfold bufferClassLines
  rw [Reader.readLines_cons, (skips_package hplace).readLine, Reader.readLines_cons, hgap.readLine,
    Reader.readLines_append, himports.readLines]
  unfold javaNumbers
  rw [Reader.readLines_block hr.head hhead (by rw [String.toList_append, String.toList_append]; rfl) hbody,
    Reader.readLines_append, hsize, hmake.readLines]
  rfl

/-! ## The Swift type of a buffer -/

/-- What the sizes of Swift types are taken from. -/
def swiftSizes : Reader String := (Reader.named "public static let SIZE = Int(").deeper

/-- The lines of the Swift type of a buffer. -/
def bufferStructLines (name : String) : List Line :=
  block ("public struct " ++ name ++ ": ByteArrayValue")
    (Source.lines ["public static let SIZE = Int" ++ inParens (Naming.lengthConstant name), "",
        "public let contents: [UInt8]", ""] ++
      block "public init(contents: [UInt8]) throws" (Source.lines
        ["try " ++ name ++ ".checkLength(contents)", "self.contents = contents"]))

/-- Where the Swift type of a type stands. -/
def swiftTypeFile (type : String) : String := "swift/" ++ type ++ ".swift"

theorem bufferStruct_eq (name : String) :
    bufferStruct s name = s.file (swiftTypeFile name) (bufferStructLines name) := rfl

/-- What the size of the Swift type of a buffer is taken from. -/
theorem readLines_bufferStruct {name : String} (hname : Naming.isTypeName name = true) :
    swiftSizes.readLines (bufferStructLines name) = [Naming.lengthConstant name] := by
  have hr : (Reader.named "public static let SIZE = Int(").Outer := by constructor <;> decide
  have hplain := plain_of_isTypeName hname
  have hunbroken := unbroken_of_wordy (wordy_of_plain hplain)
  have hconstant : Wordy (Naming.lengthConstant name).toList := by
    rw [Naming.lengthConstant, String.toList_append]
    exact (wordy_stem hplain).append (by decide)
  have hne : Naming.lengthConstant name ≠ "" := by
    intro hempty
    have hnil := congrArg String.toList hempty
    rw [Naming.lengthConstant, String.toList_append] at hnil
    exact absurd (List.append_eq_nil_iff.1 hnil).2 (by decide)
  have hline : Unbroken ("public static let SIZE = Int" ++ inParens (Naming.lengthConstant name)) := by
    have hlength := unbroken_of_wordy hconstant
    simp +decide only [inParens, unbroken_append, hlength, and_self]
  have hsize : (Reader.named "public static let SIZE = Int(").readLine
      (line ("public static let SIZE = Int" ++ inParens (Naming.lengthConstant name))) =
      [Naming.lengthConstant name] := by
    refine Reader.readLine_named ")" ?_ hline hconstant hne (by decide)
    have hopen : "public static let SIZE = Int(" = "public static let SIZE = Int" ++ "(" := by decide
    rw [hopen, inParens]
    simp only [String.append_assoc]
  have hrest : (Reader.named "public static let SIZE = Int(").SkipsAll
      (Source.lines ["", "public let contents: [UInt8]", ""] ++
        block "public init(contents: [UInt8]) throws" (Source.lines
          ["try " ++ name ++ ".checkLength(contents)", "self.contents = contents"])) := by
    refine .append (by decide) (.block hr (by decide) (by decide) (.cons ?_ (by decide)))
    show Unbroken ("try " ++ name ++ ".checkLength(contents)")
    simp +decide only [unbroken_append, hunbroken, and_self]
  have hhead : Unbroken ("public struct " ++ name ++ ": ByteArrayValue") := by
    simp +decide only [unbroken_append, hunbroken, and_self]
  have hlines : bufferStructLines name = block ("public struct " ++ name ++ ": ByteArrayValue")
      (line ("public static let SIZE = Int" ++ inParens (Naming.lengthConstant name)) ::
        (Source.lines ["", "public let contents: [UInt8]", ""] ++
          block "public init(contents: [UInt8]) throws" (Source.lines
            ["try " ++ name ++ ".checkLength(contents)", "self.contents = contents"]))) := rfl
  have hbody : OneLined (line ("public static let SIZE = Int" ++
      inParens (Naming.lengthConstant name)) :: (Source.lines ["", "public let contents: [UInt8]", ""] ++
        block "public init(contents: [UInt8]) throws" (Source.lines
          ["try " ++ name ++ ".checkLength(contents)", "self.contents = contents"]))) :=
    .cons hline fun l hl => (hrest l hl).unbroken
  have hblock : ("public struct " ++ name ++ ": ByteArrayValue").toList.head?.any (· != ' ') = true := by
    rw [String.toList_append, String.toList_append]
    rfl
  rw [hlines]
  unfold swiftSizes
  rw [Reader.readLines_block hr.head hhead hblock hbody, Reader.readLines_cons, hsize, hrest.readLines]
  rfl

end

end Bindery
