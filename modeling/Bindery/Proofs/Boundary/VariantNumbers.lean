/-
  ONE NUMBER FOR A VARIANT, in all languages.

  A variant crosses the boundary as one byte, and three parties take the byte in.  The exported layer
  asks a helper that compares it with the number of variants, a Java enumeration goes through its
  constants for the one with this number, and a Swift enumeration through its cases.  The comparison of
  the helper, number, constants and cases are read off the lines that state them.

  Two renamings stand between a variant and its names, and neither of them keeps names apart by itself:
  `FooBar` and `FOOBar` are one constant.  What keeps them apart is that each variant was checked against
  all that was generated for those before it (`VariantsApart`).
-/
import Bindery.Proofs.Boundary.WrapperMeasures
import Bindery.Proofs.Source.Deciding
import Bindery.Proofs.Source.Reading

namespace Bindery

open Naming Source Target

/-! ## Names in order -/

/-- Names with the numbers of their places. -/
def inOrder (names : List String) : List (String × Int) :=
  names.zipIdx.map fun x => (x.1, (x.2 : Int))

/-- The first name with the number. -/
def nameOf? (named : List (String × Int)) (b : Nat) : Option String :=
  (named.find? fun x => x.2 == (b : Int)).map Prod.fst

/-- A number stands for the name at its place. -/
theorem nameOf?_inOrder (names : List String) (b : Nat) : nameOf? (inOrder names) b = names[b]? := by
  -- The names go on from any number, and the number that is looked for is so much greater.
  have hfrom : ∀ k b : Nat, nameOf? ((names.zipIdx k).map fun x => (x.1, (x.2 : Int))) (b + k) =
      names[b]? := by
    induction names with
    | nil => exact fun _ _ => rfl
    | cons name names ih =>
      intro k b
      unfold nameOf? at ih ⊢
      rw [List.zipIdx_cons, List.map_cons]
      cases b with
      | zero =>
        rw [List.find?_cons_of_pos (by simp)]
        rfl
      | succ b =>
        have hnext : b + 1 + k = b + (k + 1) := by omega
        have hother : (k : Int) ≠ ((b + 1 + k : Nat) : Int) := by omega
        rw [List.find?_cons_of_neg (by simpa using hother), hnext, ih (k + 1) b,
          List.getElem?_cons_succ]
  exact hfrom 0 b

theorem lt_of_mem_inOrder {variants : List String} {spell : String → String} {x : String × Int}
    (hx : x ∈ inOrder (variants.map spell)) : 0 ≤ x.2 ∧ x.2 < variants.length := by
  obtain ⟨y, hy, rfl⟩ := List.mem_map.1 hx
  have hlt := List.snd_lt_of_mem_zipIdx hy
  rw [List.length_map] at hlt
  dsimp only
  omega

/-! ## Names of variants -/

section

variable {v : String} {variants : List String}

theorem plain_of_isVariantName (h : isVariantName v = true) : Plain v.toList :=
  plain_of_spelled (fun c hc => by rw [Char.isAlphanum, hc, Bool.true_or]) (fun _ h => h) h

theorem wordy_variantConstant (h : isVariantName v = true) : Wordy (variantConstant v).toList :=
  wordy_stem (plain_of_isVariantName h)

theorem wordy_variantCase (h : isVariantName v = true) : Wordy (variantCase v).toList := by
  have hplain := plain_of_isVariantName h
  unfold variantCase uncapitalize
  cases hv : v.toList with
  | nil =>
    rw [hv]
    exact fun _ hc => absurd hc List.not_mem_nil
  | cons c s =>
    rw [hv] at hplain
    have hc : c.isAlphanum = true := hplain c List.mem_cons_self
    have hsmall : Text.lowerChar c = [c.toLower] := if_pos (toNat_lt_of_isAlphanum hc)
    rw [String.toList_ofList, hsmall]
    refine List.forall_mem_cons.2 ⟨?_, fun d hd => wordy_of_plain hplain d (List.mem_cons_of_mem _ hd)⟩
    rw [isIdentifierChar, isAlphanum_toLower hc, Bool.true_or]

namespace VariantsWellFormed

/-- Different variants are different constants. -/
theorem nodup_constants (h : VariantsWellFormed variants) : (variants.map variantConstant).Nodup :=
  List.pairwise_map.2 (h.apart.imp fun {v w} hapart heq =>
    hapart (variantConstant w) (by simp [variantForms]) (by simp [variantForms, heq]))

/-- Different variants are different cases. -/
theorem nodup_cases (h : VariantsWellFormed variants) : (variants.map variantCase).Nodup :=
  List.pairwise_map.2 (h.apart.imp fun {v w} hapart heq =>
    hapart (variantCase w) (by simp [variantForms]) (by simp [variantForms, heq]))

end VariantsWellFormed

-- Names that differ can be one constant, or one case.
example : variantConstant "FooBar" = variantConstant "FOOBar" ∧
    variantCase "Bell" = variantCase "bell" := by decide +kernel

end

/-! ## The Java class -/

/-- The constants of a Java enumeration, each with its number in parentheses. -/
def enumConstants : Reader (String × Int) := .numbered "" "("

/-- The method of a Java enumeration that goes through the constants for a number. -/
def fromValueLines (s : Setting) (name : String) : List Line :=
  let refused := s.codes.invalidInput.exceptionName
  block ("public static " ++ name ++ " fromValue(int value) throws " ++ refused)
    (block ("for (" ++ name ++ " e : values())")
        (Source.lines ["if (e.value == value) return e;"]) ++
      line ("throw new " ++ refused ++ "(" ++ codeConstant s.refused ++ ",") ::
      indent (Source.lines ["\"Unknown " ++ name ++ " value: \" + value);"]))

/-- What a constant of a Java enumeration is made of: its number is its value. -/
def enumConstructor (name : String) : List Line :=
  block (name ++ "(int value)") (Source.lines ["this.value = value;"])

/-- What stands in the block of a Java enumeration. -/
def enumBody (s : Setting) (name : String) (variants : List String) : List Line :=
  javaConstantLines (javaConstants variants) ++
    (Source.lines ["", "private final int value;", ""] ++
      (enumConstructor name ++
        gap :: (block "public int getValue()" (Source.lines ["return value;"]) ++
          gap :: fromValueLines s name)))

/-- The lines of the Java class of an enumeration. -/
def enumClassLines (s : Setting) (home name : String) (variants : List String) : List Line :=
  line ("package " ++ s.package home ++ ";") :: gap ::
    (Source.lines ["import " ++ s.baseClass s.codes.invalidInput.exceptionName ++ ";",
      "import " ++ s.baseClass baseException ++ ";", ""] ++
    block ("public enum " ++ name) (enumBody s name variants))

section

variable {s : Setting} {name : String} {variants : List String}

theorem enumClass_eq (home name : String) (variants : List String) :
    enumClass s home name variants =
      s.file (javaTypeFile home name) (enumClassLines s home name variants) := by
  rw [javaTypeFile_eq, enumClassLines, enumBody, enumConstructor]
  unfold enumClass
  simp only [List.append_assoc, List.cons_append]
  rfl

theorem ignores_enumConstants {text : String} (h : (behindWord text).head? ≠ some '(') :
    enumConstants.Ignores text := by
  have hother : ¬ "(".toList <+: text.toList.dropWhile isIdentifierChar := by
    rintro ⟨more, hmore⟩
    refine h ?_
    rw [behindWord, ← hmore]
    rfl
  show (if ([] : List Char) <+: text.toList then _ else none) = none
  rw [if_pos (List.nil_prefix)]
  exact if_neg hother

/-- The constants are read off the lines that declare them, to the last one. -/
theorem readAt_javaConstantLines {constants : List (String × Nat)}
    (h : ∀ c ∈ constants, Wordy c.1.toList) :
    enumConstants.readAt 0 (javaConstantLines constants) =
      constants.map fun c => (c.1, (c.2 : Int)) := by
  have hline : ∀ (c : String × Nat) (stop : String), Wordy c.1.toList →
      enumConstants.read? (c.1 ++ inParens (Decimal.integer c.2) ++ stop).toList =
        some (c.1, (c.2 : Int)) := by
    intro c stop hc
    have hread : c.1 ++ inParens (Decimal.integer c.2) ++ stop =
        "" ++ (c.1 ++ ("(" ++ (Decimal.integer c.2 ++ (")" ++ stop)))) := by
      simp only [inParens, String.append_assoc, String.empty_append]
    exact Reader.read?_numbered _ hread hc (by decide) (by decide) (stops_append (by decide) _)
  induction constants using javaConstantLines.induct with
  | case1 => rfl
  | case2 c =>
    rw [javaConstantLines, Reader.readAt_line, hline c ";" (h c List.mem_cons_self)]
    rfl
  | case3 c constants hne ih =>
    obtain ⟨hc, hconstants⟩ := List.forall_mem_cons.1 h
    rw [javaConstantLines.eq_3 _ _ hne, Reader.readAt_line, hline c "," hc, ih hconstants]
    rfl

/-- What a Java enumeration declares. -/
theorem readAt_enumClass (home : String) (hname : isTypeName name = true)
    (hvariants : ∀ v ∈ variants, isVariantName v = true) :
    enumConstants.readAt 1 (enumClassLines s home name variants) =
      inOrder (variants.map variantConstant) := by
  have hword := wordy_of_plain (plain_of_isTypeName hname)
  have hconstants : ∀ c ∈ javaConstants variants, Wordy c.1.toList := by
    intro c hc
    obtain ⟨v, hv, heq⟩ := List.mem_map.1 (List.fst_mem_of_mem_zipIdx hc)
    rw [← heq]
    exact wordy_variantConstant (hvariants v hv)
  -- There is a parenthesis behind the name of the constructor, but no number in it.
  have hmake : enumConstants.Ignores (name ++ "(int value)" ++ " " ++ opening) := by
    have hnumber : integerAt? "int value) \x7b".toList = none := by decide
    refine (Reader.read?_numbered_append ?_ hword (by decide) (by decide)).trans
      (congrArg (Option.map fun n => (name, n)) hnumber)
    have hread : "(int value)" ++ (" " ++ opening) = "(" ++ "int value) \x7b" := by decide
    rw [String.append_assoc, String.append_assoc, hread, String.empty_append]
  have hpublic : ∀ rest : String, enumConstants.Ignores ("public" ++ (" " ++ rest)) := by
    intro rest
    have hstops : Text.Stops isIdentifierChar (" " ++ rest).toList := stops_append (by decide) _
    refine ignores_enumConstants ?_
    rw [behindWord_append (by decide) hstops, String.toList_append]
    exact fun hhead => absurd (Option.some.inj hhead) (by decide)
  have hfind : enumConstants.Ignores ("public static " ++ name ++ " fromValue(int value) throws " ++
      s.codes.invalidInput.exceptionName ++ " " ++ opening) := by
    have hread : "public static " = "public" ++ (" " ++ "static ") := by decide
    rw [hread]
    simp only [String.append_assoc]
    exact hpublic _
  have hrest : enumConstants.readAt 0 (Source.lines ["", "private final int value;", ""] ++
      (enumConstructor name ++
        gap :: (block "public int getValue()" (Source.lines ["return value;"]) ++
          gap :: fromValueLines s name))) = [] := by
    refine Reader.readAt_eq_nil ?_
    have hempty : enumConstants.Ignores "" := by decide
    have hgap : gap = line "" := rfl
    have hclosing : enumConstants.Ignores closing := by decide
    simp only [enumConstructor, fromValueLines, hgap, textsAt_append, textsAt_lines, textsAt_block_zero,
      textsAt_line_zero]
    simp only [List.forall_mem_append, List.forall_mem_cons, hempty, hclosing, hmake, hfind,
      List.not_mem_nil, false_implies, implies_true, and_true, true_and]
    exact ⟨by decide, hpublic "int getValue() \x7b"⟩
  have hlines : enumConstants.readAt 1 (enumClassLines s home name variants) =
      enumConstants.readAt 0 (enumBody s name variants) := by
    unfold enumClassLines
    simp [Reader.readAt]
  rw [hlines, enumBody, Reader.readAt_append, readAt_javaConstantLines hconstants, hrest,
    List.append_nil]
  rfl

end

/-! ## The Swift type -/

/-- The cases of a Swift enumeration with their raw values. -/
def enumCases : Reader (String × Int) := .numbered "case " " = "

/-- The lines of the Swift type of an enumeration. -/
def swiftEnumLines (name : String) (variants : List String) : List Line :=
  block ("public enum " ++ name ++ ": UInt8")
    ((swiftCases variants).map fun c => line ("case " ++ c.1 ++ " = " ++ Decimal.integer c.2))

/-- How Swift takes in a byte: by the raw value. -/
def decodeEnumLines (s : Setting) : List Line :=
  block
    "func decodeEnum<T: RawRepresentable>(_ bytes: [UInt8]) throws -> T where T.RawValue == UInt8"
    (block "guard let value = T(rawValue: bytes[0]) else"
        (Source.lines ["throw " ++ swiftError ++ "." ++ s.codes.internalError.caseName]) ++
      [line "return value"])

theorem exists_swiftDecode (s : Setting) : ∃ body,
    swiftByteArrayFile s = s.file "swift/ByteArray.swift" body ∧ decodeEnumLines s <:+: body := by
  have hpath : "swift/ByteArray.swift" = swiftDir ++ "/" ++ "ByteArray" ++ ".swift" := by decide
  rw [hpath]
  exact ⟨_, rfl, ((List.suffix_cons gap _).trans (List.suffix_append _ _)).isInfix⟩

theorem swiftEnum_eq (s : Setting) (name : String) (variants : List String) :
    swiftEnum s name variants = s.file (swiftTypeFile name) (swiftEnumLines name variants) := rfl

/-- What a Swift enumeration declares. -/
theorem readAt_swiftEnum (name : String) {variants : List String}
    (hvariants : ∀ v ∈ variants, isVariantName v = true) :
    enumCases.readAt 1 (swiftEnumLines name variants) = inOrder (variants.map variantCase) := by
  rw [swiftEnumLines, Reader.readAt_block]
  refine Reader.readAt_map_line fun c hc => ?_
  obtain ⟨v, hv, heq⟩ := List.mem_map.1 (List.fst_mem_of_mem_zipIdx hc)
  refine Reader.read?_numbered "" ?_ ?_ (by decide) (by decide) Text.stops_nil
  · simp only [String.append_assoc, String.append_empty]
  · rw [← heq]
    exact wordy_variantCase (hvariants v hv)

/-! ## The numbers of variants -/

/-- What the safe layer defines, under the paths by which the exported layer knows it. -/
def borrowedNumbers (safe : List Line) : List (String × Int) :=
  (safeNumbers.readAt 0 safe).map fun d => (fromSafeLayer d.1, d.2)

section

variable {s : Setting} {m : Model}

/-- The constants of the safe layer. -/
theorem readAt_safeConstants (hm : m.WellFormed) : safeNumbers.readAt 0 ((safeConstants m).map fun c =>
    line ("pub const " ++ c.1 ++ ": usize = " ++ Decimal.integer c.2 ++ ";")) =
      headerLengths m ++ enumCounts m := by
  have hnumbers : headerLengths m ++ enumCounts m = (safeConstants m).map fun c => (c.1, (c.2 : Int)) := by
    unfold headerLengths enumCounts safeConstants
    rw [List.map_append, List.map_map, List.map_map]
    rfl
  rw [hnumbers]
  refine Reader.readAt_map_line fun c hc => ?_
  refine Reader.read?_numbered ";" ?_ (hm.wordy_safeConstant hc) (by decide) (by decide) (by decide)
  simp only [String.append_assoc]

/-- The helpers that check what is passed define no numbers. -/
theorem readAt_safeHelpers (errorType refused : String) : safeNumbers.readAt 0
    (gap :: fixedHelper errorType refused ++ gap :: checkOutputHelper errorType refused ++ [gap]) = [] := by
  have hapart : Apart safeNumbers.head "fn " := by decide
  have hclosing : safeNumbers.Ignores closing := by decide
  have hempty : safeNumbers.Ignores "" := by decide
  have hgap : gap = line "" := rfl
  have hfixed : safeNumbers.Ignores ("fn fixed<const N: usize>(bytes: &[u8]) -> Result<[u8; N], " ++
      errorType ++ ">" ++ " " ++ opening) := by
    have hread : "fn fixed<const N: usize>(bytes: &[u8]) -> Result<[u8; N], " =
        "fn " ++ "fixed<const N: usize>(bytes: &[u8]) -> Result<[u8; N], " := by decide
    rw [hread]
    simp only [String.append_assoc]
    exact .of_apart (hapart.append _)
  have hcheck : safeNumbers.Ignores ("fn check_output(bytes: &[u8], expected: usize) -> Result<(), " ++
      errorType ++ ">" ++ " " ++ opening) := by
    have hread : "fn check_output(bytes: &[u8], expected: usize) -> Result<(), " =
        "fn " ++ "check_output(bytes: &[u8], expected: usize) -> Result<(), " := by decide
    rw [hread]
    simp only [String.append_assoc]
    exact .of_apart (hapart.append _)
  refine Reader.readAt_eq_nil ?_
  simp only [fixedHelper, checkOutputHelper, hgap, List.cons_append, textsAt_append, textsAt_line_zero,
    textsAt_block_zero, textsAt_nil]
  simp only [List.forall_mem_append, List.forall_mem_cons, hempty, hclosing, hfixed, hcheck,
    List.not_mem_nil, false_implies, implies_true, and_true]

/-- Neither do the functions. -/
theorem readAt_safeFunction (g : SafeFunction) (errorType : String) :
    safeNumbers.readAt 0 (g.lines errorType) = [] := by
  have hapart : Apart safeNumbers.head "pub fn " := by decide
  have hclosing : safeNumbers.Ignores closing := by decide
  have hempty : safeNumbers.Ignores "" := by decide
  have hgap : gap = line "" := rfl
  refine Reader.readAt_eq_nil ?_
  unfold SafeFunction.lines
  rw [hgap, textsAt_append, textsAt_block_zero]
  refine List.forall_mem_append.2 ⟨List.forall_mem_cons.2 ⟨?_, List.forall_mem_singleton.2 hclosing⟩,
    List.forall_mem_singleton.2 hempty⟩
  simp only [String.append_assoc]
  exact .of_apart (hapart.append _)

/-- The numbers that the safe layer defines. -/
theorem readAt_safeLines (hm : m.WellFormed) (s : Setting) (refused : String) :
    safeNumbers.readAt 0 (safeLines s m refused) = headerLengths m ++ enumCounts m := by
  have htop : safeNumbers.readAt 0 (Source.lines ["#![allow(non_snake_case)]", "",
      "use std::convert::TryInto;", "", "use " ++ s.options.errorType ++ ";", ""]) = [] := by
    have herror : safeNumbers.Ignores ("use " ++ s.options.errorType ++ ";") := by
      have hapart : Apart safeNumbers.head "use " := by decide
      rw [String.append_assoc]
      exact .of_apart (hapart.append _)
    refine Reader.readAt_eq_nil ?_
    rw [textsAt_lines]
    simp +decide only [List.forall_mem_cons, herror, and_true]
  have hfunctions : safeNumbers.readAt 0 (m.functions.flatMap fun f =>
      (f.safe s.options.apiPath).lines s.options.errorTypeName) = [] := by
    rw [Reader.readAt_flatMap, List.flatMap_eq_nil_iff]
    exact fun f _ => readAt_safeFunction _ _
  have hlines : safeLines s m refused = Source.lines ["#![allow(non_snake_case)]", "",
      "use std::convert::TryInto;", "", "use " ++ s.options.errorType ++ ";", ""] ++
      ((safeConstants m).map (fun c =>
        line ("pub const " ++ c.1 ++ ": usize = " ++ Decimal.integer c.2 ++ ";")) ++
      ((gap :: fixedHelper s.options.errorTypeName refused ++ gap ::
        checkOutputHelper s.options.errorTypeName refused ++ [gap]) ++
        m.functions.flatMap fun f => (f.safe s.options.apiPath).lines s.options.errorTypeName)) := by
    simp only [safeLines, List.append_assoc, List.cons_append, List.nil_append]
  rw [hlines, Reader.readAt_append, htop, Reader.readAt_append, readAt_safeConstants hm,
    Reader.readAt_append, readAt_safeHelpers, hfunctions, List.nil_append, List.append_nil,
    List.append_nil]

/-- The root of the exported layer is in its place. -/
theorem emitted_exportRoot (refused : String) :
    Emitted (collect (coreFiles s m refused)) s "ffiapi/ffiapi.rs" (exportRootLines s m) := by
  have hfiles : coreFiles s m refused = [] ++ s.file "ffiapi/ffiapi.rs" (exportRootLines s m) ::
      (m.modules.map (exportModule s) ++ [safeLayer s m refused]) := rfl
  rw [hfiles]
  refine emitted_of_last (List.forall_mem_append.2 ⟨List.forall_mem_map.2 fun module _ heq => ?_,
    List.forall_mem_singleton.2 (by decide : "simpleapi/simpleapi.rs" ≠ _)⟩)
  -- The path of a module goes on with an underscore.
  have hpath : "ffiapi/ffiapi" ++ ("_" ++ module.name ++ ".rs") = "ffiapi/ffiapi" ++ ".rs" := by
    have hroot : "ffiapi/ffiapi" ++ ".rs" = "ffiapi/ffiapi.rs" := by decide
    have hdir : "ffiapi/ffiapi_" = "ffiapi/ffiapi" ++ "_" := by decide
    rw [hroot, ← heq]
    show _ = exportDir ++ "/" ++ exportFile module.name
    rw [exportPath, hdir]
    simp only [String.append_assoc]
  have hlist := congrArg String.toList (append_left_cancel hpath)
  rw [String.toList_append, String.toList_append] at hlist
  exact absurd (List.cons.inj hlist).1 (by decide)

end

/-! ## The check of the exported layer -/

/-- The helper hands on a number that is less than the number of variants, and no other. -/
theorem answer?_enumHelper (s : Setting) (b n : Nat) :
    answer? (enumHelper s) "ffi_enum" [some b, some n] = some (decide (b < n)) := by
  have hhead : helperIn? ((textsAt 0 (enumHelper s)).headD "") =
      some ("ffi_enum", ["value", "variants"]) := by
    unfold enumHelper
    rw [textsAt_block_zero]
    decide +kernel
  have htexts : textsWithin (enumHelper s) = ["if (value as usize) < variants \x7b", "Ok(value)",
      "\x7d else \x7b", "Err(" ++ s.refused ++ ")", closing] := by
    have htest : "if (value as usize) < variants " ++ opening =
        "if (value as usize) < variants \x7b" := by decide
    have helse : closing ++ " else " ++ opening = "\x7d else \x7b" := by decide
    unfold enumHelper
    rw [htest, helse]
    simp [block]
  have hwords : bareWords "if (value as usize) < variants \x7b" =
      ["if", "value", "as", "usize", "<", "variants", "\x7b"] := by decide +kernel
  have hother : Apart "Ok(" "Err(" := by decide
  rw [answer?, hhead, Option.bind_some, if_pos rfl, Given.handsOn?_branches htexts (by decide)]
  · rw [Given.test?, hwords]
    rfl
  · rw [String.append_assoc]
    exact (hother.append _).1

/-! ## One enumeration -/

/-- `VariantsAgree s t variants count helper java swift` — the class and the type of an enumeration number
its variants in order, and under names of their own that all differ; so a byte that the helper hands on,
when it is called with the number of variants, has a constant and a case, and both are of the variant at
its place. -/
structure VariantsAgree (s : Setting) (t : TypeDef) (variants : List String) (count : Int)
    (helper java swift : List Line) : Prop where
  one_le : 1 ≤ variants.length
  le_max : variants.length ≤ 256
  counted : count = variants.length
  javaEnum : line ("public enum " ++ t.name ++ " " ++ opening) ∈ java
  javaConstants : enumConstants.readAt 1 java = inOrder (variants.map variantConstant)
  javaDistinct : (variants.map variantConstant).Nodup
  javaMakes : indent (enumConstructor t.name) <:+: java
  javaLookup : indent (fromValueLines s t.name) <:+: java
  swiftEnum : line ("public enum " ++ t.name ++ ": UInt8" ++ " " ++ opening) ∈ swift
  swiftCases : enumCases.readAt 1 swift = inOrder (variants.map variantCase)
  swiftDistinct : (variants.map variantCase).Nodup
  -- Who takes a byte in is told by what was read off the lines, and not by the variants.
  passes : ∀ b : Nat, (answer? helper "ffi_enum" [some b, some count.toNat] = some true ↔
      (nameOf? (enumConstants.readAt 1 java) b).isSome = true) ∧
    ((nameOf? (enumConstants.readAt 1 java) b).isSome = true ↔
      (nameOf? (enumCases.readAt 1 swift) b).isSome = true)
  same : ∀ b : Nat,
    nameOf? (enumConstants.readAt 1 java) b = (variants[b]?).map variantConstant ∧
      nameOf? (enumCases.readAt 1 swift) b = (variants[b]?).map variantCase
  fits : t.byteSize = 1 ∧
    ∀ x ∈ enumConstants.readAt 1 java ++ enumCases.readAt 1 swift, 0 ≤ x.2 ∧ x.2 < 256 ^ t.byteSize

/-- What stands in the block of a Java enumeration stands in its file. -/
theorem infix_enumClass {ls : List Line} {s : Setting} {name : String} {variants : List String}
    (h : ls <:+: enumBody s name variants) (home : String) :
    indent ls <:+: enumClassLines s home name variants :=
  (indent_infix_block h _).trans
    (((List.suffix_append _ _).trans (List.suffix_cons _ _)).trans (List.suffix_cons _ _)).isInfix

/-- A byte has the constant and the case of the variant at its place. -/
theorem nameOf?_enum {s : Setting} (home : String) {name : String} {variants : List String}
    (hname : isTypeName name = true) (hvariants : ∀ v ∈ variants, isVariantName v = true) (b : Nat) :
    nameOf? (enumConstants.readAt 1 (enumClassLines s home name variants)) b =
        (variants[b]?).map variantConstant ∧
      nameOf? (enumCases.readAt 1 (swiftEnumLines name variants)) b =
        (variants[b]?).map variantCase := by
  rw [readAt_enumClass home hname hvariants, readAt_swiftEnum name hvariants, nameOf?_inOrder,
    nameOf?_inOrder, List.getElem?_map, List.getElem?_map]
  exact ⟨rfl, rfl⟩

/-- The numbers of constants and cases are those of places. -/
theorem lt_of_mem_numbers {s : Setting} {home name : String} {variants : List String}
    (hname : isTypeName name = true) (hvariants : ∀ v ∈ variants, isVariantName v = true)
    {x : String × Int} (hx : x ∈ enumConstants.readAt 1 (enumClassLines s home name variants) ++
      enumCases.readAt 1 (swiftEnumLines name variants)) : 0 ≤ x.2 ∧ x.2 < variants.length := by
  rw [readAt_enumClass home hname hvariants, readAt_swiftEnum name hvariants] at hx
  exact (List.mem_append.1 hx).elim lt_of_mem_inOrder lt_of_mem_inOrder

theorem variantsAgree {m : Model} (hm : m.WellFormed) (s : Setting) {t : TypeDef} (ht : t ∈ m.types)
    {variants : List String} (hshape : t.shape = .enum variants) :
    VariantsAgree s t variants variants.length (enumHelper s)
      (enumClassLines s (m.homeModule t) t.name variants) (swiftEnumLines t.name variants) := by
  have htype := hm.types.each t ht
  have hvariants : VariantsWellFormed variants := by
    have hw := htype.shape
    rw [hshape] at hw
    exact hw
  have hnamed : ∀ v ∈ variants, isVariantName v = true := fun v hv => (hvariants.named v hv).1
  have hmeets := nameOf?_enum (s := s) (m.homeModule t) htype.named.1 hnamed
  constructor
  case one_le => exact hvariants.one_le
  case le_max => exact hvariants.le_max
  case counted => rfl
  case javaEnum => exact List.mem_cons_of_mem _ (List.mem_cons_of_mem _
      (List.mem_append_right _ (line_mem_block ("public enum " ++ t.name) _)))
  case javaConstants => exact readAt_enumClass _ htype.named.1 hnamed
  case javaDistinct => exact hvariants.nodup_constants
  case javaMakes =>
    exact infix_enumClass ((List.prefix_append _ _).isInfix.trans
      ((List.suffix_append _ _).trans (List.suffix_append _ _)).isInfix) _
  case javaLookup =>
    exact infix_enumClass (((List.suffix_cons _ _).trans (List.suffix_append _ _)).trans
      ((List.suffix_cons _ _).trans ((List.suffix_append _ _).trans
        ((List.suffix_append _ _).trans (List.suffix_append _ _))))).isInfix _
  case swiftEnum => exact line_mem_block ("public enum " ++ t.name ++ ": UInt8") _
  case swiftCases => exact readAt_swiftEnum t.name hnamed
  case swiftDistinct => exact hvariants.nodup_cases
  case passes =>
    intro b
    rw [(hmeets b).1, (hmeets b).2, Option.isSome_map, Option.isSome_map, Int.toNat_natCast,
      answer?_enumHelper, isSome_getElem?, Option.some_inj, decide_eq_true_iff]
    exact ⟨Iff.rfl, Iff.rfl⟩
  case same => exact hmeets
  case fits =>
    have hbyte : t.byteSize = 1 := by rw [TypeDef.byteSize, hshape]; rfl
    refine ⟨hbyte, fun x hx => ?_⟩
    have hlength := lt_of_mem_numbers htype.named.1 hnamed hx
    have hmax := hvariants.le_max
    rw [hbyte]
    unfold maxVariants at hmax
    omega

/-! ## The enumerations of a description -/

/-- `OneNumbering s m core jvm swift` — the files of the three targets number the variants of every
enumeration alike, and the exported layer checks each enumeration that comes in by the number of its
variants, which it has from the safe layer, with a helper in its root. -/
structure OneNumbering (s : Setting) (m : Model) (core jvm swift : List File) : Prop where
  decoder : ∃ body, Emitted swift s "swift/ByteArray.swift" body ∧ decodeEnumLines s <:+: body
  numbers : ∃ root helper safe, Emitted core s "ffiapi/ffiapi.rs" root ∧ helper <:+: root ∧
    Emitted core s "simpleapi/simpleapi.rs" safe ∧
    ((safeNumbers.readAt 0 safe).map Prod.fst).Nodup ∧
    (∀ module ∈ m.modules, ∃ body, Emitted core s ("ffiapi/ffiapi_" ++ module.name ++ ".rs") body ∧
      countChecks.measured (borrowedNumbers safe) body =
        module.functions.flatMap fun f => (f.arguments.filter (·.isCount)).map (·.count)) ∧
    ∀ t ∈ m.types, ∀ variants, t.shape = .enum variants → ∃ count java swiftType,
      (safeNumbers.readAt 0 safe).lookup t.countConstant = some count ∧
      Emitted jvm s (javaTypeFile (m.homeModule t) t.name) java ∧
      Emitted swift s (swiftTypeFile t.name) swiftType ∧
      VariantsAgree s t variants count helper java swiftType

theorem oneNumbering {m : Model} (hm : m.WellFormed) (s : Setting) (refused : String)
    (library : FileText) : OneNumbering s m (collect (coreFiles s m refused))
      (collect (jvmFiles s m library)) (collect (swiftFiles s m)) := by
  have hnumbers := readAt_safeLines hm s refused
  have hsafe : Emitted (collect (coreFiles s m refused)) s "simpleapi/simpleapi.rs"
      (safeLines s m refused) := emitted_of_last (List.forall_mem_nil _)
  constructor
  case decoder =>
    obtain ⟨body, hfile, hdecode⟩ := exists_swiftDecode s
    refine ⟨body, emitted_swift hm (hfile ▸ ?_), hdecode⟩
    exact List.mem_cons_of_mem _ (List.mem_cons_of_mem _ List.mem_cons_self)
  case numbers =>
    have hhelper : enumHelper s <:+: exportRootLines s m :=
      (List.suffix_cons _ _).isInfix.trans (List.suffix_append _ _).isInfix
    refine ⟨_, _, safeLines s m refused, emitted_exportRoot refused, hhelper, hsafe, ?_,
      fun module hmodule => ?_, fun t ht variants hshape => ?_⟩
    · rw [hnumbers]
      exact hm.nodup_numbers
    · refine ⟨exportLines s module, ?_, ?_⟩
      · rw [← exportPath module.name]
        exact emitted_exportModule hm.distinct refused hmodule
      · have hscope : borrowedNumbers (safeLines s m refused) = m.exportScope := by
          rw [borrowedNumbers, hnumbers]
          rfl
        rw [hscope]
        exact (measured_exportLines _ _ module).trans (List.flatMap_congr fun f hf =>
          measured_counts hm (Model.mem_functions.2 ⟨module, hmodule, hf⟩))
    · have hscalar : t.isScalar = false := by rw [TypeDef.isScalar, hshape]; rfl
      have henum : t.isEnum = true := by rw [TypeDef.isEnum, hshape]; rfl
      have hcount : (t.countConstant, (variants.length : Int)) ∈ headerLengths m ++ enumCounts m := by
        have hmem := Model.mem_enumCounts ht henum
        rw [hshape] at hmem
        exact List.mem_append_right _ hmem
      have hjava : s.file (javaTypeFile (m.homeModule t) t.name)
          (enumClassLines s (m.homeModule t) t.name variants) ∈ javaClasses s m := by
        refine List.mem_append_left _ (mem_valueFiles_home ht hscalar ?_)
        rw [← enumClass_eq, javaValueFile?, hshape]
      have hswift : s.file (swiftTypeFile t.name) (swiftEnumLines t.name variants) ∈
          swiftFiles s m := by
        refine List.mem_append_left _ (List.mem_append_right _ (mem_valueFiles_home ht hscalar ?_))
        rw [← swiftEnum_eq, swiftValueFile?, hshape]
      refine ⟨variants.length, _, _, ?_, emitted_javaClass hm library hjava, emitted_swift hm hswift,
        variantsAgree hm s ht hshape⟩
      rw [hnumbers]
      exact lookup_of_mem hm.nodup_numbers hcount

/-- **One number for a variant**, whatever the API: in what is generated from an accepted description,
Java constants, Swift cases and the exported layer agree on every byte that stands for a variant. -/
theorem variants_numbered_alike {es : List (Value × Value)} {m : Model} {o : Options} {t : ErrorTable}
    {core jvm swift : List File} (hm : Model.ofDescription es = .ok m)
    (hcore : Target.core.emit m o t = .ok core) (hjvm : Target.jvm.emit m o t = .ok jvm)
    (hswift : Target.swift.emit m o t = .ok swift) :
    ∃ s : Setting, s.For o t ∧ OneNumbering s m core jvm swift := by
  obtain ⟨s, hs, refused, library, _, rfl, rfl, rfl⟩ := emit_targets hcore hjvm hswift
  have hw : m.WellFormed := (ofDescription_eq_ok.1 hm).2
  exact ⟨s, hs, oneNumbering hw s refused library⟩

theorem variants_numbered_alike_alarm : ∃ m core jvm swift s helper java swiftType,
    Model.ofDescription alarmEntries = .ok m ∧
      (m.functions.flatMap fun f => (f.arguments.filter (·.isCount)).map (·.count)) =
        [("sound", some 2)] ∧
      OneNumbering s m core jvm swift ∧
      VariantsAgree s ⟨"Sound", .enum ["Bell", "Buzz"], none⟩ ["Bell", "Buzz"] 2 helper java
        swiftType := by
  obtain ⟨core, hcore⟩ : ∃ fs, Target.core.emit alarmModel .standard .standard = .ok fs :=
    exists_eq_ok (by decide +kernel)
  obtain ⟨jvm, hjvm⟩ : ∃ fs, Target.jvm.emit alarmModel .standard .standard = .ok fs :=
    exists_eq_ok (by decide +kernel)
  obtain ⟨swift, hswift⟩ : ∃ fs, Target.swift.emit alarmModel .standard .standard = .ok fs :=
    exists_eq_ok (by decide +kernel)
  obtain ⟨s, _, hone⟩ := variants_numbered_alike ofDescription_alarm hcore hjvm hswift
  obtain ⟨root, helper, safe, _, _, _, _, _, htypes⟩ := hone.numbers
  have hsound : (⟨"Sound", .enum ["Bell", "Buzz"], none⟩ : TypeDef) ∈ alarmModel.types := by decide
  obtain ⟨count, java, swiftType, _, _, _, hagree⟩ := htypes _ hsound ["Bell", "Buzz"] rfl
  obtain rfl := hagree.counted
  exact ⟨_, core, jvm, swift, s, helper, java, swiftType, ofDescription_alarm, by decide +kernel, hone,
    hagree⟩

end Bindery
