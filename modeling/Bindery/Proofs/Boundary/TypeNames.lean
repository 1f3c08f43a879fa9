/-
  TYPE NAMES: what a name stands for in the wrappers.

  A wrapper names types by their simple names, and a language looks for these from the inside out.  In a
  Java class, a class inside of it comes before what is imported, and that before the classes of the
  package (`JavaUnit.referent?`).  In Swift, the types of the files come before those of the language
  (`swiftReferent?`).

  So a declared type is meant on the Java side unless a result class of the same module has its name, and a
  number is meant on the Swift side unless a buffer or an enumeration has its name.  Neither is kept from a
  description: names of types are compared with each other, with those of the modules and with a list.
-/
import Bindery.Proofs.Boundary.Imports
import Bindery.Proofs.Target.Growing
import Bindery.Proofs.Target.LetterCase

namespace Bindery

open Naming Source Target

/-- What a name stands for. -/
inductive Referent where
  /-- A class inside of the one at hand. -/
  | inside
  /-- A type with a file of its own, by its full name. -/
  | unit (full : String)
  /-- A number of the language. -/
  | number (width : Width)
  deriving DecidableEq, Repr

/-! ## Names in a Java class -/

/-- The import that brings a name along. -/
def importOf? (imports : List String) (name : String) : Option String :=
  imports.find? fun i => ("." ++ name).toList.isSuffixOf i.toList

/-- What a name stands for in the file of a class: a class inside of it, or what is imported, or a class
of the package. -/
def JavaUnit.referent? (s : Setting) (units : List JavaUnit) (u : JavaUnit) (name : String) :
    Option Referent :=
  if name ∈ javaHolders.readAt 1 u.lines then some .inside
  else ((importOf? (imported.readAt 0 u.lines) name).or
    ((units.find? (·.key = (u.home, name))).map (·.key.full s))).map .unit

/-- The result classes of a module. -/
def Module.holders (module : Module) : List String :=
  (module.functions.filter (2 ≤ ·.outputCount)).map (·.resultClass)

theorem Module.mem_holders {module : Module} {name : String} : name ∈ module.holders ↔
    ∃ f ∈ module.functions, 2 ≤ f.outputCount ∧ f.resultClass = name := by
  unfold Module.holders
  simp only [List.mem_map, List.mem_filter, decide_eq_true_eq, and_assoc]

/-- Only a type whose name ends so has the name of a result class. -/
theorem Module.suffix_of_mem_holders {module : Module} {name : String} (h : name ∈ module.holders) :
    "Result".toList <:+ name.toList := by
  obtain ⟨f, _, _, rfl⟩ := Module.mem_holders.1 h
  rw [Function.resultClass, String.toList_append]
  exact List.suffix_append _ _

/-- The last part of a full name is the name of the class. -/
theorem ClassKey.suffix_full {s : Setting} {x : ClassKey} {name : String} (hx : '.' ∉ x.2.toList)
    (hname : '.' ∉ name.toList) : ("." ++ name).toList <:+ (x.full s).toList ↔ x.2 = name := by
  obtain ⟨front, hfront⟩ : ∃ front : String, x.full s = front ++ ("." ++ x.2) := by
    obtain ⟨home, own⟩ := x
    unfold ClassKey.full
    cases home with
    | none => exact ⟨_, String.append_assoc⟩
    | some home =>
      refine ⟨s.options.javaPackage ++ "." ++ home, ?_⟩
      simp only [Option.elim_some, String.append_assoc]
  have hdot : ∀ text : String, ("." ++ text).toList.reverse = text.toList.reverse ++ ['.'] := fun text => by
    rw [String.toList_append, List.reverse_append]
    rfl
  have hfree : ∀ {text : String}, '.' ∉ text.toList → ∀ c ∈ text.toList.reverse, (c == '.') = false :=
    fun htext c hc => beq_false_of_ne fun heq => htext (heq ▸ List.mem_reverse.1 hc)
  have hfull : (x.full s).toList = front.toList ++ ("." ++ x.2).toList := by
    rw [hfront, String.toList_append]
  rw [hfull]
  constructor
  · intro h
    -- Read from behind, the first dot stands in front of the last part.
    rw [← List.reverse_prefix, List.reverse_append, hdot, hdot] at h
    obtain ⟨more, hmore⟩ := h
    rw [List.append_assoc, List.append_assoc] at hmore
    have hlast := (Text.append_cons_inj_of_first (p := (· == '.')) (hfree hname) (hfree hx) (by decide)
      (by decide) hmore).1
    exact String.toList_inj.1 (List.reverse_injective hlast).symm
  · rintro rfl
    exact List.suffix_append _ _

section

variable {s : Setting} {m : Model} {module : Module} {library : FileText} {t : TypeDef}

/-- The only class of a type's name that a module needs is that of the type. -/
theorem typeKey_of_mem_needs (hm : m.WellFormed) (hmodule : module ∈ m.modules) (ht : t ∈ m.types)
    {x : ClassKey} (hx : x ∈ module.needs m) (hname : x.2 = t.name) : x = m.typeKey t := by
  have hfree : ∀ {home : Option String} {name : String}, name ∈ reservedTypeNames → x ≠ (home, name) := by
    rintro home name hreserved rfl
    exact (hm.types.each t ht).named.2 name (List.mem_append_left _ hreserved) (congrArg lower hname)
  rcases mem_needs.1 hx with ⟨_, hx⟩ | ⟨f, hf, hx⟩
  · rcases List.mem_cons.1 hx with heq | hx
    · exact absurd heq (hfree (by decide))
    · exact absurd (List.mem_singleton.1 hx) (hfree (by decide))
  · have hfun : f ∈ m.functions := Model.mem_functions.2 ⟨module, hmodule, hf⟩
    rcases mem_function_needs.1 hx with ⟨u, hu, _, rfl⟩ | ⟨_, heq⟩ | ⟨_, heq⟩
    · rw [hm.types.eq_of_name_eq (hm.usedTypes_mem hfun u hu) ht hname]
    · exact absurd heq (hfree (by decide))
    · exact absurd heq (hfree (by decide))

/-- A type is imported where it is used and lives elsewhere, and no other class is imported under its
name. -/
theorem importOf?_javaImports (hm : m.WellFormed) (hs : s.Standard) (hmodule : module ∈ m.modules)
    (ht : t ∈ m.types) : importOf? (javaImports s m module) t.name =
      if m.typeKey t ∈ module.needs m then some ((m.typeKey t).full s) else none := by
  have hdotless : '.' ∉ t.name.toList := (spelled_typeKey hm ht).name.notMem (by decide)
  have honly : ∀ i ∈ javaImports s m module, ("." ++ t.name).toList.isSuffixOf i.toList = true →
      i = (m.typeKey t).full s ∧ m.typeKey t ∈ module.needs m := by
    intro i hi hsuffix
    rw [javaImports_eq hs, Text.mem_sortDistinct] at hi
    obtain ⟨x, hx, rfl⟩ := List.mem_map.1 hi
    have hname : x.2 = t.name :=
      (ClassKey.suffix_full ((spelled_needs hm hmodule x hx).name.notMem (by decide)) hdotless).1
        (List.isSuffixOf_iff_suffix.1 hsuffix)
    obtain rfl := typeKey_of_mem_needs hm hmodule ht hx hname
    exact ⟨rfl, hx⟩
  cases hfind : importOf? (javaImports s m module) t.name with
  | none =>
    rw [if_neg]
    intro hneeds
    have himport := (mem_javaImports hm hs hmodule (spelled_typeKey hm ht)).2 hneeds
    exact List.find?_eq_none.1 hfind _ himport
      (List.isSuffixOf_iff_suffix.2 ((ClassKey.suffix_full hdotless hdotless).2 rfl))
  | some i =>
    have hsuffix := List.find?_some hfind
    obtain ⟨rfl, hneeds⟩ := honly i (List.mem_of_find?_eq_some hfind) hsuffix
    rw [if_pos hneeds]

/-- A type that lives in a package is found there. -/
theorem find?_javaUnits (ht : t ∈ m.types) (hscalar : t.isScalar = false) :
    ((javaUnits s m library).find? (·.key = m.typeKey t)).map (·.key.full s) =
      some ((m.typeKey t).full s) := by
  cases hfind : (javaUnits s m library).find? (·.key = m.typeKey t) with
  | none =>
    have hmem : valueUnit s (m.homeModule t, t) ∈ javaUnits s m library := mem_javaUnits_value ht hscalar
    exact absurd (decide_eq_true rfl) (List.find?_eq_none.1 hfind _ hmem)
  | some u =>
    have hkey := List.find?_some hfind
    rw [Option.map_some, of_decide_eq_true hkey]

/-- **In the class of a module** a type stands for what was declared, unless a result class has its name. -/
theorem referent_moduleUnit (hm : m.WellFormed) (hs : s.Standard) (hmodule : module ∈ m.modules)
    (huses : module.Uses t) (hscalar : t.isScalar = false) :
    (moduleUnit s m module).referent? s (javaUnits s m library) t.name =
      some (if t.name ∈ module.holders then .inside else .unit ((m.typeKey t).full s)) := by
  have ht : t ∈ m.types := by
    obtain ⟨f, hf, hu⟩ := huses
    exact hm.usedTypes_mem (Model.mem_functions.2 ⟨module, hmodule, hf⟩) t hu
  have hholders : javaHolders.readAt 1 (moduleUnit s m module).lines = module.holders :=
    javaHolders_module hm hmodule
  unfold JavaUnit.referent?
  rw [hholders, readAt_moduleUnit, importOf?_javaImports hm hs hmodule ht]
  by_cases hinside : t.name ∈ module.holders
  · rw [if_pos hinside, if_pos hinside]
  · rw [if_neg hinside, if_neg hinside]
    by_cases hhome : m.homeModule t = module.name
    · have hkey : ((moduleUnit s m module).home, t.name) = m.typeKey t :=
        congrArg (fun home => (some home, t.name)) hhome.symm
      have hnot : m.typeKey t ∉ module.needs m := fun h =>
        ((typeKey_mem_needs hm hmodule ht).1 h).2.1 hhome
      rw [if_neg hnot, hkey, find?_javaUnits ht hscalar]
      rfl
    · rw [if_pos ((typeKey_mem_needs hm hmodule ht).2 ⟨hscalar, hhome, huses⟩)]
      rfl

end

/-! ## The types of the Swift side -/

/-- A Swift file. -/
structure SwiftUnit where
  name : String
  lines : List Line

/-- The unit as a file. -/
def SwiftUnit.file (s : Setting) (u : SwiftUnit) : Source.File := swiftFile s u.name u.lines

/-- How a type is declared. -/
def swiftKinds : List String := ["public struct ", "public enum ", "public protocol "]

/-- The types that a file declares. -/
def SwiftUnit.declared (u : SwiftUnit) : List String :=
  swiftKinds.flatMap fun kind => (Reader.named kind).readAt 0 u.lines

/-- The widths of numbers. -/
def widths : List Width := [.one, .two, .four, .eight]

/-- What a name stands for in the Swift files: a type that one of them declares, or a number. -/
def swiftReferent? (units : List SwiftUnit) (name : String) : Option Referent :=
  ((units.find? (name ∈ ·.declared)).map fun u => .unit u.name).or
    ((widths.find? (·.swift = name)).map .number)

/-- The lines of the protocol of buffers and of what decodes values. -/
def swiftByteArrayLines (s : Setting) : List Line :=
  block "public protocol ByteArrayValue" (Source.lines
    ["static var SIZE: Int " ++ inBraces "get", "var contents: [UInt8] " ++ inBraces "get",
      "init(contents: [UInt8]) throws"]) ++
  gap ::
  block "extension ByteArrayValue"
    (block "static func checkLength(_ contents: [UInt8]) throws"
        (block "guard contents.count == SIZE else"
          (Source.lines ["throw " ++ swiftError ++ "." ++ s.codes.invalidInput.caseName])) ++
      gap ::
      block "public func serialize() -> [UInt8]" (Source.lines ["return contents"])) ++
  gap ::
  block "func decodeScalar<T: FixedWidthInteger>(_ bytes: [UInt8]) -> T"
    (line "var value: T = 0" ::
      block "for byte in bytes.reversed()" (Source.lines ["value = (value << 8) | T(byte)"]) ++
      [line "return value"]) ++
  gap :: decodeEnumLines s

/-- The lines of the Swift type of a type; plain numbers have none. -/
def swiftValueLines (t : TypeDef) : List Line :=
  match t.shape with
  | .buffer _ => bufferStructLines t.name
  | .enum variants => swiftEnumLines t.name variants
  | .scalar _ => []

/-- The Swift files, besides the header. -/
def swiftUnits (s : Setting) (m : Model) : List SwiftUnit :=
  [⟨swiftError, swiftErrorLines s⟩, ⟨"ByteArray", swiftByteArrayLines s⟩] ++
    m.placedTypes.map (fun x => ⟨x.2.name, swiftValueLines x.2⟩) ++
    m.modules.map fun module => ⟨moduleClass module.name, swiftModuleLines s module⟩

section

variable {s : Setting} {m : Model} {t : TypeDef}

/-- **The Swift side is the header and these files.** -/
theorem swiftFiles_eq (s : Setting) (m : Model) :
    swiftFiles s m = headerFile s m swiftDir :: (swiftUnits s m).map (·.file s) := by
  have hvalues : valueFiles m (fun _ => swiftValueFile? s) =
      m.placedTypes.map fun x => SwiftUnit.file s ⟨x.2.name, swiftValueLines x.2⟩ := by
    refine (List.forall₂_eq_eq_eq ▸ (List.forall₂_map_left_iff.2 ?_) :
      m.placedTypes.map _ = valueFiles m _).symm
    refine (forall₂_valueFiles fun _ t => swiftValueFile?_isSome s).imp fun x f hf => ?_
    unfold swiftValueFile? at hf
    unfold swiftValueLines
    cases hshape : x.2.shape with
    | buffer size =>
      rw [hshape] at hf
      cases hf
      rfl
    | enum variants =>
      rw [hshape] at hf
      cases hf
      rfl
    | scalar w =>
      rw [hshape] at hf
      nomatch hf
  unfold swiftFiles swiftUnits
  rw [hvalues, List.map_append, List.map_append, List.map_map, List.map_map]
  rfl

/-- A type is read off the block that declares it. -/
theorem declared_block (kind rest : String) {name head : String} {body : List Line}
    (hkind : kind ∈ swiftKinds) (hhead : head = kind ++ (name ++ rest)) (hname : Wordy name.toList)
    (hrest : Text.Stops isIdentifierChar (rest ++ (" " ++ opening)).toList) (file : String) :
    SwiftUnit.declared ⟨file, block head body⟩ = [name] := by
  have hapart : ∀ a ∈ swiftKinds, ∀ b ∈ swiftKinds, a ≠ b → Apart a b := by decide
  have hopen : head ++ " " ++ opening = kind ++ (name ++ (rest ++ (" " ++ opening))) := by
    rw [hhead]
    simp only [String.append_assoc]
  have hread : ∀ other ∈ swiftKinds, (Reader.named other).readAt 0 (block head body) =
      if other = kind then [name] else [] := by
    intro other hother
    have hclosing : (Reader.named other).read? closing.toList = none :=
      (by decide : ∀ a ∈ swiftKinds, (Reader.named a).Ignores closing) other hother
    unfold Reader.readAt
    rw [textsAt_block_zero, Reader.readAll_cons, Reader.readAll_singleton, hclosing, hopen]
    split
    · subst kind
      rw [read?_named rfl hname hrest]
      rfl
    · have hnone : (Reader.named other).read? (kind ++ (name ++ (rest ++ (" " ++ opening)))).toList =
          none := Reader.Ignores.of_apart ((hapart other hother kind hkind ‹_›).append _)
      rw [hnone]
      rfl
  have honce : ∀ kind ∈ swiftKinds, swiftKinds.flatMap (fun other => if other = kind then [name] else []) =
      [name] := by
    refine List.forall_mem_cons.2 ⟨?_, List.forall_mem_cons.2 ⟨?_, List.forall_mem_singleton.2 ?_⟩⟩
    all_goals simp +decide [swiftKinds]
  exact (List.flatMap_congr hread).trans (honce kind hkind)

theorem declared_error (s : Setting) :
    SwiftUnit.declared ⟨swiftError, swiftErrorLines s⟩ = [swiftError] :=
  declared_block "public enum " ": Int32, Error" (by decide) (by decide) (by decide)
    (by decide) swiftError

theorem declared_byteArray (s : Setting) :
    SwiftUnit.declared ⟨"ByteArray", swiftByteArrayLines s⟩ = ["ByteArrayValue"] := by
  -- What the blocks hold does not matter, so the texts outside of them are the same for every table.
  have htexts : textsAt 0 (swiftByteArrayLines s) =
      ["public protocol ByteArrayValue \x7b", closing, "", "extension ByteArrayValue \x7b", closing, "",
        "func decodeScalar<T: FixedWidthInteger>(_ bytes: [UInt8]) -> T \x7b", closing, "",
        "func decodeEnum<T: RawRepresentable>(_ bytes: [UInt8]) throws -> T where T.RawValue == UInt8 \x7b",
        closing] := by
    unfold swiftByteArrayLines decodeEnumLines
    simp only [textsAt_append, textsAt_block_zero, textsAt_gap_zero]
    decide
  unfold SwiftUnit.declared Reader.readAt
  rw [htexts]
  decide

/-- The file of a type declares it. -/
theorem declared_value (hname : Wordy t.name.toList) (hscalar : t.isScalar = false) :
    SwiftUnit.declared ⟨t.name, swiftValueLines t⟩ = [t.name] := by
  unfold swiftValueLines
  cases hshape : t.shape with
  | buffer size =>
    exact declared_block "public struct " ": ByteArrayValue" (by decide)
      String.append_assoc hname (by decide) t.name
  | enum variants =>
    exact declared_block "public enum " ": UInt8" (by decide) String.append_assoc hname
      (by decide) t.name
  | scalar w =>
    rw [TypeDef.isScalar, hshape] at hscalar
    cases hscalar

theorem declared_module {name : String} (hname : isModuleName name = true) (s : Setting)
    {module : Module} (hmodule : module.name = name) :
    SwiftUnit.declared ⟨moduleClass name, swiftModuleLines s module⟩ = [moduleClass name] := by
  subst hmodule
  refine declared_block "public enum " "" (by decide) ?_ (wordy_moduleClass hname)
    (by decide) _
  rw [String.append_empty]

/-- What a file declares is told by its name; only the file of the protocol has another. -/
theorem declared_swiftUnits (hm : m.WellFormed) : ∀ u ∈ swiftUnits s m,
    u.declared = [u.name] ∨ u.declared = ["ByteArrayValue"] := by
  refine List.forall_mem_append.2 ⟨List.forall_mem_append.2 ⟨?_, List.forall_mem_map.2 ?_⟩,
    List.forall_mem_map.2 ?_⟩
  · exact List.forall_mem_cons.2 ⟨Or.inl (declared_error s),
      List.forall_mem_singleton.2 (Or.inr (declared_byteArray s))⟩
  · rintro ⟨home, t⟩ hx
    obtain ⟨ht, hscalar, _⟩ := Model.mem_placedTypes.1 hx
    exact Or.inl (declared_value (hm.word_typeName ht).1 hscalar)
  · exact fun module hmodule => Or.inl (declared_module (hm.isModuleName hmodule) s rfl)

/-- A buffer or an enumeration stands for what was declared. -/
theorem swiftReferent?_type (hm : m.WellFormed) (ht : t ∈ m.types) (hscalar : t.isScalar = false) :
    swiftReferent? (swiftUnits s m) t.name = some (.unit t.name) := by
  have hvalue : ⟨t.name, swiftValueLines t⟩ ∈ swiftUnits s m :=
    List.mem_append_left _ (List.mem_append_right _
      (List.mem_map.2 ⟨(m.homeModule t, t), Model.mem_placedTypes.2 ⟨ht, hscalar, rfl⟩, rfl⟩))
  unfold swiftReferent?
  cases hfind : (swiftUnits s m).find? (t.name ∈ ·.declared) with
  | none =>
    refine absurd (decide_eq_true ?_) (List.find?_eq_none.1 hfind _ hvalue)
    rw [declared_value (hm.word_typeName ht).1 hscalar]
    exact List.mem_singleton_self _
  | some u =>
    have hdeclared := List.find?_some hfind
    rw [decide_eq_true_eq] at hdeclared
    rcases declared_swiftUnits hm u (List.mem_of_find?_eq_some hfind) with hu | hu
    · rw [hu, List.mem_singleton] at hdeclared
      rw [hdeclared]
      rfl
    · rw [hu, List.mem_singleton] at hdeclared
      exact absurd (congrArg lower hdeclared.symm)
        ((hm.types.each t ht).named.2 _ (List.mem_append_left _ (by decide)))

/-- The name of a number stands for it exactly if no buffer or enumeration has it. -/
theorem swiftReferent?_number (hm : m.WellFormed) (w : Width) :
    swiftReferent? (swiftUnits s m) w.swift = some (.number w) ↔
      ∀ t ∈ m.types, t.isScalar = false → t.swiftValue ≠ w.swift := by
  have hvalue : ∀ {t : TypeDef}, t.isScalar = false → t.swiftValue = t.name := by
    intro t hscalar
    unfold TypeDef.swiftValue
    cases hshape : t.shape with
    | scalar w =>
      rw [TypeDef.isScalar, hshape] at hscalar
      cases hscalar
    | _ => rfl
  constructor
  · intro h t ht hscalar heq
    rw [← heq, hvalue hscalar, swiftReferent?_type hm ht hscalar] at h
    cases h
  · intro hfree
    have hnone : (swiftUnits s m).find? (w.swift ∈ ·.declared) = none := by
      refine List.find?_eq_none.2 ?_
      simp only [decide_eq_true_eq]
      refine List.forall_mem_append.2 ⟨List.forall_mem_append.2 ⟨?_, List.forall_mem_map.2 ?_⟩,
        List.forall_mem_map.2 ?_⟩
      · refine List.forall_mem_cons.2 ⟨?_, List.forall_mem_singleton.2 ?_⟩
        · rw [declared_error]
          cases w <;> decide
        · rw [declared_byteArray]
          cases w <;> decide
      · rintro ⟨home, t⟩ hx
        obtain ⟨ht, hscalar, _⟩ := Model.mem_placedTypes.1 hx
        rw [declared_value (hm.word_typeName ht).1 hscalar, List.mem_singleton, ← hvalue hscalar]
        exact (hfree t ht hscalar).symm
      · intro module hmodule
        have hname := hm.isModuleName hmodule
        rw [declared_module hname s rfl, List.mem_singleton]
        intro heq
        -- Behind its first letter the class of a module has no capitals.
        have hlower : module.name = lower w.swift := by
          rw [heq, lower_moduleClass hname]
        rw [hlower] at heq
        exact absurd heq (by cases w <;> decide)
    unfold swiftReferent?
    rw [hnone]
    cases w <;> decide

end

/-! ## The names of a description -/

/-- `TypeNamesTold s m library t jvm swift` — what the names of types stand for in the wrappers.  The
result classes are read off the class of each module. -/
structure TypeNamesTold (s : Setting) (m : Model) (library : FileText) (t : ErrorTable)
    (jvm swift : List Source.File) : Prop where
  holders : ∀ module ∈ m.modules,
    Emitted jvm s (javaModulePath module.name) (moduleUnit s m module).lines ∧
    javaHolders.readAt 1 (moduleUnit s m module).lines = module.holders ∧
    ∀ name ∈ module.holders, "Result".toList <:+ name.toList
  java : t = .standard → ∃ files, jvm = glueFile s m :: files ∧
    List.Forall₂ (JavaUnit.Written s) (javaUnits s m library) files ∧
    ∀ module ∈ m.modules, ∀ type, module.Uses type → type.isScalar = false →
      (moduleUnit s m module).referent? s (javaUnits s m library) type.name =
        some (if type.name ∈ module.holders then .inside else .unit ((m.typeKey type).full s))
  swiftFiles : swift = headerFile s m swiftDir :: (swiftUnits s m).map (·.file s)
  swift : ∀ type ∈ m.types, type.isScalar = false →
    swiftReferent? (swiftUnits s m) type.name = some (.unit type.name)
  numbers : ∀ w : Width, swiftReferent? (swiftUnits s m) w.swift = some (.number w) ↔
    ∀ type ∈ m.types, type.isScalar = false → type.swiftValue ≠ w.swift

/-- **What type names stand for**, whatever the API.  In the Java class of a module a type that its
functions use stands for what was declared, except where a function of the module with several outputs has
a result class of that name; so only types whose names end in `Result` can be hidden.  On the Swift side a
declared type is always meant, and a number exactly if no buffer or enumeration has its name. -/
theorem type_names_told {es : List (Value × Value)} {m : Model} {o : Options} {t : ErrorTable}
    {jvm swift : List Source.File} (hm : Model.ofDescription es = .ok m)
    (hjvm : Target.jvm.emit m o t = .ok jvm) (hswift : Target.swift.emit m o t = .ok swift) :
    ∃ (s : Setting) (library : FileText), s.For o t ∧ TypeNamesTold s m library t jvm swift := by
  obtain ⟨s, hs, library, hlibrary, rfl⟩ := emit_jvm_library hjvm
  obtain ⟨s', hs', rfl⟩ := emit_swift hswift
  obtain rfl := hs.unique hs'
  have hw : m.WellFormed := (ofDescription_eq_ok.1 hm).2
  refine ⟨s, library, hs, ?_⟩
  constructor
  case holders =>
    exact fun module hmodule => ⟨emitted_javaModuleFile hw library hmodule,
      javaHolders_module hw hmodule, fun _ => Module.suffix_of_mem_holders⟩
  case java =>
    rintro rfl
    rw [← hs.options] at hlibrary
    obtain ⟨files, hfiles, hwritten⟩ := written_javaUnits hw hs.standard hlibrary
    exact ⟨files, hfiles, hwritten,
      fun _ hmodule _ => referent_moduleUnit hw hs.standard hmodule⟩
  case swiftFiles => rw [collect_swiftFiles hw, swiftFiles_eq]
  case swift => exact fun _ => swiftReferent?_type hw
  case numbers => exact fun w => swiftReferent?_number hw w

/-- A description with a buffer that is named like a result class, and one that is named like a number. -/
def openEntries : List (Value × Value) :=
  [(.str "types", .list
      [.map [(.str "name", .str "OpenResult"), (.str "kind", .str "buffer"), (.str "size", .int 32)],
        .map [(.str "name", .str "UInt8"), (.str "kind", .str "buffer"), (.str "size", .int 16)]]),
    (.str "modules", .list [.map [(.str "name", .str "vault"), (.str "functions", .list
      [.map [(.str "name", .str "open"), (.str "params", .list
          [.map [(.str "name", .str "seal"), (.str "type", .str "OpenResult"),
            (.str "direction", .str "out")]]),
        (.str "returns", .str "UInt8")]])]])]

theorem type_names_told_open : ∃ m jvm swift s library, Model.ofDescription openEntries = .ok m ∧
    (∀ module ∈ m.modules, (moduleUnit s m module).referent? s (javaUnits s m library) "OpenResult" =
      some .inside) ∧
    swiftReferent? (swiftUnits s m) "UInt8" = some (.unit "UInt8") ∧
    TypeNamesTold s m library .standard jvm swift := by
  let result : TypeDef := ⟨"OpenResult", .buffer 32, none⟩
  let byte : TypeDef := ⟨"UInt8", .buffer 16, none⟩
  let f : Function := ⟨"open", "vault", [⟨"seal", result, .output⟩], some byte, false⟩
  let m : Model := ⟨[result, byte], [⟨"vault", [f]⟩]⟩
  have hm : Model.ofDescription openEntries = .ok m := by decide +kernel
  obtain ⟨jvm, hjvm⟩ : ∃ fs, Target.jvm.emit m .standard .standard = .ok fs :=
    exists_eq_ok (by decide +kernel)
  obtain ⟨swift, hswift⟩ : ∃ fs, Target.swift.emit m .standard .standard = .ok fs :=
    exists_eq_ok (by decide +kernel)
  obtain ⟨s, library, _, htold⟩ := type_names_told hm hjvm hswift
  obtain ⟨_, _, _, hjava⟩ := htold.java rfl
  have hhidden : result.name ∈ (⟨"vault", [f]⟩ : Module).holders := by decide +kernel
  refine ⟨m, jvm, swift, s, library, hm, List.forall_mem_singleton.2 ?_, ?_, htold⟩
  · have hreferent := hjava ⟨"vault", [f]⟩ (List.mem_singleton_self _) result
      ⟨f, List.mem_singleton_self _, List.mem_cons_self⟩ rfl
    rw [if_pos hhidden] at hreferent
    exact hreferent
  · exact htold.swift byte (List.mem_cons_of_mem _ (List.mem_singleton_self _)) rfl

end Bindery
