/-
  THE CLASSES OF THE JAVA SIDE, file by file.

  Behind the glue, every file of the Java side is one class (`JavaUnit`): it stands in a directory that
  is told by its package, and bears the name of the class.  The files are listed here with their lines,
  so whatever is said about all of them is said about one list (`written_javaUnits`).

  They all start alike: a package, imports, and one declaration that opens a block (`JavaUnit.Laid`).
  What else may stand outside of blocks is a comment, so packages, imports and declarations can be read
  off the lines by how these start.
-/
import Bindery.Proofs.Boundary.VariantNumbers
import Bindery.Proofs.Source.Neat

namespace Bindery

open Naming Source Target

/-! ## The standard table -/

/-- The exception for refused arguments. -/
def refusedException : String := "InvalidInputException"

/-- `s.Standard` — the files depend on the standard table, in which refused arguments have an exception of
their own. -/
structure Setting.Standard (s : Setting) : Prop where
  table : s.codes.table = .standard
  refused : s.codes.invalidInput.exceptionName = refusedException

theorem Setting.For.standard {s : Setting} {o : Options} (hs : s.For o .standard) : s.Standard := by
  have hcodes := hs.codes
  obtain ⟨_, _, codes⟩ := s
  cases hcodes
  exact ⟨rfl, rfl⟩

/-! ## Units -/

/-- A file with a Java class. -/
structure JavaUnit where
  /-- The package below the base package, unless it is that itself. -/
  home : Option String
  name : String
  lines : List Line

namespace JavaUnit

/-- The name of the class behind what is below the base package, with something between them. -/
def below (u : JavaUnit) (mark : String) : String :=
  u.home.elim u.name fun home => home ++ mark ++ u.name

/-- Where the file stands. -/
def path (u : JavaUnit) : String := "java/" ++ u.below "/" ++ ".java"

/-- The package of the class. -/
def package (u : JavaUnit) (s : Setting) : String := u.home.elim s.options.javaPackage s.package

/-- `u.Written s f` — the file is that of the class. -/
structure Written (s : Setting) (u : JavaUnit) (f : File) : Prop where
  path : f.path = u.path
  text : f.text = renderFile (s.header.map (·.text)) u.lines

end JavaUnit

/-! ## What stands outside of blocks -/

/-- The package that a file is of. -/
def packages : Reader String := .statement "package "

/-- The classes that a file imports. -/
def imported : Reader String := .statement "import "

/-- How the declaration of a class starts. -/
def classKinds : List String :=
  ["public class ", "public final class ", "public abstract class ", "public enum "]

/-- A line that declares nothing. -/
structure Remark (text : String) : Prop where
  neat : Neat (line text)
  start : text = "" ∨ "/** ".toList <+: text.toList

instance (text : String) : Decidable (Remark text) :=
  decidable_of_iff (Neat (line text) ∧ (text = "" ∨ "/** ".toList <+: text.toList))
    ⟨fun h => ⟨h.1, h.2⟩, fun h => ⟨h.1, h.2⟩⟩

/-- What a file has in front of its class: its package, its imports, and remarks. -/
def JavaUnit.front (s : Setting) (u : JavaUnit) (imports remarks : List String) : List String :=
  ("package " ++ (u.package s ++ ";")) :: "" :: (imports.map (fun i => "import " ++ (i ++ ";")) ++ remarks)

/-- `u.Laid s imports kind rest` — a file has its package, its imports and remarks, and then its class. -/
def JavaUnit.Laid (s : Setting) (u : JavaUnit) (imports : List String) (kind rest : String) : Prop :=
  ∃ (remarks : List String) (body : List Line), (∀ text ∈ remarks, Remark text) ∧
    u.lines = Source.lines (u.front s imports remarks) ++ block (kind ++ (u.name ++ rest)) body

namespace JavaUnit

variable {s : Setting} {u : JavaUnit} {imports remarks : List String}

/-- A reader that takes no remark for its own finds what it finds without them. -/
theorem readAll_front {β : Type} {r : Reader β} (hempty : r.Ignores "") (hremark : Apart r.head "/** ")
    (hremarks : ∀ text ∈ remarks, Remark text) :
    r.readAll (u.front s imports remarks) = r.readAll (u.front s imports []) := by
  have hnone : r.readAll remarks = [] := Reader.readAll_eq_nil fun text htext => by
    rcases (hremarks text htext).start with rfl | hstart
    · exact hempty
    · exact Reader.read?_eq_none fun hp =>
        (List.prefix_or_prefix_of_prefix hp hstart).elim hremark.1 hremark.2
  unfold front
  rw [Reader.readAll_cons, Reader.readAll_cons, Reader.readAll_append, hnone, List.append_nil,
    List.append_nil, ← Reader.readAll_cons, ← Reader.readAll_cons]

/-- A file is of one package. -/
theorem packages_front : packages.readAll (u.front s imports []) = [u.package s] := by
  have hempty : packages.read? "".toList = none := by decide
  have himports : packages.readAll (imports.map fun i => "import " ++ (i ++ ";")) = [] := by
    have happart : Apart packages.head "import " := by decide
    exact Reader.readAll_eq_nil (List.forall_mem_map.2 fun i _ => .of_apart (happart.append _))
  unfold front
  rw [Reader.readAll_cons, Reader.readAll_cons, hempty, List.append_nil, himports]
  exact congrArg (fun x : Option String => x.toList ++ []) (Reader.read?_statement rfl)

/-- What a file imports. -/
theorem imported_front : imported.readAll (u.front s imports []) = imports := by
  have hempty : imported.read? "".toList = none := by decide
  have hpackage : imported.read? ("package " ++ (u.package s ++ ";")).toList = none := by
    have happart : Apart imported.head "package " := by decide
    exact Reader.Ignores.of_apart (happart.append _)
  have hall : imported.readAll (imports.map fun i => "import " ++ (i ++ ";")) = imports.map id :=
    Reader.readAll_map fun i _ => Reader.read?_statement rfl
  unfold front
  rw [Reader.readAll_cons, Reader.readAll_cons, hpackage, hempty, List.append_nil, hall, List.map_id]
  rfl

end JavaUnit

namespace JavaUnit.Laid

variable {s : Setting} {u : JavaUnit} {imports : List String} {kind rest : String}

theorem of_lines (top : List Line) (remarks : List String) {head : String} {body : List Line}
    (hlines : u.lines = line ("package " ++ u.package s ++ ";") :: gap :: (top ++ block head body))
    (htop : top = Source.lines (imports.map (fun i => "import " ++ (i ++ ";")) ++ remarks))
    (hremarks : ∀ text ∈ remarks, Remark text) (hhead : head = kind ++ (u.name ++ rest)) :
    u.Laid s imports kind rest := by
  refine ⟨remarks, body, hremarks, ?_⟩
  rw [hlines, htop, hhead, String.append_assoc]
  rfl

/-- What stands outside of blocks. -/
theorem textsAt (h : u.Laid s imports kind rest) : ∃ remarks : List String,
    (∀ text ∈ remarks, Remark text) ∧ Source.textsAt 0 u.lines =
      u.front s imports remarks ++ [kind ++ (u.name ++ (rest ++ (" " ++ opening))), closing] := by
  obtain ⟨remarks, body, hremarks, hlines⟩ := h
  refine ⟨remarks, hremarks, ?_⟩
  rw [hlines, textsAt_append, textsAt_lines, textsAt_block_zero]
  simp only [String.append_assoc]

/-- What is read outside of blocks: what stands in front of the class, and the class. -/
theorem readAt {β : Type} {r : Reader β} (h : u.Laid s imports kind rest) (hempty : r.Ignores "")
    (hclosing : r.Ignores closing) (hremark : Apart r.head "/** ") :
    r.readAt 0 u.lines = r.readAll (u.front s imports []) ++
      (r.read? (kind ++ (u.name ++ (rest ++ (" " ++ opening)))).toList).toList := by
  obtain ⟨remarks, hremarks, htexts⟩ := h.textsAt
  unfold Reader.readAt
  rw [htexts, Reader.readAll_append, readAll_front hempty hremark hremarks, Reader.readAll_cons,
    Reader.readAll_singleton, hclosing]
  simp only [Option.toList_none, List.append_nil]

theorem readAt_packages (h : u.Laid s imports kind rest) (hkind : kind ∈ classKinds) :
    packages.readAt 0 u.lines = [u.package s] := by
  have hother : ∀ kind ∈ classKinds, Apart packages.head kind := by decide
  have hdeclaration : packages.read? (kind ++ (u.name ++ (rest ++ (" " ++ opening)))).toList = none :=
    Reader.Ignores.of_apart ((hother kind hkind).append _)
  rw [h.readAt (by decide) (by decide) (by decide), packages_front, hdeclaration]
  rfl

theorem readAt_imported (h : u.Laid s imports kind rest) (hkind : kind ∈ classKinds) :
    imported.readAt 0 u.lines = imports := by
  have hother : ∀ kind ∈ classKinds, Apart imported.head kind := by decide
  have hdeclaration : imported.read? (kind ++ (u.name ++ (rest ++ (" " ++ opening)))).toList = none :=
    Reader.Ignores.of_apart ((hother kind hkind).append _)
  rw [h.readAt (by decide) (by decide) (by decide), imported_front, hdeclaration]
  exact List.append_nil _

end JavaUnit.Laid

/-! ## Lines -/

/-- The lines of the class of an exception. -/
def exceptionLines (s : Setting) (name : String) : List Line :=
  line ("package " ++ s.options.javaPackage ++ ";") :: gap ::
    line ("/** Raised for " ++ commas ((s.codes.table.reportedBy name).map (·.constant)) ++ ". */") ::
    block ("public class " ++ name ++ " extends " ++ baseException)
      (gap ::
        block ("public " ++ name ++ "(int code)") (Source.lines ["super(code);"]) ++
        gap ::
        block ("public " ++ name ++ "(int code, String message)")
          (Source.lines ["super(code, message);"]))

/-- The lines of the class of the native methods. -/
def nativeLines (s : Setting) (m : Model) (library : FileText) : List Line :=
  line ("package " ++ s.package Model.internalModule ++ ";") :: gap ::
    block "public final class Native" (nativeBody m library)

/-- What stands in the base of the classes of buffers, where an exception is thrown for refused
arguments. -/
def byteArrayBody (refused constant : String) : List Line :=
  Source.lines ["", "protected final byte[] contents;", ""] ++
    block ("protected ByteArray(byte[] contents, int expectedLength) throws " ++ refused)
      (block "if (contents == null || contents.length != expectedLength)"
        (line ("throw new " ++ refused ++ "(" ++ codeConstant constant ++ ",") ::
          indent (Source.lines ["\"expected \" + expectedLength + \" bytes, got \"",
            "+ (contents == null ? \"null\" : Integer.toString(contents.length)));"])) ++
        Source.lines ["this.contents = contents.clone();"]) ++
    gap ::
    block "public byte[] getInternalContentsForJNI()" (Source.lines ["return contents;"]) ++
    gap ::
    block "public byte[] serialize()" (Source.lines ["return contents.clone();"]) ++
    Source.lines ["", "@Override"] ++
    block "public boolean equals(Object other)" (Source.lines
      ["if (this == other) return true;",
        "if (other == null || getClass() != other.getClass()) return false;",
        "return Arrays.equals(contents, ((ByteArray) other).contents);"]) ++
    Source.lines ["", "@Override"] ++
    block "public int hashCode()" (Source.lines ["return Arrays.hashCode(contents);"]) ++
    Source.lines ["", "/** Little-endian unsigned value of up to four bytes. */"] ++
    decodeMethod "int" "decodeInt" ++ gap :: decodeMethod "long" "decodeLong"

/-- The lines of the base of the classes of buffers. -/
def byteArrayLines (s : Setting) : List Line :=
  line ("package " ++ s.package Model.internalModule ++ ";") :: gap ::
    (Source.lines ["import java.util.Arrays;",
      "import " ++ s.baseClass s.codes.invalidInput.exceptionName ++ ";",
      "import " ++ s.baseClass baseException ++ ";", "",
      "/** Fixed-length byte contents shared by every serialized zkgroup value. */"] ++
    block "public abstract class ByteArray"
      (byteArrayBody s.codes.invalidInput.exceptionName s.refused))

/-- The lines of the class of a type; plain numbers have none. -/
def valueLines (s : Setting) (home : String) (t : TypeDef) : List Line :=
  match t.shape with
  | .buffer size => bufferClassLines s home t.name size
  | .enum variants => enumClassLines s home t.name variants
  | .scalar _ => []

theorem valueLines_buffer {s : Setting} {home : String} {t : TypeDef} {size : Nat}
    (h : t.shape = .buffer size) : valueLines s home t = bufferClassLines s home t.name size := by
  rw [valueLines, h]

theorem valueLines_enum {s : Setting} {home : String} {t : TypeDef} {variants : List String}
    (h : t.shape = .enum variants) : valueLines s home t = enumClassLines s home t.name variants := by
  rw [valueLines, h]

/-! ## All units -/

section

variable (s : Setting) (m : Model) (library : FileText)

/-- The class of an exception. -/
def exceptionUnit (name : String) : JavaUnit := ⟨none, name, exceptionLines s name⟩

/-- The class of a type. -/
def valueUnit (x : String × TypeDef) : JavaUnit := ⟨some x.1, x.2.name, valueLines s x.1 x.2⟩

/-- The class of a module. -/
def moduleUnit (module : Module) : JavaUnit :=
  ⟨some module.name, moduleClass module.name, javaModuleLines s m module⟩

/-- The classes besides those of the modules. -/
def supportUnits : List JavaUnit :=
  ⟨none, baseException, baseExceptionLines s⟩ :: s.codes.table.derivedExceptions.map (exceptionUnit s) ++
    [⟨some Model.internalModule, "Native", nativeLines s m library⟩,
      ⟨some Model.internalModule, "ByteArray", byteArrayLines s⟩] ++ m.placedTypes.map (valueUnit s)

/-- The classes of the Java side. -/
def javaUnits : List JavaUnit := supportUnits s m library ++ m.modules.map (moduleUnit s m)

end

section

variable {s : Setting} {m : Model} {library : FileText}

/-- What the classes besides those of the modules come to, kind by kind. -/
theorem flatMap_supportUnits {β : Type} (g : JavaUnit → List β) :
    (supportUnits s m library).flatMap g = g ⟨none, baseException, baseExceptionLines s⟩ ++
      (s.codes.table.derivedExceptions.flatMap (fun name => g (exceptionUnit s name)) ++
        (g ⟨some Model.internalModule, "Native", nativeLines s m library⟩ ++
          (g ⟨some Model.internalModule, "ByteArray", byteArrayLines s⟩ ++
            m.placedTypes.flatMap fun x => g (valueUnit s x)))) := by
  unfold supportUnits
  simp only [List.flatMap_append, List.flatMap_cons, List.flatMap_nil, List.flatMap_map,
    List.append_nil, List.append_assoc]

/-- What is so of every class. -/
theorem forall_mem_javaUnits {P : JavaUnit → Prop} (hbase : P ⟨none, baseException, baseExceptionLines s⟩)
    (hexceptions : ∀ name ∈ s.codes.table.derivedExceptions, P (exceptionUnit s name))
    (hnative : P ⟨some Model.internalModule, "Native", nativeLines s m library⟩)
    (hbytes : P ⟨some Model.internalModule, "ByteArray", byteArrayLines s⟩)
    (hvalues : ∀ x ∈ m.placedTypes, P (valueUnit s x))
    (hmodules : ∀ module ∈ m.modules, P (moduleUnit s m module)) :
    ∀ u ∈ javaUnits s m library, P u :=
  List.forall_mem_append.2 ⟨List.forall_mem_append.2 ⟨List.forall_mem_append.2
    ⟨List.forall_mem_cons.2 ⟨hbase, List.forall_mem_map.2 hexceptions⟩,
      List.forall_mem_cons.2 ⟨hnative, List.forall_mem_singleton.2 hbytes⟩⟩,
    List.forall_mem_map.2 hvalues⟩, List.forall_mem_map.2 hmodules⟩

theorem written_base :
    JavaUnit.Written s ⟨none, baseException, baseExceptionLines s⟩ (baseExceptionFile s) := by
  rw [baseExceptionFile_eq]
  exact ⟨(by decide : "java/ZkGroupException.java" = "java/" ++ baseException ++ ".java"), rfl⟩

theorem written_exception (name : String) :
    (exceptionUnit s name).Written s (exceptionFile s name) := by
  have hdir : javaDir ++ "/" = "java/" := by decide
  refine ⟨?_, rfl⟩
  show javaDir ++ "/" ++ name ++ ".java" = "java/" ++ name ++ ".java"
  rw [hdir]

theorem written_native : JavaUnit.Written s
    ⟨some Model.internalModule, "Native", nativeLines s m library⟩ (nativeFile s m library) :=
  ⟨(by decide : javaDir ++ "/" ++ "internal/Native" ++ ".java" =
    "java/" ++ (Model.internalModule ++ "/" ++ "Native") ++ ".java"), rfl⟩

theorem written_byteArray : JavaUnit.Written s
    ⟨some Model.internalModule, "ByteArray", byteArrayLines s⟩ (byteArrayFile s) :=
  ⟨(by decide : javaDir ++ "/" ++ "internal/ByteArray" ++ ".java" =
    "java/" ++ (Model.internalModule ++ "/" ++ "ByteArray") ++ ".java"), rfl⟩

theorem written_value {x : String × TypeDef} {f : File} (h : javaValueFile? s x.1 x.2 = some f) :
    (valueUnit s x).Written s f := by
  have hpath : javaTypeFile x.1 x.2.name = (valueUnit s x).path := by
    show _ = "java/" ++ (x.1 ++ "/" ++ x.2.name) ++ ".java"
    unfold javaTypeFile
    simp only [String.append_assoc]
  unfold javaValueFile? at h
  constructor
  case path =>
    rw [← hpath]
    split at h <;> cases h
    · rw [bufferClass_eq]
      rfl
    · rw [enumClass_eq]
      rfl
  case text =>
    show f.text = renderFile _ (valueLines s x.1 x.2)
    split at h <;> cases h <;> rename_i hshape
    · rw [valueLines_buffer hshape, bufferClass_eq]
      rfl
    · rw [valueLines_enum hshape, enumClass_eq]
      rfl

theorem written_module (module : Module) :
    (moduleUnit s m module).Written s (javaModuleFile s m module) := by
  rw [javaModuleFile_eq]
  refine ⟨?_, rfl⟩
  show javaModulePath module.name = "java/" ++ (module.name ++ "/" ++ moduleClass module.name) ++ ".java"
  unfold javaModulePath
  simp only [String.append_assoc]

/-- **The Java side is the glue and these classes**, each in its place: nothing is lost, and there is
nothing else. -/
theorem written_javaUnits (hm : m.WellFormed) (hs : s.Standard)
    (hlibrary : FileText.ofValue s.options.jniLibraryName = .ok library) :
    ∃ files, collect (jvmFiles s m library) = glueFile s m :: files ∧
      List.Forall₂ (JavaUnit.Written s) (javaUnits s m library) files := by
  have hnodup : ((jvmFiles s m library).map (·.path)).Nodup := by
    rw [map_path_of_renders (m := m) (renders_jvmFiles hs.table hlibrary)]
    exact Target.nodup_items hm .jvm
  have hpair : ∀ {α : Type} (unit : α → JavaUnit) {file : α → File}
      (_ : ∀ a, (unit a).Written s (file a)) (as : List α),
      List.Forall₂ (JavaUnit.Written s) (as.map unit) (as.map file) := by
    intro α unit file h as
    rw [List.forall₂_map_left_iff, List.forall₂_map_right_iff]
    exact List.forall₂_same.2 fun a _ => h a
  have hvalues : List.Forall₂ (JavaUnit.Written s) (m.placedTypes.map (valueUnit s))
      (valueFiles m (javaValueFile? s)) := by
    rw [List.forall₂_map_left_iff]
    exact (forall₂_valueFiles fun home t => javaValueFile?_isSome s home).imp fun _ _ => written_value
  have hexceptions := List.Forall₂.cons written_base
    (hpair (exceptionUnit s) written_exception s.codes.table.derivedExceptions)
  have hnative : JavaUnit.Written s ⟨some Model.internalModule, "Native", nativeLines s m library⟩
      (nativeFile s m library) := written_native
  have hinternal : List.Forall₂ (JavaUnit.Written s) _ _ := .cons hnative (.cons written_byteArray .nil)
  -- No two of the files have one path, so none takes the place of another.
  rw [collect_of_nodup hnodup]
  exact ⟨_, rfl, List.rel_append (List.rel_append (List.rel_append hexceptions hinternal) hvalues)
    (hpair (moduleUnit s m) written_module m.modules)⟩

/-! ## How they are laid out -/

theorem laid_base : JavaUnit.Laid s ⟨none, baseException, baseExceptionLines s⟩ [] "public class "
    " extends Exception" :=
  .of_lines [line _] [_] rfl rfl (List.forall_mem_singleton.2 (by decide)) rfl

theorem laid_exception (hs : s.Standard) (name : String) : (exceptionUnit s name).Laid s []
    "public class " (" extends " ++ baseException) := by
  have hremark : "/** Raised for " = "/** " ++ "Raised for " := by decide
  have hreported : Unbroken (commas ((s.codes.table.reportedBy name).map (·.constant))) := by
    have hall : ∀ c ∈ ErrorTable.standard.codes, Unbroken c.constant := by decide
    rw [hs.table]
    exact unbroken_commas (List.forall_mem_map.2 fun c hc =>
      hall c (ErrorTable.mem_failures.1 (List.mem_filter.1 hc).1).1)
  refine .of_lines [line _] [_] rfl rfl (List.forall_mem_singleton.2 ?_) String.append_assoc
  rw [hremark]
  simp only [String.append_assoc]
  refine ⟨neat_line ?_ ?_, Or.inr ?_⟩
  · simp +decide only [unbroken_append, hreported, and_self]
  · simp only [← String.append_assoc]
    exact .append _ (by decide) (by decide)
  · rw [String.toList_append]
    exact List.prefix_append _ _

theorem laid_native : JavaUnit.Laid s ⟨some Model.internalModule, "Native", nativeLines s m library⟩ []
    "public final class " "" :=
  .of_lines [] [] rfl rfl (List.forall_mem_nil _)
    (by decide : "public final class Native" = "public final class " ++ ("Native" ++ ""))

/-- What the base of the classes of buffers imports. -/
def byteArrayImports (s : Setting) : List String :=
  ["java.util.Arrays", s.baseClass s.codes.invalidInput.exceptionName, s.baseClass baseException]

theorem laid_byteArray : JavaUnit.Laid s ⟨some Model.internalModule, "ByteArray", byteArrayLines s⟩
    (byteArrayImports s) "public abstract class " "" := by
  have harrays : "import java.util.Arrays;" = "import " ++ ("java.util.Arrays" ++ ";") := by decide
  have hremarks : ∀ text ∈ ["", "/** Fixed-length byte contents shared by every serialized " ++
      "zkgroup value. */"], Remark text := by decide
  refine .of_lines (Source.lines _) _ rfl ?_ hremarks
    (by decide : "public abstract class ByteArray" = "public abstract class " ++ ("ByteArray" ++ ""))
  rw [harrays]
  simp only [byteArrayImports, String.append_assoc]
  rfl

/-- What the class of a type imports: a buffer extends the base of all, and an enumeration tells
unknown numbers by a code. -/
def valueImports (s : Setting) (t : TypeDef) : List String :=
  [s.baseClass s.codes.invalidInput.exceptionName,
    if t.isBuffer then s.package Model.internalModule ++ ".ByteArray" else s.baseClass baseException]

/-- How the class of a type is declared: what stands before and behind its name. -/
def valueKind (t : TypeDef) : String × String :=
  if t.isBuffer then ("public final class ", " extends ByteArray") else ("public enum ", "")

theorem valueKind_mem (t : TypeDef) : (valueKind t).1 ∈ classKinds := by
  unfold valueKind
  split <;> decide

theorem laid_value {x : String × TypeDef} (h : x.2.isScalar = false) :
    (valueUnit s x).Laid s (valueImports s x.2) (valueKind x.2).1 (valueKind x.2).2 := by
  unfold valueImports valueKind
  cases hshape : x.2.shape with
  | buffer size =>
    have hbuffer : x.2.isBuffer = true := by rw [TypeDef.isBuffer, hshape]; rfl
    have hlines : (valueUnit s x).lines = bufferClassLines s x.1 x.2.name size := valueLines_buffer hshape
    rw [if_pos hbuffer, if_pos hbuffer]
    refine .of_lines (Source.lines _) [""] hlines ?_ (by decide) String.append_assoc
    have hbytes : ".ByteArray;" = ".ByteArray" ++ ";" := by decide
    rw [hbytes]
    simp only [List.map_cons, String.append_assoc]
    rfl
  | enum variants =>
    have hbuffer : x.2.isBuffer ≠ true := by rw [TypeDef.isBuffer, hshape]; exact Bool.false_ne_true
    have hlines : (valueUnit s x).lines = enumClassLines s x.1 x.2.name variants := valueLines_enum hshape
    rw [if_neg hbuffer, if_neg hbuffer]
    refine .of_lines (Source.lines _) [""] hlines ?_ (by decide) ?_
    · simp only [String.append_assoc]
      rfl
    · show _ = "public enum " ++ (x.2.name ++ "")
      rw [String.append_empty]
  | scalar w =>
    rw [TypeDef.isScalar, hshape] at h
    exact absurd h (Bool.false_ne_true ∘ Eq.symm)

theorem laid_module (module : Module) : (moduleUnit s m module).Laid s (javaImports s m module)
    "public final class " "" := by
  have hlines : (moduleUnit s m module).lines = line ("package " ++ s.package module.name ++ ";") :: gap ::
      (((javaImports s m module).map (fun i => line ("import " ++ i ++ ";")) ++ [gap]) ++
        block ("public final class " ++ moduleClass module.name)
          (gap :: block ("private " ++ moduleClass module.name ++ "()") [] ++
            gap :: module.functions.flatMap fun f => f.javaMembers s)) := by
    rw [List.append_assoc]
    rfl
  refine .of_lines _ [""] hlines ?_ (by decide) ?_
  · unfold Source.lines
    rw [List.map_append, List.map_map]
    simp only [String.append_assoc]
    rfl
  · rw [String.append_empty]
    rfl

end

end Bindery
