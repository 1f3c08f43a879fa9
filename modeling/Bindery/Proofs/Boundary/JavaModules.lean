/-
  THE CLASSES OF THE JAVA SIDE, where the files have them.

  The class of a module has for each of its functions a method, and a class for its results where there
  are several; the value classes have what a method asks of them.
-/
import Bindery.Proofs.Boundary.Arguments
import Bindery.Proofs.Boundary.Linking

namespace Bindery

open Source Target

/-! ## The classes of modules -/

/-- What the file of a module holds on the Java side. -/
def javaModuleLines (s : Setting) (m : Model) (module : Module) : List Line :=
  line ("package " ++ s.package module.name ++ ";") :: gap ::
    ((javaImports s m module).map (fun i => line ("import " ++ i ++ ";")) ++ gap ::
      block ("public final class " ++ Naming.moduleClass module.name)
        (gap :: block ("private " ++ Naming.moduleClass module.name ++ "()") [] ++
          gap :: module.functions.flatMap fun f => f.javaMembers s))

/-- Where the class of a module stands. -/
def javaModulePath (module : String) : String :=
  "java/" ++ module ++ "/" ++ Naming.moduleClass module ++ ".java"

section

variable {s : Setting} {m : Model}

theorem javaModuleFile_eq (module : Module) :
    javaModuleFile s m module = s.file (javaModulePath module.name) (javaModuleLines s m module) := by
  have hpath : javaDir ++ "/" ++ (module.name ++ "/" ++ Naming.moduleClass module.name) ++ ".java" =
      javaModulePath module.name := by
    have hdir : javaDir ++ "/" = "java/" := by decide
    rw [hdir, javaModulePath]
    simp only [String.append_assoc]
  rw [← hpath]
  rfl

/-- A module is told by the path of its class. -/
theorem javaModulePath_injective {a b : String} (ha : Naming.isModuleName a = true)
    (hb : Naming.isModuleName b = true) (h : javaModulePath a = javaModulePath b) : a = b := by
  have hlist := congrArg String.toList (append_right_cancel h)
  simp only [String.toList_append, List.append_assoc] at hlist
  have hslash : ∀ {name : String}, Naming.isModuleName name = true →
      ∀ c ∈ name.toList, (c == '/') = false := fun hname c hc =>
    beq_false_of_ne fun heq => (isHome_of_isModuleName hname).component.noSlash (heq ▸ hc)
  obtain ⟨hname, _, _⟩ := Text.append_cons_inj_of_first (p := (· == '/')) (hslash ha) (hslash hb)
    (by decide) (by decide) (List.append_cancel_left hlist)
  exact String.toList_inj.1 hname

theorem emitted_javaModuleFile (hm : m.WellFormed) (library : FileText) {module : Module}
    (h : module ∈ m.modules) :
    Emitted (collect (jvmFiles s m library)) s (javaModulePath module.name)
      (javaModuleLines s m module) := by
  obtain ⟨front, back, hsplit, hback⟩ := exists_split hm.distinct h
  have hfiles : jvmFiles s m library = (glueFile s m :: baseExceptionFile s ::
      s.codes.table.derivedExceptions.map (exceptionFile s) ++
      [nativeFile s m library, byteArrayFile s] ++ valueFiles m (javaValueFile? s) ++
      front.map (javaModuleFile s m)) ++
      s.file (javaModulePath module.name) (javaModuleLines s m module) ::
        back.map (javaModuleFile s m) := by
    unfold jvmFiles
    rw [hsplit, List.map_append, List.map_cons, javaModuleFile_eq module,
      List.append_assoc _ (front.map _)]
  rw [hfiles]
  refine emitted_of_last (List.forall_mem_map.2 fun b hb heq => hback b hb ?_)
  rw [javaModuleFile_eq] at heq
  have hmem : b ∈ m.modules := by
    rw [hsplit]
    exact List.mem_append_right _ (List.mem_cons_of_mem _ hb)
  exact javaModulePath_injective (hm.isModuleName hmem) (hm.isModuleName h) heq

/-- What a function adds to the class of its module stands there. -/
theorem javaMembers_infix {module : Module} {f : Function} (hf : f ∈ module.functions)
    {ls : List Line} (hls : ls <:+: f.javaMembers s) : indent ls <:+: javaModuleLines s m module := by
  have hbody : ls <:+: gap :: block ("private " ++ Naming.moduleClass module.name ++ "()") [] ++
      gap :: module.functions.flatMap fun f => f.javaMembers s :=
    hls.trans ((infix_flatMap (fun f : Function => f.javaMembers s) hf).trans
      ((List.suffix_cons _ _).trans (List.suffix_append _ _)).isInfix)
  have hblock : indent ls <:+: block ("public final class " ++ Naming.moduleClass module.name)
      (gap :: block ("private " ++ Naming.moduleClass module.name ++ "()") [] ++
        gap :: module.functions.flatMap fun f => f.javaMembers s) :=
    indent_infix_block hbody _
  unfold javaModuleLines
  refine hblock.trans ?_
  exact ((List.suffix_cons _ _).trans (List.suffix_append _ _)).isInfix.trans
    ((List.suffix_cons _ _).trans (List.suffix_cons _ _)).isInfix

theorem javaMethod_infix {module : Module} {f : Function} (hf : f ∈ module.functions) :
    indent ((f.javaMethod s).lines s) <:+: javaModuleLines s m module :=
  javaMembers_infix hf (List.suffix_append _ _).isInfix

/-- A function with several results has a class for them. -/
theorem resultClass_infix {module : Module} {f : Function} (hf : f ∈ module.functions)
    (h : f.outputCount > 1) :
    indent (resultClassLines f.resultClass f.resultFields) <:+: javaModuleLines s m module := by
  refine javaMembers_infix hf ?_
  unfold Function.javaMembers
  rw [if_pos h]
  exact (List.prefix_append _ _).isInfix

end

/-! ## What value classes have -/

/-- `HasAccessor s home t` — the value class of the type has the method that wrappers call on it: a
buffer that of the base of its class, an enumeration its own. -/
def HasAccessor (s : Setting) (home : String) (t : TypeDef) : Prop :=
  ∃ body, javaValueFile? s home t = some (javaFile s (javaTypePath home t.name) (s.package home) body) ∧
    ((t.isBuffer = true ∧
        line ("public final class " ++ t.name ++ " extends ByteArray" ++ " " ++ opening) ∈ body ∧
        ∃ base, byteArrayFile s =
            javaFile s "internal/ByteArray" (s.package Model.internalModule) base ∧
          line ("public abstract class ByteArray" ++ " " ++ opening) ∈ base ∧
          ⟨1, "public byte[] getInternalContentsForJNI()" ++ " " ++ opening⟩ ∈ base) ∨
      (t.isEnum = true ∧ line ("public enum " ++ t.name ++ " " ++ opening) ∈ body ∧
        ⟨1, "public int getValue()" ++ " " ++ opening⟩ ∈ body))

theorem line_mem_block (head : String) (body : List Line) :
    line (head ++ " " ++ opening) ∈ block head body :=
  List.mem_append_left _ List.mem_cons_self

theorem mem_block {l : Line} {body : List Line} (h : l ∈ body) (head : String) :
    (⟨l.depth + 1, l.text⟩ : Line) ∈ block head body :=
  List.mem_append_left _ (List.mem_cons_of_mem _ (List.mem_map.2 ⟨l, h, rfl⟩))

theorem hasAccessor (s : Setting) (home : String) {t : TypeDef} (h : t.isScalar = false) :
    HasAccessor s home t := by
  obtain ⟨name, shape, placement⟩ := t
  cases shape with
  | scalar w => nomatch h
  | buffer size =>
    have hbase : ∃ base, byteArrayFile s =
        javaFile s "internal/ByteArray" (s.package Model.internalModule) base ∧
        line ("public abstract class ByteArray" ++ " " ++ opening) ∈ base ∧
        ⟨1, "public byte[] getInternalContentsForJNI()" ++ " " ++ opening⟩ ∈ base := by
      refine ⟨_, rfl, List.mem_append_right _ (line_mem_block _ _),
        List.mem_append_right _ (mem_block (l := line _) ?_ _)⟩
      simp only [List.mem_append, List.mem_cons, line_mem_block, true_or, or_true]
    exact ⟨_, rfl, Or.inl ⟨rfl, List.mem_append_right _ (line_mem_block _ _), hbase⟩⟩
  | enum variants =>
    refine ⟨_, rfl, Or.inr ⟨rfl, List.mem_append_right _ (line_mem_block _ _),
      List.mem_append_right _ (mem_block (l := line _) ?_ _)⟩⟩
    simp only [List.mem_append, List.mem_cons, line_mem_block, true_or, or_true]

/-! ## Types that are used -/

/-- A function uses types that are declared. -/
theorem Model.WellFormed.usedTypes_mem {m : Model} (hm : m.WellFormed) {f : Function}
    (hf : f ∈ m.functions) : ∀ t ∈ f.usedTypes, t ∈ m.types := by
  intro t ht
  rcases List.mem_append.1 ht with ht | ht
  · obtain ⟨p, hp, rfl⟩ := List.mem_map.1 ht
    exact ((hm.function hf).parameters p hp).2
  · exact (hm.function hf).returns t (Option.mem_toList.1 ht)

/-! ## A function with a number of each kind -/

/-- A description of such a function. -/
def alarmEntries : List (Value × Value) :=
  [(.str "types", .list
      [.map [(.str "name", .str "Clock"), (.str "kind", .str "buffer"), (.str "size", .int 12)],
        .map [(.str "name", .str "Hour"), (.str "kind", .str "scalar"), (.str "size", .int 1)],
        .map [(.str "name", .str "Ticks"), (.str "kind", .str "scalar"), (.str "size", .int 8)],
        .map [(.str "name", .str "Sound"), (.str "kind", .str "enum"),
          (.str "variants", .list [.str "Bell", .str "Buzz"])]]),
    (.str "modules", .list [.map [(.str "name", .str "alarm"), (.str "functions", .list
      [.map [(.str "name", .str "arm"), (.str "params", .list
          [.map [(.str "name", .str "clock"), (.str "type", .str "Clock")],
            .map [(.str "name", .str "hour"), (.str "type", .str "Hour")],
            .map [(.str "name", .str "ticks"), (.str "type", .str "Ticks")],
            .map [(.str "name", .str "sound"), (.str "type", .str "Sound")]]),
        (.str "returns", .str "Clock")]])]])]

/-- The model with this function. -/
def alarmModel : Model :=
  let clock : TypeDef := ⟨"Clock", .buffer 12, none⟩
  let hour : TypeDef := ⟨"Hour", .scalar .one, none⟩
  let ticks : TypeDef := ⟨"Ticks", .scalar .eight, none⟩
  let sound : TypeDef := ⟨"Sound", .enum ["Bell", "Buzz"], none⟩
  ⟨[clock, hour, ticks, sound], [⟨"alarm", [⟨"arm", "alarm",
    [⟨"clock", clock, .input⟩, ⟨"hour", hour, .input⟩, ⟨"ticks", ticks, .input⟩,
      ⟨"sound", sound, .input⟩], some clock, false⟩]⟩]⟩

theorem ofDescription_alarm : Model.ofDescription alarmEntries = .ok alarmModel := by
  decide +kernel

end Bindery
