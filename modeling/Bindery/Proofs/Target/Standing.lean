/-
  WHAT STANDS under a path, whatever the table.

  With a table of its own a target may bring along other exceptions than usual, and these may be
  named like anything.  They come early, so nothing that comes later is lost to them: whatever is
  behind them has paths of its own, and a file whose path does not come again stands.
-/
import Bindery.Proofs.Codes.Constants

namespace Bindery

open Source Target

/-- A file among the last ones stands, if these have different paths. -/
theorem emitted_of_back {s : Setting} {path : String} {body : List Line} (as : List File)
    {bs : List File} (hn : (bs.map (·.path)).Nodup) (h : s.file path body ∈ bs) :
    Emitted (collect (as ++ bs)) s path body := by
  obtain ⟨front, back, rfl, hback⟩ := exists_split hn h
  rw [← List.append_assoc]
  exact emitted_of_last hback

section

variable {s : Setting} {m : Model}

theorem emitted_core (hm : m.WellFormed) {refused : String}
    (hv : s.codes.invalidInput.libraryVariants.head? = some refused) {path : String}
    {body : List Line} (h : s.file path body ∈ coreFiles s m refused) :
    Emitted (collect (coreFiles s m refused)) s path body := by
  have hn : ((coreFiles s m refused).map (·.path)).Nodup := by
    rw [map_path_of_renders (m := m) (renders_coreFiles hv)]
    exact Target.nodup_items hm .core
  exact emitted_of_back [] hn h

theorem emitted_swift (hm : m.WellFormed) {path : String} {body : List Line}
    (h : s.file path body ∈ swiftFiles s m) : Emitted (collect (swiftFiles s m)) s path body := by
  have hn : ((swiftFiles s m).map (·.path)).Nodup := by
    rw [map_path_of_renders (m := m) renders_swiftFiles]
    exact Target.nodup_items hm .swift
  exact emitted_of_back [] hn h

/-- Every type that is no plain number has its value file. -/
theorem mem_valueFiles_home {file : String → TypeDef → Option File} {t : TypeDef} {f : File}
    (ht : t ∈ m.types) (hscalar : t.isScalar = false) (hf : file (m.homeModule t) t = some f) :
    f ∈ valueFiles m file := by
  have hvalue : t ∈ m.valueTypes := Model.mem_valueTypes.2 ⟨ht, hscalar⟩
  exact List.mem_flatMap.2 ⟨_, Model.homeModule_mem hvalue,
    List.mem_filterMap.2 ⟨t, Model.mem_typesOf.2 ⟨hvalue, rfl⟩, hf⟩⟩

/-- The value classes and the classes of the modules. -/
def javaClasses (s : Setting) (m : Model) : List File :=
  valueFiles m (javaValueFile? s) ++ m.modules.map (javaModuleFile s m)

/-- What they are about. -/
def javaClassItems (m : Model) : List Item :=
  m.placedTypes.map (fun x => .javaValue x.1 x.2) ++ m.modules.map .javaClass

theorem map_path_javaClasses (s : Setting) (m : Model) :
    (javaClasses s m).map (·.path) = (javaClassItems m).map (Item.path s.options) := by
  refine map_path_of_renders (List.rel_append ?_ (forall₂_map_same (fun _ => rfl) m.modules))
  rw [List.forall₂_map_left_iff]
  exact forall₂_valueFiles fun home t => javaValueFile?_isSome s home

/-- The classes of the Java side that do not depend on the table have different paths, the base
exception among them. -/
theorem nodup_javaClasses (hm : m.WellFormed) (o : Options) :
    (([Item.baseException, Item.natives, Item.javaBytes] ++
      javaClassItems m).map (Item.path o)).Nodup := by
  have hending : ∀ i ∈ [Item.baseException, Item.natives, Item.javaBytes] ++
      m.placedTypes.map (fun x => Item.javaValue x.1 x.2) ++ m.modules.map Item.javaClass,
      i.ending = ".java" :=
    List.forall_mem_append.2 ⟨List.forall_mem_append.2 ⟨by simp [Item.ending],
      List.forall_mem_map.2 fun _ _ => rfl⟩, List.forall_mem_map.2 fun _ _ => rfl⟩
  unfold javaClassItems
  rw [← List.append_assoc]
  refine nodup_classItems hm rfl ?_ (fun _ => rfl) (fun _ => rfl) hending
  constructor <;> simp only [List.map_cons, List.map_nil, Item.stem] <;> decide

theorem emitted_javaClass (hm : m.WellFormed) (library : FileText) {path : String}
    {body : List Line} (h : s.file path body ∈ javaClasses s m) :
    Emitted (collect (jvmFiles s m library)) s path body := by
  have hfiles : jvmFiles s m library = (glueFile s m :: baseExceptionFile s ::
      s.codes.table.derivedExceptions.map (exceptionFile s) ++
      [nativeFile s m library, byteArrayFile s]) ++ javaClasses s m := by
    unfold jvmFiles javaClasses
    rw [List.append_assoc]
  rw [hfiles]
  refine emitted_of_back _ ?_ h
  rw [map_path_javaClasses]
  have hn := nodup_javaClasses hm s.options
  rw [List.map_append] at hn
  exact (List.nodup_append.1 hn).2.1

theorem emitted_baseException (hm : m.WellFormed) (library : FileText) :
    Emitted (collect (jvmFiles s m library)) s "java/ZkGroupException.java"
      (baseExceptionLines s) := by
  have hn := nodup_javaClasses hm s.options
  rw [List.map_append, ← map_path_javaClasses] at hn
  obtain ⟨hbase, _⟩ := List.nodup_cons.1 hn
  have hfiles : jvmFiles s m library = [glueFile s m] ++
      s.file "java/ZkGroupException.java" (baseExceptionLines s) ::
      (s.codes.table.derivedExceptions.map (exceptionFile s) ++
        ([nativeFile s m library, byteArrayFile s] ++ javaClasses s m)) := by
    rw [← baseExceptionFile_eq]
    simp only [jvmFiles, javaClasses, List.cons_append, List.append_assoc, List.nil_append]
  rw [hfiles]
  refine emitted_of_last (List.forall_mem_append.2 ⟨?_, List.forall_mem_append.2 ⟨?_, ?_⟩⟩)
  · refine List.forall_mem_map.2 fun e he heq => ?_
    obtain ⟨_, _, _, _, hne⟩ := ErrorTable.mem_derivedExceptions.1 he
    refine hne ?_
    have hsame : "java/" ++ e ++ ".java" = "java/" ++ "ZkGroupException" ++ ".java" := heq
    exact append_left_cancel (append_right_cancel hsame)
  · exact List.forall_mem_cons.2 ⟨(by decide : javaDir ++ "/" ++ "internal/Native" ++ ".java" ≠ _),
      List.forall_mem_singleton.2 (by decide : javaDir ++ "/" ++ "internal/ByteArray" ++ ".java" ≠ _)⟩
  · intro f hf heq
    exact hbase (List.mem_append_right _ (List.mem_map.2 ⟨f, hf, heq⟩))

end

/-! ## Targets with a table of their own -/

/-- With a usable table all three targets are generated, and from one setting. -/
theorem ErrorTable.Usable.generates {t : ErrorTable} (ht : t.Usable) {m : Model} {o : Options}
    (hsizes : m.Short) (hshown : o.Shown) :
    ∃ s : Setting, s.For o t ∧ ∃ refused library,
      s.codes.invalidInput.libraryVariants.head? = some refused ∧
      Target.core.emit m o t = .ok (collect (coreFiles s m refused)) ∧
      Target.jvm.emit m o t = .ok (collect (jvmFiles s m library)) ∧
      Target.swift.emit m o t = .ok (collect (swiftFiles s m)) := by
  obtain ⟨s, hs, refused, hv⟩ := ht.exists_for hshown.header
  obtain ⟨library, hlibrary⟩ :=
    FileText.exists_ofValue.2 (Options.plain_jniLibraryName hshown.library)
  exact ⟨s, hs, refused, library, hv, hs.emit_core hsizes hv, hs.emit_jvm hsizes hlibrary,
    hs.emit_swift hsizes⟩

/-- A model with a size of too many digits is not generated from at all. -/
theorem Target.not_emit_of_long {t : Target} {m : Model} {o : Options}
    (h : m.checkSizes ≠ .ok ()) (files : List File) : t.emit m o .standard ≠ .ok files :=
  fun hfiles => h (Model.checkSizes_eq_ok.2 (Target.exists_emit.1 ⟨files, hfiles⟩).2.1)

end Bindery
