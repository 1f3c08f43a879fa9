/-
  WHERE TARGETS put their files.

  All files of a target are tidy: each is below one of the directories of the target, and every name
  on its path is made of declared names, whose characters are known.  And no two files of a target
  have one path.
-/
import Bindery.Proofs.Model.Homes
import Bindery.Proofs.Source.Tidy
import Bindery.Proofs.Target.Emission

namespace Bindery

open Source Target Naming

/-! ## Declared names as names of files -/

theorem wordy_of_isModuleName {name : String} (h : Naming.isModuleName name = true) :
    Wordy name.toList := wordy_of_plain (plain_of_isModuleName h)

theorem wordy_moduleClass {name : String} (h : Naming.isModuleName name = true) :
    Wordy (Naming.moduleClass name).toList :=
  wordy_of_plain (plain_capitalize (plain_of_isModuleName h))

theorem wordy_of_spelledChars {s : List Char}
    (h : Naming.spelledChars Naming.isIdentifierStart Naming.isIdentifierChar s = true) : Wordy s := by
  cases s with
  | nil => exact fun c hc => nomatch hc
  | cons c s =>
    rw [Naming.spelledChars, Bool.and_eq_true, List.all_eq_true] at h
    refine List.forall_mem_cons.2 ⟨?_, h.2⟩
    have hc := h.1
    unfold Naming.isIdentifierStart at hc
    unfold Naming.isIdentifierChar
    rcases (Bool.or_eq_true _ _).mp hc with hc | hc
    · rw [Char.isAlphanum, hc]
      rfl
    · rw [hc, Bool.or_true]

theorem wordy_of_isIdentifier {name : String} (h : Naming.isIdentifier name = true) :
    Wordy name.toList := wordy_of_spelledChars h

theorem component_of_isModuleName {name : String} (h : Naming.isModuleName name = true) :
    IsComponent name := by
  refine (wordy_of_isModuleName h).component ?_
  rintro rfl
  exact absurd h (by decide)

namespace Model.WellFormed

variable {m : Model}

theorem isModuleName (h : m.WellFormed) {module : Module} (hm : module ∈ m.modules) :
    Naming.isModuleName module.name = true := (h.spelled _ (List.mem_map.2 ⟨module, hm, rfl⟩)).1

theorem wordy_type (h : m.WellFormed) {t : TypeDef} (ht : t ∈ m.types) : Wordy t.name.toList :=
  wordy_of_plain (plain_of_isTypeName (h.types.each t ht).named.1)

end Model.WellFormed

/-- Types live in modules, or with the internal ones. -/
theorem home_cases {m : Model} (hm : m.WellFormed) {t : TypeDef} (ht : t ∈ m.types) :
    m.homeModule t ∈ m.moduleNames ∨ m.homeModule t = Model.internalModule := by
  unfold Model.homeModule
  cases hplace : t.placement with
  | some home => exact (hm.types.each t ht).placed home hplace
  | none =>
    cases hfind : m.functions.find? fun f => f.usedTypes.any (·.name == t.name) with
    | none => exact Or.inr rfl
    | some f =>
      obtain ⟨module, hmodule, hf⟩ := Model.mem_functions.1 (List.mem_of_find?_eq_some hfind)
      left
      show f.module ∈ _
      rw [((hm.modules module hmodule).functions f hf).2]
      exact List.mem_map.2 ⟨module, hmodule, rfl⟩

/-- A home is a directory: a name without an ending. -/
structure IsHome (home : String) : Prop where
  component : IsComponent home
  plain : '.' ∉ home.toList

theorem isHome_of_isModuleName {name : String} (h : Naming.isModuleName name = true) :
    IsHome name :=
  ⟨component_of_isModuleName h, (wordy_of_isModuleName h).notMem (by decide)⟩

theorem isHome_of_module {m : Model} (hm : m.WellFormed) {home : String}
    (hhome : home ∈ m.moduleNames ∨ home = Model.internalModule) : IsHome home := by
  rcases hhome with hhome | rfl
  · exact isHome_of_isModuleName (hm.spelled home hhome).1
  · exact ⟨by decide, by decide⟩

/-- A value file is the file of a type at a home that there is. -/
theorem mem_valueFiles {m : Model} (hm : m.WellFormed) {f : File}
    {file : String → TypeDef → Option File} (h : f ∈ valueFiles m file) :
    ∃ home t, IsHome home ∧ t ∈ m.types ∧ file home t = some f := by
  obtain ⟨home, hhome, hf⟩ := List.mem_flatMap.1 h
  obtain ⟨t, ht, hfile⟩ := List.mem_filterMap.1 hf
  have htype : ∀ {t}, t ∈ m.valueTypes → t ∈ m.types := fun ht => (Model.mem_valueTypes.1 ht).1
  refine ⟨home, t, isHome_of_module hm ?_, htype (Model.mem_typesOf.1 ht).1, hfile⟩
  rcases Model.mem_foldl_addName.1 (List.mem_filter.1 hhome).1 with hhome | hhome
  · exact Or.inl hhome
  · obtain ⟨u, hu, rfl⟩ := List.mem_map.1 hhome
    exact home_cases hm (htype hu)

/-! ## Tidy files of each layer -/

section

variable {s : Setting} {m : Model} {f : File}

/-- A name with an ending. -/
structure IsFileName (name : String) : Prop where
  component : IsComponent name
  ending : '.' ∈ name.toList

theorem tidy_of_two {dirs : List String} {dir name : String} (hdir : dir ∈ dirs)
    (hc : IsHome dir) (hname : IsFileName name) (hpath : f.path = dir ++ "/" ++ name) :
    f.Tidy dirs := by
  refine File.Tidy.of_names dir name [] ?_ hdir ?_ ?_ ?_
  · rw [hpath, String.intercalate_cons_cons, String.intercalate_singleton]
  · exact List.forall_mem_cons.2 ⟨hc.component, List.forall_mem_singleton.2 hname.component⟩
  · exact List.forall_mem_singleton.2 hc.plain
  · rintro _ ⟨⟩
    exact hname.ending

/-- What file names end in. -/
def endings : List String := [".rs", ".java", ".swift", ".h"]

theorem isFileName_ending {name ending : String} (h : Wordy name.toList)
    (hending : ending ∈ endings) : IsFileName (name ++ ending) := by
  have hcheck : ∀ e ∈ endings, e.toList.all (fun d => d != '/' && d != '\x00') = true ∧
      e.toList.any (· != '.') = true ∧ '.' ∈ e.toList := by decide
  obtain ⟨hclear, hother, hdot⟩ := hcheck ending hending
  obtain ⟨c, hc, hother⟩ := List.any_eq_true.1 hother
  constructor
  · refine h.component_append (fun d hd => ?_) hc (by simpa using hother)
    simpa using List.all_eq_true.1 hclear d hd
  · rw [String.toList_append]
    exact List.mem_append_right _ hdot

theorem tidy_javaFile {package : String} {body : List Line} {name : String}
    (h : Wordy name.toList) : (javaFile s name package body).Tidy Target.jvm.dirs := by
  refine tidy_of_two (by decide : javaDir ∈ Target.jvm.dirs) ⟨by decide, by decide⟩
    (isFileName_ending h (by decide : ".java" ∈ endings)) ?_
  exact String.append_assoc ..

theorem tidy_javaFile_home {package : String} {body : List Line} {home name : String}
    (hhome : IsHome home) (h : Wordy name.toList) :
    (javaFile s (home ++ "/" ++ name) package body).Tidy Target.jvm.dirs := by
  have hname := isFileName_ending h (by decide : ".java" ∈ endings)
  refine File.Tidy.of_names javaDir home [name ++ ".java"] ?_
    (by decide : javaDir ∈ Target.jvm.dirs) ?_ ?_ ?_
  · rw [String.intercalate_cons_cons, String.intercalate_cons_cons, String.intercalate_singleton]
    show javaDir ++ "/" ++ (home ++ "/" ++ name) ++ ".java" = _
    simp only [String.append_assoc]
  · refine List.forall_mem_cons.2 ⟨by decide, List.forall_mem_cons.2 ⟨hhome.component, ?_⟩⟩
    exact List.forall_mem_singleton.2 hname.component
  · exact List.forall_mem_cons.2 ⟨by decide, List.forall_mem_singleton.2 hhome.plain⟩
  · rintro _ ⟨⟩
    exact hname.ending

theorem tidy_swiftFile {name : String} {body : List Line} (h : Wordy name.toList) :
    (swiftFile s name body).Tidy Target.swift.dirs := by
  refine tidy_of_two (by decide : swiftDir ∈ Target.swift.dirs) ⟨by decide, by decide⟩
    (isFileName_ending h (by decide : ".swift" ∈ endings)) ?_
  exact String.append_assoc ..

variable (hm : m.WellFormed)
include hm

theorem tidy_coreFiles (refused : String) : ∀ f ∈ coreFiles s m refused, f.Tidy Target.core.dirs := by
  refine List.forall_mem_append.2 ⟨List.forall_mem_cons.2 ⟨?_, ?_⟩, List.forall_mem_singleton.2 ?_⟩
  · exact tidy_of_two (by decide : exportDir ∈ Target.core.dirs) ⟨by decide, by decide⟩
      (⟨by decide, by decide⟩ : IsFileName "ffiapi.rs") rfl
  · refine List.forall_mem_map.2 fun module hmodule => ?_
    refine tidy_of_two (by decide : exportDir ∈ Target.core.dirs) ⟨by decide, by decide⟩ ?_ rfl
    have hwordy : Wordy ("ffiapi_" ++ module.name).toList := by
      rw [String.toList_append]
      exact Wordy.append (by decide) (wordy_of_isModuleName (hm.isModuleName hmodule))
    exact isFileName_ending hwordy (by decide : ".rs" ∈ endings)
  · exact tidy_of_two (by decide : safeDir ∈ Target.core.dirs) ⟨by decide, by decide⟩
      (⟨by decide, by decide⟩ : IsFileName "simpleapi.rs") rfl

theorem tidy_jvmFiles (htable : s.codes.table = .standard) (library : FileText) :
    ∀ f ∈ jvmFiles s m library, f.Tidy Target.jvm.dirs := by
  refine List.forall_mem_cons.2 ⟨?_, List.forall_mem_append.2 ⟨List.forall_mem_append.2
    ⟨List.forall_mem_append.2 ⟨List.forall_mem_cons.2 ⟨?_, ?_⟩, ?_⟩, ?_⟩, ?_⟩⟩
  · exact tidy_of_two (by decide : glueDir ∈ Target.jvm.dirs) ⟨by decide, by decide⟩
      (⟨by decide, by decide⟩ : IsFileName "ffiapijava.rs") rfl
  · exact tidy_javaFile (by decide)
  · rw [htable]
    refine List.forall_mem_map.2 fun name hname => tidy_javaFile ?_
    have hall : ∀ name ∈ ErrorTable.standard.derivedExceptions, Wordy name.toList := by decide
    exact hall name hname
  · have hinternal : ∀ name : String, Wordy name.toList →
        (javaFile s ("internal" ++ "/" ++ name) "" []).Tidy Target.jvm.dirs :=
      fun name => tidy_javaFile_home ⟨by decide, by decide⟩
    have hnative : javaDir ++ "/" ++ "internal/Native" ++ ".java" =
        javaDir ++ "/" ++ ("internal" ++ "/" ++ "Native") ++ ".java" := by decide
    have hbytes : javaDir ++ "/" ++ "internal/ByteArray" ++ ".java" =
        javaDir ++ "/" ++ ("internal" ++ "/" ++ "ByteArray") ++ ".java" := by decide
    refine List.forall_mem_cons.2 ⟨?_, List.forall_mem_singleton.2 ?_⟩
    · exact (hinternal "Native" (by decide)).of_path hnative
    · exact (hinternal "ByteArray" (by decide)).of_path hbytes
  · intro f hf
    obtain ⟨home, t, hhome, ht, hfile⟩ := mem_valueFiles hm hf
    obtain ⟨_, rfl⟩ := exists_javaValueFile hfile
    exact tidy_javaFile_home hhome (hm.wordy_type ht)
  · refine List.forall_mem_map.2 fun module hmodule => ?_
    have hname := hm.isModuleName hmodule
    exact tidy_javaFile_home (isHome_of_isModuleName hname) (wordy_moduleClass hname)

theorem tidy_swiftFiles (hs : s.options.Valid) :
    ∀ f ∈ swiftFiles s m, f.Tidy Target.swift.dirs := by
  refine List.forall_mem_append.2 ⟨List.forall_mem_append.2 ⟨List.forall_mem_cons.2 ⟨?_,
    List.forall_mem_cons.2 ⟨?_, List.forall_mem_singleton.2 ?_⟩⟩, ?_⟩, ?_⟩
  · refine tidy_of_two (by decide : swiftDir ∈ Target.swift.dirs) ⟨by decide, by decide⟩
      (isFileName_ending (wordy_of_isIdentifier hs.libraryName) (by decide : ".h" ∈ endings)) ?_
    exact String.append_assoc ..
  · exact tidy_swiftFile (by decide)
  · exact tidy_swiftFile (by decide : Wordy "ByteArray".toList)
  · intro f hf
    obtain ⟨home, t, _, ht, hfile⟩ := mem_valueFiles hm hf
    obtain ⟨_, rfl⟩ := exists_swiftValueFile hfile
    exact tidy_swiftFile (hm.wordy_type ht)
  · refine List.forall_mem_map.2 fun module hmodule => ?_
    exact tidy_swiftFile (wordy_moduleClass (hm.isModuleName hmodule))

end

/-! ## The files of a target -/

/-- All files of a target are tidy, and no two have one path. -/
theorem Target.emit_tidy {t : Target} {m : Model} {o : Options} {files : List File}
    (hm : m.WellFormed) (ho : o.Valid) (h : t.emit m o .standard = .ok files) :
    (∀ f ∈ files, f.Tidy t.dirs) ∧ (files.map (·.path)).Nodup := by
  have hcollected : ∃ all, files = collect all ∧ ∀ f ∈ all, f.Tidy t.dirs := by
    cases t with
    | core =>
      obtain ⟨s, hs, refused, rfl⟩ := emit_core h
      exact ⟨_, rfl, tidy_coreFiles hm refused⟩
    | jvm =>
      obtain ⟨s, hs, library, rfl⟩ := emit_jvm h
      exact ⟨_, rfl, tidy_jvmFiles hm (Codes.table_of_internalFirst hs.codes) library⟩
    | swift =>
      obtain ⟨s, hs, rfl⟩ := emit_swift h
      exact ⟨_, rfl, tidy_swiftFiles hm (hs.options ▸ ho)⟩
  obtain ⟨all, rfl, hall⟩ := hcollected
  exact ⟨fun f hf => hall f (mem_of_mem_collect hf), nodup_collect all⟩

/-- A target has a file in each of its directories. -/
theorem Target.emit_fills {t : Target} {m : Model} {o : Options} {files : List File}
    (h : t.emit m o .standard = .ok files) {d : String} (hd : d ∈ t.dirs) :
    ∃ f ∈ files, f.names.head? = some d := by
  have hkept : ∀ {f : File} {all : List File}, f ∈ all → f.names.head? = some d →
      ∃ g ∈ collect all, g.names.head? = some d := by
    intro f all hf hhead
    obtain ⟨g, hg, hpath⟩ := exists_mem_collect hf
    exact ⟨g, hg, by rw [File.names, hpath]; exact hhead⟩
  have hpath : ∀ {f : File} (path : String), f.path = path →
      (Path.ofString path).names.head? = some d → f.names.head? = some d := by
    rintro f _ rfl hhead
    exact hhead
  cases t with
  | core =>
    obtain ⟨s, _, refused, rfl⟩ := emit_core h
    rcases List.mem_pair.1 hd with rfl | rfl
    · exact hkept (f := exportRoot s m) (List.mem_append_left _ List.mem_cons_self)
        (hpath "ffiapi/ffiapi.rs" rfl (by decide))
    · exact hkept (f := Bindery.safeLayer s m refused)
        (List.mem_append_right _ (List.mem_singleton_self _))
        (hpath "simpleapi/simpleapi.rs" rfl (by decide))
  | jvm =>
    obtain ⟨s, _, library, rfl⟩ := emit_jvm h
    rcases List.mem_pair.1 hd with rfl | rfl
    · exact hkept (f := glueFile s m) (by simp [jvmFiles])
        (hpath "ffiapijava/ffiapijava.rs" rfl (by decide))
    · exact hkept (f := baseExceptionFile s) (by simp [jvmFiles])
        (hpath "java/ZkGroupException.java" rfl (by decide))
  | swift =>
    obtain ⟨s, _, rfl⟩ := emit_swift h
    obtain rfl := List.mem_singleton.1 hd
    exact hkept (f := swiftErrorFile s) (by simp [swiftFiles])
      (hpath "swift/ZkGroupError.swift" rfl (by decide))

end Bindery
