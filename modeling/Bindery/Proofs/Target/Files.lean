/-
  THE FILES OF A TARGET, item by item.

  A target generates its files one after the other, and a later file of the same path would take
  the place of an earlier one.  It never comes to that.  What a file is about (`Item`) says where it
  goes, and the names behind the last slash are distinct already: those that the bindings bring
  along are reserved, no type is named like the class of a module, and every type has one home.  So
  collecting the files changes nothing, and what stands under each path is what was made for it.
-/
import Mathlib.Data.List.Forall2
import Bindery.Proofs.Naming.Distinct
import Bindery.Proofs.Target.Generation

namespace Bindery

open Source Target

/-! ## Items -/

/-- What a generated file is about. -/
inductive Item where
  | exports
  | moduleExports (module : Module)
  | safeLayer
  | glue
  | baseException
  | exception (name : String)
  | natives
  | javaBytes
  | javaValue (home : String) (t : TypeDef)
  | javaClass (module : Module)
  | header
  | swiftError
  | swiftBytes
  | swiftValue (t : TypeDef)
  | swiftSpace (module : Module)

namespace Item

/-- Where the file of an item goes. -/
def path (o : Options) : Item → String
  | exports => "ffiapi/ffiapi.rs"
  | moduleExports module => "ffiapi/ffiapi_" ++ module.name ++ ".rs"
  | safeLayer => "simpleapi/simpleapi.rs"
  | glue => "ffiapijava/ffiapijava.rs"
  | baseException => "java/ZkGroupException.java"
  | exception name => "java/" ++ name ++ ".java"
  | natives => "java/internal/Native.java"
  | javaBytes => "java/internal/ByteArray.java"
  | javaValue home t => "java/" ++ home ++ "/" ++ t.name ++ ".java"
  | javaClass module => "java/" ++ module.name ++ "/" ++ Naming.moduleClass module.name ++ ".java"
  | header => "swift/" ++ o.libraryName ++ ".h"
  | swiftError => "swift/ZkGroupError.swift"
  | swiftBytes => "swift/ByteArray.swift"
  | swiftValue t => "swift/" ++ t.name ++ ".swift"
  | swiftSpace module => "swift/" ++ Naming.moduleClass module.name ++ ".swift"

/-- `i.Renders s m f` — the file is the rendering of the item. -/
def Renders (s : Setting) (m : Model) : Item → File → Prop
  | exports, f => f = exportRoot s m
  | moduleExports module, f => f = exportModule s module
  | safeLayer, f => ∃ refused, s.codes.invalidInput.libraryVariants.head? = some refused ∧
      f = Bindery.safeLayer s m refused
  | glue, f => f = glueFile s m
  | baseException, f => f = baseExceptionFile s
  | exception name, f => f = exceptionFile s name
  | natives, f => ∃ library, FileText.ofValue s.options.jniLibraryName = .ok library ∧
      f = nativeFile s m library
  | javaBytes, f => f = byteArrayFile s
  | javaValue home t, f => javaValueFile? s home t = some f
  | javaClass module, f => f = javaModuleFile s m module
  | header, f => f = headerFile s m swiftDir
  | swiftError, f => f = swiftErrorFile s
  | swiftBytes, f => f = swiftByteArrayFile s
  | swiftValue t, f => swiftValueFile? s t = some f
  | swiftSpace module, f => f = swiftModuleFile s module

end Item

namespace Target

/-- What a target generates from an API, in order. -/
def items (m : Model) : Target → List Item
  | core => .exports :: m.modules.map .moduleExports ++ [.safeLayer]
  | jvm =>
    [.glue, .baseException, .exception "InvalidInputException",
      .exception "VerificationFailedException", .natives, .javaBytes] ++
      m.placedTypes.map (fun x => .javaValue x.1 x.2) ++ m.modules.map .javaClass
  | swift =>
    [.header, .swiftError, .swiftBytes] ++ m.placedTypes.map (fun x => .swiftValue x.2) ++
      m.modules.map .swiftSpace

end Target

/-! ## What a target is generated from -/

section

variable {m : Model} {o : Options} {t : ErrorTable} {s : Setting}

theorem Codes.invalidFirst_of_internalFirst {c : Codes} (h : internalFirst t = .ok c) :
    invalidFirst t = .ok c := by
  unfold internalFirst at h
  obtain ⟨internal, hinternal, h⟩ := bind_eq_ok.1 h
  obtain ⟨refused, hrefused, h⟩ := bind_eq_ok.1 h
  cases h
  unfold invalidFirst
  rw [hrefused, hinternal]
  rfl

theorem Setting.exists_for (hheader : o.header.Shown) {codes : Codes}
    (hcodes : Codes.internalFirst t = .ok codes) : ∃ s : Setting, s.For o t ∧ s.codes = codes := by
  obtain ⟨header, hheader⟩ := Header.exists_texts.2 hheader
  exact ⟨⟨o, header, codes⟩, ⟨rfl, hheader, hcodes⟩, rfl⟩

theorem Setting.For.emit_core (hs : s.For o t) (hsizes : m.Short) {refused : String}
    (hv : s.codes.invalidInput.libraryVariants.head? = some refused) :
    Target.core.emit m o t = .ok (collect (coreFiles s m refused)) := by
  obtain ⟨rest, hv⟩ := List.head?_eq_some_iff.1 hv
  unfold Target.emit
  rw [hs.header]
  dsimp only [bind, Except.bind]
  rw [hs.codes]
  dsimp only
  rw [hv]
  dsimp only
  rw [Model.checkSizes_eq_ok.2 hsizes, ← hs.options]
  rfl

theorem Setting.For.emit_jvm (hs : s.For o t) (hsizes : m.Short) {library : FileText}
    (hl : FileText.ofValue o.jniLibraryName = .ok library) :
    Target.jvm.emit m o t = .ok (collect (jvmFiles s m library)) := by
  unfold Target.emit
  rw [hs.header]
  dsimp only [bind, Except.bind]
  rw [Codes.invalidFirst_of_internalFirst hs.codes]
  dsimp only
  rw [hl]
  dsimp only
  rw [Model.checkSizes_eq_ok.2 hsizes, ← hs.options]
  rfl

theorem Setting.For.emit_swift (hs : s.For o t) (hsizes : m.Short) :
    Target.swift.emit m o t = .ok (collect (swiftFiles s m)) := by
  unfold Target.emit
  rw [hs.header]
  dsimp only [bind, Except.bind]
  rw [Model.checkSizes_eq_ok.2 hsizes]
  dsimp only
  rw [hs.codes, ← hs.options]
  rfl

end

/-! ## Names behind the last slash -/

/-- The part of a path behind its last slash. -/
def lastName (path : String) : List Char := (path.toList.reverse.takeWhile (· != '/')).reverse

theorem lastName_append {front name : String} (h : '/' ∉ name.toList) :
    lastName (front ++ "/" ++ name) = name.toList := by
  have hreverse : (front ++ "/" ++ name).toList.reverse =
      name.toList.reverse ++ '/' :: front.toList.reverse := by
    simp [String.toList_append]
  have hname : ∀ c ∈ name.toList.reverse, (c != '/') = true :=
    fun c hc => bne_iff_ne.2 fun heq => h (heq ▸ List.mem_reverse.1 hc)
  rw [lastName, hreverse, List.takeWhile_append_of_pos hname,
    List.takeWhile_cons_of_neg (by decide), List.append_nil, List.reverse_reverse]

/-! ## Names of classes -/

/-- No module has a class with a capital behind the first letter. -/
theorem moduleClass_ne_of_isUpper {module : String} (h : Naming.isModuleName module = true)
    {name : String} (hname : name.toList.tail.any Char.isUpper = true) :
    Naming.moduleClass module ≠ name := by
  rintro rfl
  obtain ⟨c, hc, hupper⟩ := List.any_eq_true.1 hname
  have hlow := Naming.not_isUpper_of_isModuleName h
  have htail : c ∈ module.toList := by
    cases hn : module.toList with
    | nil =>
      have hsame : Naming.moduleClass module = module := by
        unfold Naming.moduleClass Naming.capitalize
        rw [hn]
      rw [hsame] at hc
      exact hn ▸ List.mem_of_mem_tail hc
    | cons d s =>
      have hascii := Naming.toNat_lt_of_isAlphanum
        (plain_of_isModuleName h d (hn ▸ List.mem_cons_self))
      unfold Naming.moduleClass at hc
      rw [capitalize_toList hn hascii] at hc
      exact List.mem_cons_of_mem _ hc
  rw [hlow c htail] at hupper
  nomatch hupper

/-- A name that the bindings bring along, for no module to have as that of its class. -/
theorem moduleClass_ne {module name : String} (h : ModuleSpelled module)
    (hname : name = "Native" ∨ name.toList.tail.any Char.isUpper = true) :
    Naming.moduleClass module ≠ name := by
  rcases hname with rfl | hname
  · intro heq
    have hnative : Naming.moduleClass "native" = "Native" := by decide
    obtain rfl := moduleClass_injective h.1 (by decide : Naming.isModuleName "native" = true)
      (heq.trans hnative.symm)
    exact absurd h.2 (by decide)
  · exact moduleClass_ne_of_isUpper h.1 hname

/-- Names of classes that a target brings along. -/
structure SupportNames (names : List String) : Prop where
  distinct : names.Nodup
  wordy : ∀ n ∈ names, Wordy n.toList
  reserved : ∀ n ∈ names, n ∈ Naming.reservedTypeNames
  noModule : ∀ n ∈ names, n = "Native" ∨ n.toList.tail.any Char.isUpper = true

/-- The classes of a target have different names: those that it brings along, those of the types
and those of the modules. -/
theorem Model.WellFormed.nodup_classes {m : Model} (hm : m.WellFormed) {support : List String}
    (hs : SupportNames support) :
    (support ++ m.placedTypes.map (fun x => x.2.name) ++
      m.modules.map fun module => Naming.moduleClass module.name).Nodup := by
  have htype : ∀ name ∈ m.placedTypes.map (fun x => x.2.name), TypeNamed m.moduleNames name := by
    refine List.forall_mem_map.2 fun x hx => (hm.types.each x.2 ?_).named
    exact (Model.mem_placedTypes.1 (show (x.1, x.2) ∈ m.placedTypes from hx)).1
  have hmodules : (m.modules.map fun module => Naming.moduleClass module.name).Nodup := by
    refine List.pairwise_map.2 ((List.pairwise_map.1 hm.distinct).imp_of_mem fun ha hb hne heq => ?_)
    exact hne (moduleClass_injective (hm.isModuleName ha) (hm.isModuleName hb) heq)
  refine List.nodup_append.2 ⟨List.nodup_append.2 ⟨hs.distinct, Model.nodup_placedTypes hm, ?_⟩,
    hmodules, ?_⟩
  · rintro name hname _ hother rfl
    exact (htype name hother).2 name (List.mem_append_left _ (hs.reserved name hname)) rfl
  · rintro name hname _ hother rfl
    obtain ⟨module, hmodule, rfl⟩ := List.mem_map.1 hother
    rcases List.mem_append.1 hname with hname | hname
    · exact moduleClass_ne (hm.spelled _ (List.mem_map.2 ⟨module, hmodule, rfl⟩)) 
        (hs.noModule _ hname) rfl
    · refine (htype _ hname).2 _ (List.mem_append_right _ ?_) rfl
      exact List.mem_map.2 ⟨module.name, List.mem_map.2 ⟨module, hmodule, rfl⟩, rfl⟩

/-! ## Paths of items -/

namespace Item

/-- The name of the file of an item, without its ending. -/
def stem (o : Options) : Item → String
  | exports => "ffiapi"
  | moduleExports module => "ffiapi_" ++ module.name
  | safeLayer => "simpleapi"
  | glue => "ffiapijava"
  | baseException => "ZkGroupException"
  | exception name => name
  | natives => "Native"
  | javaBytes => "ByteArray"
  | javaValue _ t => t.name
  | javaClass module => Naming.moduleClass module.name
  | header => o.libraryName
  | swiftError => "ZkGroupError"
  | swiftBytes => "ByteArray"
  | swiftValue t => t.name
  | swiftSpace module => Naming.moduleClass module.name

/-- The ending of the file of an item. -/
def ending : Item → String
  | exports | moduleExports _ | safeLayer | glue => ".rs"
  | header => ".h"
  | swiftError | swiftBytes | swiftValue _ | swiftSpace _ => ".swift"
  | _ => ".java"

/-- Where the file of an item stands: everything in front of its name. -/
def directory : Item → String
  | exports | moduleExports _ => "ffiapi"
  | safeLayer => "simpleapi"
  | glue => "ffiapijava"
  | baseException | exception _ => "java"
  | natives | javaBytes => "java/internal"
  | javaValue home _ => "java/" ++ home
  | javaClass module => "java/" ++ module.name
  | _ => "swift"

variable {o : Options}

theorem path_eq (i : Item) : i.path o = i.directory ++ "/" ++ (i.stem o ++ i.ending) := by
  cases i <;> simp only [path, directory, stem, ending, ← String.append_assoc] <;> rfl

theorem ending_mem (i : Item) : i.ending ∈ endings := by
  cases i <;> simp [ending, endings]

theorem lastName_path {i : Item} (h : Wordy (i.stem o).toList) :
    lastName (i.path o) = (i.stem o ++ i.ending).toList := by
  have hending : ∀ e ∈ endings, '/' ∉ e.toList := by decide
  rw [path_eq]
  refine lastName_append ?_
  rw [String.toList_append, List.mem_append, not_or]
  exact ⟨h.notMem (by decide), hending _ i.ending_mem⟩

/-- Items whose files have one ending and different names. -/
theorem nodup_paths {items : List Item} {suffix : String} (h : ∀ i ∈ items, i.ending = suffix)
    (hw : ∀ i ∈ items, Wordy (i.stem o).toList) (hn : (items.map (stem o)).Nodup) :
    (items.map (path o)).Nodup := by
  refine List.Nodup.of_map lastName ?_
  have hlast : (items.map (path o)).map lastName =
      (items.map (stem o)).map fun name => (name ++ suffix).toList := by
    rw [List.map_map, List.map_map]
    refine List.map_congr_left fun i hi => ?_
    show lastName (i.path o) = (i.stem o ++ suffix).toList
    rw [lastName_path (hw i hi), h i hi]
  rw [hlast]
  exact hn.map fun a b heq => append_right_cancel (String.toList_inj.1 heq)

theorem path_ne {i j : Item} (h : i.ending ≠ j.ending) : i.path o ≠ j.path o := by
  have hlast : ∀ i : Item, (i.path o).toList.getLast? = i.ending.toList.getLast? := by
    intro i
    have hsome : ∀ e ∈ endings, e.toList.getLast?.isSome = true := by decide
    obtain ⟨c, hc⟩ := Option.isSome_iff_exists.1 (hsome _ i.ending_mem)
    rw [path_eq, hc]
    exact getLast?_toList_append _ (getLast?_toList_append _ hc)
  have hends : ∀ e ∈ endings, ∀ e' ∈ endings, e ≠ e' → e.toList.getLast? ≠ e'.toList.getLast? := by
    decide
  refine ne_of_getLast?_ne ?_
  rw [hlast, hlast]
  exact hends _ i.ending_mem _ j.ending_mem h

/-- One more item in front, whose file has another ending. -/
theorem nodup_paths_cons (first : Item) {items : List Item}
    (h : ∀ i ∈ items, i.ending ≠ first.ending) (hn : (items.map (path o)).Nodup) :
    ((first :: items).map (path o)).Nodup := by
  refine List.nodup_cons.2 ⟨fun hmem => ?_, hn⟩
  obtain ⟨i, hi, heq⟩ := List.mem_map.1 hmem
  exact path_ne (h i hi) heq

end Item

/-! ## No path twice -/

section

variable {m : Model} {o : Options}

theorem Model.WellFormed.wordy_placed (hm : m.WellFormed) :
    ∀ x ∈ m.placedTypes, Wordy x.2.name.toList := fun x hx =>
  hm.wordy_type (Model.mem_placedTypes.1 (show (x.1, x.2) ∈ m.placedTypes from hx)).1

theorem nodup_coreItems (hm : m.WellFormed) : ((Target.core.items m).map (Item.path o)).Nodup := by
  have hending : ∀ i ∈ Target.core.items m, i.ending = ".rs" :=
    List.forall_mem_append.2 ⟨List.forall_mem_cons.2 ⟨rfl, List.forall_mem_map.2 fun _ _ => rfl⟩,
      List.forall_mem_singleton.2 rfl⟩
  refine Item.nodup_paths hending ?_ ?_
  · refine List.forall_mem_append.2 ⟨List.forall_mem_cons.2
      ⟨(by decide : Wordy "ffiapi".toList), ?_⟩,
      List.forall_mem_singleton.2 (by decide : Wordy "simpleapi".toList)⟩
    refine List.forall_mem_map.2 fun module hmodule => ?_
    show Wordy ("ffiapi_" ++ module.name).toList
    rw [String.toList_append]
    exact Wordy.append (by decide) (wordy_of_isModuleName (hm.isModuleName hmodule))
  · have hstems : (Target.core.items m).map (Item.stem o) =
        "ffiapi" :: (m.moduleNames.map ("ffiapi_" ++ ·) ++ ["simpleapi"]) := by
      simp [Target.items, Model.moduleNames, Item.stem, Function.comp_def]
    have hroot : ∀ name : String, "ffiapi_" ++ name ≠ "ffiapi" := by
      intro name heq
      have hlength := congrArg String.length heq
      rw [String.length_append] at hlength
      have hseven : "ffiapi_".length = 7 := by decide
      have hsix : "ffiapi".length = 6 := by decide
      omega
    rw [hstems]
    refine List.nodup_cons.2 ⟨fun hmem => ?_, List.nodup_append.2
      ⟨hm.distinct.map fun a b heq => append_left_cancel heq, List.nodup_singleton _, ?_⟩⟩
    · rcases List.mem_append.1 hmem with hmem | hmem
      · obtain ⟨name, _, heq⟩ := List.mem_map.1 hmem
        exact hroot name heq
      · exact absurd hmem (by decide)
    · rintro a ha b hb rfl
      obtain ⟨name, _, rfl⟩ := List.mem_map.1 ha
      refine ne_of_head?_ne ?_ (List.mem_singleton.1 hb)
      rw [String.toList_append]
      exact (by decide : some 'f' ≠ "simpleapi".toList.head?)

/-- Items of a target besides its first: support, types and modules, each with its class. -/
theorem nodup_classItems (hm : m.WellFormed) {support : List Item} {names : List String}
    {value : String × TypeDef → Item} {space : Module → Item} {suffix : String}
    (hsupport : support.map (Item.stem o) = names) (hnames : SupportNames names)
    (hvalue : ∀ x, (value x).stem o = x.2.name)
    (hspace : ∀ module, (space module).stem o = Naming.moduleClass module.name)
    (hending : ∀ i ∈ support ++ m.placedTypes.map value ++ m.modules.map space,
      i.ending = suffix) :
    ((support ++ m.placedTypes.map value ++ m.modules.map space).map (Item.path o)).Nodup := by
  subst hsupport
  refine Item.nodup_paths hending ?_ ?_
  · refine List.forall_mem_append.2 ⟨List.forall_mem_append.2
      ⟨fun i hi => hnames.wordy _ (List.mem_map.2 ⟨i, hi, rfl⟩), ?_⟩, ?_⟩
    · refine List.forall_mem_map.2 fun x hx => ?_
      rw [hvalue]
      exact hm.wordy_placed x hx
    · refine List.forall_mem_map.2 fun module hmodule => ?_
      rw [hspace]
      exact wordy_moduleClass (hm.isModuleName hmodule)
  · have hvalues : m.placedTypes.map (Item.stem o ∘ value) = m.placedTypes.map fun x => x.2.name :=
      List.map_congr_left fun x _ => hvalue x
    have hspaces : m.modules.map (Item.stem o ∘ space) =
        m.modules.map fun module => Naming.moduleClass module.name :=
      List.map_congr_left fun module _ => hspace module
    rw [List.map_append, List.map_append, List.map_map, List.map_map, hvalues, hspaces]
    exact hm.nodup_classes hnames

theorem nodup_jvmItems (hm : m.WellFormed) : ((Target.jvm.items m).map (Item.path o)).Nodup := by
  have hending : ∀ i ∈ [.baseException, .exception "InvalidInputException",
      .exception "VerificationFailedException", .natives, .javaBytes] ++
      m.placedTypes.map (fun x => .javaValue x.1 x.2) ++ m.modules.map Item.javaClass,
      i.ending = ".java" :=
    List.forall_mem_append.2 ⟨List.forall_mem_append.2 ⟨by simp [Item.ending],
      List.forall_mem_map.2 fun _ _ => rfl⟩, List.forall_mem_map.2 fun _ _ => rfl⟩
  refine Item.nodup_paths_cons .glue (fun i hi => ?_) (nodup_classItems hm rfl ?_
    (fun _ => rfl) (fun _ => rfl) hending)
  · rw [hending i hi]
    exact (by decide : ".java" ≠ ".rs")
  · constructor <;> simp only [List.map_cons, List.map_nil, Item.stem] <;> decide

theorem nodup_swiftItems (hm : m.WellFormed) :
    ((Target.swift.items m).map (Item.path o)).Nodup := by
  have hending : ∀ i ∈ [.swiftError, .swiftBytes] ++
      m.placedTypes.map (fun x => .swiftValue x.2) ++ m.modules.map Item.swiftSpace,
      i.ending = ".swift" :=
    List.forall_mem_append.2 ⟨List.forall_mem_append.2 ⟨by simp [Item.ending],
      List.forall_mem_map.2 fun _ _ => rfl⟩, List.forall_mem_map.2 fun _ _ => rfl⟩
  refine Item.nodup_paths_cons .header (fun i hi => ?_) (nodup_classItems hm rfl ?_
    (fun _ => rfl) (fun _ => rfl) hending)
  · rw [hending i hi]
    exact (by decide : ".swift" ≠ ".h")
  · constructor <;> simp only [List.map_cons, List.map_nil, Item.stem] <;> decide

theorem Target.nodup_items (hm : m.WellFormed) (t : Target) :
    ((t.items m).map (Item.path o)).Nodup := by
  cases t with
  | core => exact nodup_coreItems hm
  | jvm => exact nodup_jvmItems hm
  | swift => exact nodup_swiftItems hm

end

/-! ## Files for items -/

theorem Item.Renders.path_eq {i : Item} {s : Setting} {m : Model} {f : File}
    (h : i.Renders s m f) : f.path = i.path s.options := by
  cases i with
  | safeLayer =>
    obtain ⟨refused, _, rfl⟩ := h
    rfl
  | natives =>
    obtain ⟨library, _, rfl⟩ := h
    rfl
  | javaValue home t =>
    obtain ⟨_, rfl⟩ := exists_javaValueFile (h : javaValueFile? s home t = some f)
    rfl
  | swiftValue t =>
    obtain ⟨_, rfl⟩ := exists_swiftValueFile (h : swiftValueFile? s t = some f)
    rfl
  | moduleExports module =>
    obtain rfl := h
    exact exportPath module.name
  | _ =>
    obtain rfl := h
    rfl

/-- Where every type has a value file, the value files are those of the placed types. -/
theorem forall₂_valueFiles {m : Model} {file : String → TypeDef → Option File}
    (h : ∀ home t, t.isScalar = false → (file home t).isSome = true) :
    List.Forall₂ (fun x f => file x.1 x.2 = some f) m.placedTypes (valueFiles m file) := by
  have hhome : ∀ home, List.Forall₂ (fun x f => file x.1 x.2 = some f)
      ((m.typesOf home).map fun t => (home, t)) ((m.typesOf home).filterMap (file home)) := by
    intro home
    have hall : ∀ t ∈ m.typesOf home, t.isScalar = false := fun t ht =>
      (Model.mem_valueTypes.1 (Model.mem_typesOf.1 ht).1).2
    generalize m.typesOf home = types at hall
    induction types with
    | nil => exact .nil
    | cons t ts ih =>
      obtain ⟨ht, hts⟩ := List.forall_mem_cons.1 hall
      obtain ⟨f, hf⟩ := Option.isSome_iff_exists.1 (h home t ht)
      rw [List.filterMap_cons_some hf]
      exact .cons hf (ih hts)
  unfold Model.placedTypes valueFiles
  induction m.valueModules with
  | nil => exact .nil
  | cons home homes ih => exact List.rel_append (hhome home) ih

theorem javaValueFile?_isSome (s : Setting) (home : String) {t : TypeDef}
    (h : t.isScalar = false) : (javaValueFile? s home t).isSome = true := by
  unfold javaValueFile?
  cases hshape : t.shape with
  | scalar w =>
    rw [TypeDef.isScalar, hshape] at h
    nomatch h
  | _ => rfl

theorem swiftValueFile?_isSome (s : Setting) {t : TypeDef} (h : t.isScalar = false) :
    (swiftValueFile? s t).isSome = true := by
  unfold swiftValueFile?
  cases hshape : t.shape with
  | scalar w =>
    rw [TypeDef.isScalar, hshape] at h
    nomatch h
  | _ => rfl

section

variable {s : Setting} {m : Model}

theorem forall₂_map_same {α : Type} {R : Item → File → Prop} {item : α → Item} {file : α → File}
    (h : ∀ a, R (item a) (file a)) (as : List α) :
    List.Forall₂ R (as.map item) (as.map file) := by
  rw [List.forall₂_map_left_iff, List.forall₂_map_right_iff]
  exact List.forall₂_same.2 fun a _ => h a

theorem renders_coreFiles {refused : String}
    (h : s.codes.invalidInput.libraryVariants.head? = some refused) :
    List.Forall₂ (Item.Renders s m) (Target.core.items m) (coreFiles s m refused) := by
  have hexports : List.Forall₂ (Item.Renders s m) (.exports :: m.modules.map .moduleExports)
      (exportRoot s m :: m.modules.map (exportModule s)) :=
    .cons rfl (forall₂_map_same (fun _ => rfl) m.modules)
  have hsafe : List.Forall₂ (Item.Renders s m) [.safeLayer] [safeLayer s m refused] :=
    .cons ⟨refused, h, rfl⟩ .nil
  exact List.rel_append hexports hsafe

theorem renders_jvmFiles (htable : s.codes.table = .standard) {library : FileText}
    (h : FileText.ofValue s.options.jniLibraryName = .ok library) :
    List.Forall₂ (Item.Renders s m) (Target.jvm.items m) (jvmFiles s m library) := by
  have hderived : s.codes.table.derivedExceptions =
      ["InvalidInputException", "VerificationFailedException"] := by
    rw [htable]
    decide
  have hsupport : List.Forall₂ (Item.Renders s m) [.glue, .baseException,
      .exception "InvalidInputException", .exception "VerificationFailedException", .natives,
      .javaBytes] [glueFile s m, baseExceptionFile s, exceptionFile s "InvalidInputException",
      exceptionFile s "VerificationFailedException", nativeFile s m library, byteArrayFile s] :=
    .cons rfl (.cons rfl (.cons rfl (.cons rfl (.cons ⟨library, h, rfl⟩ (.cons rfl .nil)))))
  have hvalues : List.Forall₂ (Item.Renders s m) (m.placedTypes.map fun x => .javaValue x.1 x.2)
      (valueFiles m (javaValueFile? s)) := by
    rw [List.forall₂_map_left_iff]
    exact forall₂_valueFiles fun home t => javaValueFile?_isSome s home
  unfold jvmFiles
  rw [hderived]
  exact List.rel_append (List.rel_append hsupport hvalues)
    (forall₂_map_same (fun _ => rfl) m.modules)

theorem renders_swiftFiles :
    List.Forall₂ (Item.Renders s m) (Target.swift.items m) (swiftFiles s m) := by
  have hsupport : List.Forall₂ (Item.Renders s m) [.header, .swiftError, .swiftBytes]
      [headerFile s m swiftDir, swiftErrorFile s, swiftByteArrayFile s] :=
    .cons rfl (.cons rfl (.cons rfl .nil))
  have hvalues : List.Forall₂ (Item.Renders s m) (m.placedTypes.map fun x => .swiftValue x.2)
      (valueFiles m fun _ => swiftValueFile? s) := by
    rw [List.forall₂_map_left_iff]
    exact forall₂_valueFiles fun _ t => swiftValueFile?_isSome s
  exact List.rel_append (List.rel_append hsupport hvalues)
    (forall₂_map_same (fun _ => rfl) m.modules)

end

/-- The paths of files are those of the items that they are for. -/
theorem map_path_of_renders {s : Setting} {m : Model} {items : List Item} {files : List File}
    (h : List.Forall₂ (Item.Renders s m) items files) :
    files.map (·.path) = items.map (Item.path s.options) := by
  induction h with
  | nil => rfl
  | cons hf _ ih => rw [List.map_cons, List.map_cons, hf.path_eq, ih]

/-- **No file is lost or overwritten.**  From an accepted description with sizes that can be
written, under options whose texts can be written, every target generates exactly its items, in
their order, each under its own path and as its rendering; and the types among them are those with a
value class, each once and at its home. -/
theorem files_in_place {es : List (Value × Value)} {m : Model} {o : Options}
    (hm : Model.ofDescription es = .ok m) (hsizes : m.Short) (hshown : o.Shown) :
    (∃ s : Setting, s.For o .standard ∧ ∀ t : Target, ∃ files, t.emit m o .standard = .ok files ∧
      List.Forall₂ (fun i f => f.path = i.path o ∧ i.Renders s m f) (t.items m) files ∧
      (files.map (·.path)).Nodup) ∧
    (m.placedTypes.map fun x => x.2.name).Nodup ∧
    ∀ home t, (home, t) ∈ m.placedTypes ↔
      t ∈ m.types ∧ t.isScalar = false ∧ home = m.homeModule t := by
  have hw : m.WellFormed := (ofDescription_eq_ok.1 hm).2
  obtain ⟨codes, hcodes⟩ : ∃ codes, Codes.internalFirst .standard = .ok codes :=
    exists_eq_ok (by decide)
  have hrefused : codes.invalidInput.libraryVariants.head? = some "BadArgs" := by
    cases hcodes
    rfl
  obtain ⟨s, hs, rfl⟩ := Setting.exists_for hshown.header hcodes
  obtain ⟨library, hlibrary⟩ :=
    FileText.exists_ofValue.2 (Options.plain_jniLibraryName hshown.library)
  -- Collecting keeps files whose paths are those of different items.
  have hkept : ∀ {t : Target} {files : List File}, List.Forall₂ (Item.Renders s m) (t.items m) files →
      collect files = files ∧ (files.map (·.path)).Nodup ∧
        List.Forall₂ (fun i f => f.path = i.path o ∧ i.Renders s m f) (t.items m) files := by
    intro t files h
    have hpaths := map_path_of_renders h
    have hn : (files.map (·.path)).Nodup := hpaths ▸ Target.nodup_items hw t
    exact ⟨collect_of_nodup hn, hn, h.imp fun i f hf => ⟨hs.options ▸ hf.path_eq, hf⟩⟩
  refine ⟨⟨s, hs, fun t => ?_⟩, Model.nodup_placedTypes hw, fun _ _ => Model.mem_placedTypes⟩
  cases t with
  | core =>
    obtain ⟨hcollect, hn, hall⟩ := hkept (t := .core) (renders_coreFiles (m := m) hrefused)
    exact ⟨_, hs.emit_core hsizes hrefused, hcollect.symm ▸ hall, hcollect.symm ▸ hn⟩
  | jvm =>
    obtain ⟨hcollect, hn, hall⟩ := hkept (t := .jvm) (renders_jvmFiles (m := m)
      (Codes.table_of_internalFirst hs.codes) (hs.options.symm ▸ hlibrary))
    exact ⟨_, hs.emit_jvm hsizes hlibrary, hcollect.symm ▸ hall, hcollect.symm ▸ hn⟩
  | swift =>
    obtain ⟨hcollect, hn, hall⟩ := hkept (t := .swift) (renders_swiftFiles (m := m))
    exact ⟨_, hs.emit_swift hsizes, hcollect.symm ▸ hall, hcollect.symm ▸ hn⟩

/-! ## A vault -/

/-- A description with a buffer of the given size that a function uses, a number, an enumeration
that is placed, and a buffer that nothing uses. -/
def vaultEntries (size : Int) : List (Value × Value) :=
  [(.str "types", .list
      [.map [(.str "name", .str "Key"), (.str "kind", .str "buffer"), (.str "size", .int size)],
        .map [(.str "name", .str "Count"), (.str "kind", .str "scalar"), (.str "size", .int 4)],
        .map [(.str "name", .str "Role"), (.str "kind", .str "enum"), (.str "module", .str "vault"),
          (.str "variants", .list [.str "Owner", .str "Guest"])],
        .map [(.str "name", .str "Salt"), (.str "kind", .str "buffer"), (.str "size", .int 16)]]),
    (.str "modules", .list
      [.map [(.str "name", .str "auth"), (.str "functions", .list
        [.map [(.str "name", .str "open"), (.str "params", .list
            [.map [(.str "name", .str "key"), (.str "type", .str "Key")],
              .map [(.str "name", .str "role"), (.str "type", .str "Role")],
              .map [(.str "name", .str "tries"), (.str "type", .str "Count")]]),
          (.str "returns", .str "Key")]])],
        .map [(.str "name", .str "vault")]])]

/-- The model of the vault. -/
def vaultModel (size : Nat) : Model :=
  let key : TypeDef := ⟨"Key", .buffer size, none⟩
  let count : TypeDef := ⟨"Count", .scalar .four, none⟩
  let role : TypeDef := ⟨"Role", .enum ["Owner", "Guest"], some "vault"⟩
  let salt : TypeDef := ⟨"Salt", .buffer 16, none⟩
  ⟨[key, count, role, salt], [⟨"auth", [⟨"open", "auth",
    [⟨"key", key, .input⟩, ⟨"role", role, .input⟩, ⟨"tries", count, .input⟩], some key, false⟩]⟩,
    ⟨"vault", []⟩]⟩

theorem ofDescription_vault : Model.ofDescription (vaultEntries 32) = .ok (vaultModel 32) := by
  decide +kernel

theorem shown_standard : Options.standard.Shown := ⟨fun _ h => (nomatch h), rfl⟩

theorem short_vault : (vaultModel 32).Short := Model.checkSizes_eq_ok.1 (by decide +kernel)

theorem files_in_place_vault :
    (Target.jvm.items (vaultModel 32)).map (Item.path .standard) =
        ["ffiapijava/ffiapijava.rs", "java/ZkGroupException.java",
          "java/InvalidInputException.java", "java/VerificationFailedException.java",
          "java/internal/Native.java", "java/internal/ByteArray.java", "java/auth/Key.java",
          "java/vault/Role.java", "java/internal/Salt.java", "java/auth/Auth.java",
          "java/vault/Vault.java"] ∧
      ∃ s : Setting, ∀ t : Target, ∃ files, t.emit (vaultModel 32) .standard .standard = .ok files ∧
        List.Forall₂ (fun i f => f.path = i.path .standard ∧ i.Renders s (vaultModel 32) f)
          (t.items (vaultModel 32)) files := by
  obtain ⟨⟨s, _, hall⟩, _⟩ := files_in_place ofDescription_vault short_vault shown_standard
  refine ⟨by decide +kernel, s, fun t => ?_⟩
  obtain ⟨files, hfiles, hitems, _⟩ := hall t
  exact ⟨files, hfiles, hitems⟩

/-- A size of more digits than are written leaves nothing in place: no target is generated. -/
theorem files_of_long_vault :
    Model.ofDescription (vaultEntries (10 ^ 4300)) = .ok (vaultModel (10 ^ 4300)) ∧
      Options.standard.Valid ∧
      ∀ (t : Target) files, t.emit (vaultModel (10 ^ 4300)) .standard .standard ≠ .ok files := by
  refine ⟨by decide +kernel, valid_standard, fun t files h => ?_⟩
  have hlong : (vaultModel (10 ^ 4300)).checkSizes ≠ .ok () := by decide +kernel
  exact hlong (Model.checkSizes_eq_ok.2 (Target.exists_emit.1 ⟨files, h⟩).2.1)

end Bindery
