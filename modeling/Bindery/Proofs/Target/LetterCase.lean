/-
  NAMES THAT DIFFER IN CASE ONLY.

  Where a file system does not tell capitals from small letters, neither may the names of files.
  Types are held against everything: against the classes that the bindings bring along, the classes of
  the modules and each other, all in small letters (`nodup_lower_declared`).  Modules are held
  against the reserved words only, so what may collide is the class of a module with a class that the
  bindings bring along, and nothing else (`nodup_lower_classes`).  That takes one of nine names
  (`mem_supportModules`).

  Whether files collide depends on their directories, too.  On the Java side every module has one of
  its own, and the support is elsewhere; on the Swift side all files stand together.
-/
import Bindery.Proofs.Target.Standing

namespace Bindery

open Naming Source Target

/-! ## Small letters of ASCII texts -/

/-- `IsAscii s` — a text of ASCII characters. -/
def IsAscii (s : String) : Prop := ∀ c ∈ s.toList, c.toNat < 0x80

/-- `IsSmall s` — a text of ASCII characters without capitals. -/
def IsSmall (s : String) : Prop := ∀ c ∈ s.toList, c.toNat < 0x80 ∧ c.isUpper = false

instance (s : String) : Decidable (IsSmall s) :=
  decidable_of_iff ((s.toList.all fun c => c.toNat < 0x80 && !c.isUpper) = true)
    (by simp [IsSmall])

theorem IsSmall.ascii {s : String} (h : IsSmall s) : IsAscii s := fun c hc => (h c hc).1

theorem IsAscii.append {s t : String} (hs : IsAscii s) (ht : IsAscii t) : IsAscii (s ++ t) := by
  unfold IsAscii
  rw [String.toList_append]
  exact List.forall_mem_append.2 ⟨hs, ht⟩

theorem isAscii_of_wordy {s : String} (h : Wordy s.toList) : IsAscii s := by
  intro c hc
  rcases (Bool.or_eq_true _ _).mp (h c hc) with hplain | hbar
  · exact toNat_lt_of_isAlphanum hplain
  · rw [beq_iff_eq.1 hbar]
    decide

theorem IsAscii.toList_lower {s : String} (h : IsAscii s) :
    (lower s).toList = s.toList.map Char.toLower := by
  rw [lower, String.toList_ofList]
  exact Text.lower_of_ascii h

theorem IsAscii.lower_append {s t : String} (hs : IsAscii s) (ht : IsAscii t) :
    lower (s ++ t) = lower s ++ lower t := by
  apply String.toList_inj.1
  rw [(hs.append ht).toList_lower, String.toList_append, String.toList_append, hs.toList_lower,
    ht.toList_lower, List.map_append]

theorem wordy_lower {s : String} (h : Wordy s.toList) : Wordy (lower s).toList := by
  rw [(isAscii_of_wordy h).toList_lower]
  exact h.map (fun _ => isAlphanum_toLower) (by decide)

theorem IsSmall.lower_eq {s : String} (h : IsSmall s) : lower s = s := by
  have hsmall : ∀ c ∈ s.toList, c.toLower = c := fun c hc =>
    Char.toLower_eq_of_not_isUpper (Bool.eq_false_iff.1 (h c hc).2)
  apply String.toList_inj.1
  rw [h.ascii.toList_lower, List.map_congr_left hsmall, List.map_id']

theorem isSmall_of_isModuleName {name : String} (h : isModuleName name = true) : IsSmall name :=
  fun c hc => ⟨isAscii_of_wordy (wordy_of_isModuleName h) c hc, not_isUpper_of_isModuleName h c hc⟩

theorem lower_capitalize {name : String} (h : Plain name.toList) :
    lower (capitalize name) = lower name := by
  cases hn : name.toList with
  | nil =>
    have hsame : capitalize name = name := by
      unfold capitalize
      rw [hn]
    rw [hsame]
  | cons c s =>
    have hascii := toNat_lt_of_isAlphanum (h c (hn ▸ List.mem_cons_self))
    apply String.toList_inj.1
    rw [(isAscii_of_wordy (wordy_of_plain (plain_capitalize h))).toList_lower,
      (isAscii_of_wordy (wordy_of_plain h)).toList_lower, capitalize_toList hn hascii, hn,
      List.map_cons, List.map_cons, Char.toLower_toUpper_eq_toLower]

/-- The class of a module is its name, but for the case. -/
theorem lower_moduleClass {name : String} (h : isModuleName name = true) :
    lower (moduleClass name) = name :=
  (lower_capitalize (plain_of_isModuleName h)).trans (isSmall_of_isModuleName h).lower_eq

/-! ## Classes -/

/-- The names that a module may have and whose class is, but for the case, one that the bindings
bring along or rely on. -/
def supportModules : List String :=
  ["bytearray", "bytearrayvalue", "zkgrouperror", "zkgroupexception", "invalidinputexception",
    "verificationfailedexception", "string", "object", "error"]

theorem mem_supportModules {name : String} (h : ModuleSpelled name) :
    name ∈ reservedTypeNames.map lower ↔ name ∈ supportModules := by
  have hfree : ∀ n ∈ reservedTypeNames.map lower, isReservedModule n = false → n ∈ supportModules := by
    decide
  have hreserved : ∀ n ∈ supportModules, n ∈ reservedTypeNames.map lower := by decide
  exact ⟨fun hmem => hfree name hmem h.2, hreserved name⟩

section

variable {m : Model} {support names : List String}

theorem Model.WellFormed.lower_moduleClasses (hm : m.WellFormed) :
    (m.moduleNames.map moduleClass).map lower = m.moduleNames := by
  rw [List.map_map]
  exact (List.map_congr_left fun name hname => lower_moduleClass (hm.spelled name hname).1).trans
    (List.map_id _)

/-- Types differ from each other, and from what the bindings bring along. -/
theorem nodup_lower_declared (hm : m.WellFormed) (hs : (support.map lower).Nodup)
    (hsub : support ⊆ reservedTypeNames) (hn : names.Nodup)
    (hnames : names ⊆ m.types.map (·.name)) : ((support ++ names).map lower).Nodup := by
  have htypes : ((m.types.map (·.name)).map lower).Nodup := by
    rw [List.map_map]
    exact List.pairwise_map.2 hm.types.apart
  rw [List.map_append]
  refine List.nodup_append.2 ⟨hs, ?_, ?_⟩
  · exact hn.map_on fun a ha b hb heq =>
      List.inj_on_of_nodup_map htypes (hnames ha) (hnames hb) heq
  · rintro _ hclass _ htype rfl
    obtain ⟨other, hother, rfl⟩ := List.mem_map.1 hclass
    obtain ⟨name, hname, heq⟩ := List.mem_map.1 htype
    obtain ⟨t, ht, rfl⟩ := List.mem_map.1 (hnames hname)
    exact (hm.types.each t ht).named.2 other (mem_takenNames.2 (Or.inl (hsub hother))) heq.symm

/-- **Classes that differ in case only.**  The class of a module may collide with one that the
bindings bring along; no other two classes can. -/
theorem nodup_lower_classes (hm : m.WellFormed) (hs : (support.map lower).Nodup)
    (hsub : support ⊆ reservedTypeNames) (hn : names.Nodup)
    (hnames : names ⊆ m.types.map (·.name)) :
    ((support ++ names ++ m.moduleNames.map moduleClass).map lower).Nodup ↔
      ∀ name ∈ m.moduleNames, name ∉ support.map lower := by
  have hdeclared := nodup_lower_declared hm hs hsub hn hnames
  rw [List.map_append, hm.lower_moduleClasses, List.nodup_append]
  constructor
  · rintro ⟨_, _, hapart⟩ name hname hsupport
    rw [List.map_append] at hapart
    exact hapart name (List.mem_append_left _ hsupport) name hname rfl
  · refine fun hfree => ⟨hdeclared, hm.distinct, ?_⟩
    rintro _ hclass name hname rfl
    rw [List.map_append] at hclass
    rcases List.mem_append.1 hclass with hclass | hclass
    · exact hfree _ hname hclass
    · obtain ⟨type, htype, heq⟩ := List.mem_map.1 hclass
      obtain ⟨t, ht, rfl⟩ := List.mem_map.1 (hnames htype)
      refine (hm.types.each t ht).named.2 _ (mem_takenNames.2 (Or.inr (List.mem_map.2
        ⟨_, hname, rfl⟩))) ?_
      rw [lower_moduleClass (hm.spelled _ hname).1, heq]

end

/-! ## Paths in small letters -/

namespace Item

variable {o : Options}

/-- An item whose names are made of ASCII characters. -/
structure Named (o : Options) (i : Item) : Prop where
  directory : IsAscii i.directory
  stem : Wordy (i.stem o).toList

/-- Directory and name of an item, in small letters. -/
def place (o : Options) (i : Item) : String × String := (lower i.directory, lower (i.stem o))

theorem Named.lower_path {i : Item} (h : i.Named o) :
    lower (i.path o) = (i.place o).1 ++ "/" ++ ((i.place o).2 ++ i.ending) := by
  have hbar : IsSmall "/" := by decide
  have hending : IsSmall i.ending := (by decide : ∀ e ∈ endings, IsSmall e) _ i.ending_mem
  have hname := (isAscii_of_wordy h.stem).append hending.ascii
  rw [path_eq, (h.directory.append hbar.ascii).lower_append hname,
    h.directory.lower_append hbar.ascii, (isAscii_of_wordy h.stem).lower_append hending.ascii,
    hending.lower_eq, hbar.lower_eq]
  rfl

theorem Named.lastName_lower_path {i : Item} (h : i.Named o) :
    lastName (lower (i.path o)) = ((i.place o).2 ++ i.ending).toList := by
  have hendings : ∀ e ∈ endings, '/' ∉ e.toList := by decide
  rw [h.lower_path]
  refine lastName_append ?_
  rw [String.toList_append, List.mem_append, not_or]
  exact ⟨(wordy_lower h.stem).notMem (by decide), hendings _ i.ending_mem⟩

theorem Named.lower_path_inj {i j : Item} (hi : i.Named o) (hj : j.Named o)
    (h : i.ending = j.ending) : lower (i.path o) = lower (j.path o) ↔ i.place o = j.place o := by
  constructor
  · intro heq
    have hlast := congrArg lastName heq
    rw [hi.lastName_lower_path, hj.lastName_lower_path, h] at hlast
    have hname : (i.place o).2 = (j.place o).2 := append_right_cancel (String.toList_inj.1 hlast)
    rw [hi.lower_path, hj.lower_path, h, hname] at heq
    exact Prod.ext (append_right_cancel (append_right_cancel heq)) hname
  · intro heq
    rw [hi.lower_path, hj.lower_path, h, heq]

/-- Files with one ending are told apart by directory and name. -/
theorem nodup_lower_paths {items : List Item} {suffix : String}
    (h : ∀ i ∈ items, i.ending = suffix) (hn : ∀ i ∈ items, i.Named o) :
    ((items.map (path o)).map lower).Nodup ↔ (items.map (place o)).Nodup := by
  rw [List.map_map]
  unfold List.Nodup
  rw [List.pairwise_map, List.pairwise_map]
  refine List.Pairwise.iff_of_mem fun {i j} hi hj => not_congr ?_
  exact (hn i hi).lower_path_inj (hn j hj) ((h i hi).trans (h j hj).symm)

/-- One more item in front, whose file has another ending. -/
theorem nodup_lower_paths_cons {first : Item} {items : List Item}
    (h : ∀ i ∈ items, i.ending ≠ first.ending) (hf : first.Named o) (hn : ∀ i ∈ items, i.Named o) :
    (((first :: items).map (path o)).map lower).Nodup ↔ ((items.map (path o)).map lower).Nodup := by
  have hlast : ∀ {i : Item}, i.Named o →
      (lower (i.path o)).toList.getLast? = i.ending.toList.getLast? := by
    intro i hi
    have hsome : ∀ e ∈ endings, e.toList.getLast?.isSome = true := by decide
    obtain ⟨c, hc⟩ := Option.isSome_iff_exists.1 (hsome _ i.ending_mem)
    rw [hi.lower_path, hc]
    exact getLast?_toList_append _ (getLast?_toList_append _ hc)
  have hends : ∀ e ∈ endings, ∀ e' ∈ endings, e ≠ e' → e.toList.getLast? ≠ e'.toList.getLast? := by
    decide
  rw [List.map_cons, List.map_cons, List.nodup_cons]
  refine and_iff_right fun hmem => ?_
  obtain ⟨_, hpath, heq⟩ := List.mem_map.1 hmem
  obtain ⟨i, hi, rfl⟩ := List.mem_map.1 hpath
  refine hends _ i.ending_mem _ first.ending_mem (h i hi) ?_
  rw [← hlast (hn i hi), ← hlast hf, heq]

end Item

/-! ## Files of the Java side -/

/-- The exceptions of a table, with their base class. -/
def ErrorTable.exceptionClasses (t : ErrorTable) : List String := baseException :: t.derivedExceptions

section

variable {m : Model} {o : Options}

/-- What the Java side brings along outside the package of the internal classes. -/
def exceptionItems (t : ErrorTable) : List Item :=
  .baseException :: t.derivedExceptions.map .exception

/-- What the Java side is made of, the glue apart. -/
def javaItems (t : ErrorTable) (m : Model) : List Item :=
  exceptionItems t ++ ([.natives, .javaBytes] ++ javaClassItems m)

theorem place_exceptionItems (t : ErrorTable) : (exceptionItems t).map (Item.place o) =
    (t.exceptionClasses.map lower).map fun name => (lower "java", name) := by
  unfold exceptionItems ErrorTable.exceptionClasses
  simp [Item.place, Item.directory, Item.stem, baseException, Function.comp_def]

theorem ErrorTable.Usable.wordy_exceptionClasses {t : ErrorTable} (ht : t.Usable) :
    ∀ name ∈ t.exceptionClasses, Wordy name.toList := by
  refine List.forall_mem_cons.2 ⟨by decide, fun name hname => ?_⟩
  obtain ⟨c, hc, he, hne, _⟩ := ErrorTable.mem_derivedExceptions.1 hname
  have hcode := (ErrorTable.mem_failures.1 hc).1
  exact wordy_of_isIdentifier ((ht.exceptions c hcode name he).resolve_left hne)

theorem named_javaItems {t : ErrorTable} (ht : t.Usable) (hm : m.WellFormed) :
    ∀ i ∈ javaItems t m, i.Named o := by
  have hroot : IsAscii "java" := (by decide : IsSmall "java").ascii
  have hinternal : IsAscii "java/internal" := (by decide : IsSmall "java/internal").ascii
  have hbelow : ∀ {home : String}, Wordy home.toList → IsAscii ("java/" ++ home) :=
    fun h => (by decide : IsSmall "java/").ascii.append (isAscii_of_wordy h)
  refine List.forall_mem_append.2 ⟨?_, List.forall_mem_append.2 ⟨?_,
    List.forall_mem_append.2 ⟨?_, ?_⟩⟩⟩
  · obtain ⟨hbase, hderived⟩ := List.forall_mem_cons.1 ht.wordy_exceptionClasses
    exact List.forall_mem_cons.2 ⟨⟨hroot, hbase⟩,
      List.forall_mem_map.2 fun e he => ⟨hroot, hderived e he⟩⟩
  · exact List.forall_mem_cons.2 ⟨⟨hinternal, (by decide : Wordy "Native".toList)⟩,
      List.forall_mem_singleton.2 ⟨hinternal, (by decide : Wordy "ByteArray".toList)⟩⟩
  · refine List.forall_mem_map.2 fun x hx => ⟨hbelow ?_, hm.wordy_placed x hx⟩
    obtain ⟨ht, _, hhome⟩ := Model.mem_placedTypes.1 (show (x.1, x.2) ∈ m.placedTypes from hx)
    rw [hhome]
    rcases home_cases hm ht with hmem | hinternal
    · exact wordy_of_isModuleName (hm.spelled _ hmem).1
    · rw [hinternal]
      decide
  · refine List.forall_mem_map.2 fun module hmodule => ?_
    have hname := hm.isModuleName hmodule
    exact ⟨hbelow (wordy_of_isModuleName hname), wordy_moduleClass hname⟩

/-- A directory below that of the Java side, in small letters. -/
theorem lower_below {name : String} (h : IsAscii name) :
    lower ("java/" ++ name) = "java/" ++ lower name := by
  have hroot : IsSmall "java/" := by decide
  rw [hroot.ascii.lower_append h, hroot.lower_eq]

theorem nodup_place_values (hm : m.WellFormed) : (([Item.natives, .javaBytes] ++
    m.placedTypes.map fun x => Item.javaValue x.1 x.2).map (Item.place o)).Nodup := by
  have hstems : (([Item.natives, .javaBytes] ++
      m.placedTypes.map fun x => Item.javaValue x.1 x.2).map (Item.place o)).map Prod.snd =
      (["Native", "ByteArray"] ++ m.placedTypes.map fun x => x.2.name).map lower := by
    simp [Item.place, Item.stem, Function.comp_def]
  refine List.Nodup.of_map Prod.snd ?_
  rw [hstems]
  refine nodup_lower_declared hm (by decide) (by decide) (Model.nodup_placedTypes hm) ?_
  refine List.forall_mem_map.2 fun x hx => List.mem_map.2 ⟨x.2, ?_, rfl⟩
  exact (Model.mem_placedTypes.1 (show (x.1, x.2) ∈ m.placedTypes from hx)).1

/-- The class of a module stands apart from types by its name, and from the internal classes by its
directory: a module that shares that directory is named like it. -/
theorem nodup_place_javaClasses (hm : m.WellFormed) :
    (([Item.natives, .javaBytes] ++ javaClassItems m).map (Item.place o)).Nodup := by
  have hplace : ∀ module ∈ m.modules,
      (Item.javaClass module).place o = ("java/" ++ module.name, module.name) := by
    intro module hmodule
    have hname := isSmall_of_isModuleName (hm.isModuleName hmodule)
    refine Prod.ext ?_ (lower_moduleClass (hm.isModuleName hmodule))
    show lower ("java/" ++ module.name) = _
    rw [lower_below hname.ascii, hname.lower_eq]
  have hclasses : (m.modules.map Item.javaClass).map (Item.place o) =
      m.moduleNames.map fun name => ("java/" ++ name, name) := by
    rw [List.map_map, Model.moduleNames, List.map_map]
    exact List.map_congr_left hplace
  unfold javaClassItems
  rw [← List.append_assoc, List.map_append, hclasses]
  refine List.nodup_append.2 ⟨nodup_place_values hm, hm.distinct.map fun a b heq =>
    (Prod.mk.inj heq).2, ?_⟩
  rintro _ hitem _ hclass rfl
  obtain ⟨name, hname, hplaced⟩ := List.mem_map.1 hclass
  rw [List.map_append] at hitem
  rcases List.mem_append.1 hitem with hinternal | hvalue
  · have hall : ∀ p ∈ [Item.natives, .javaBytes].map (Item.place o),
        p.1 = "java/internal" ∧ p.2 ≠ "internal" := by
      have hdirectory : lower "java/internal" = "java/internal" :=
        (by decide : IsSmall "java/internal").lower_eq
      exact List.forall_mem_cons.2 ⟨⟨hdirectory, (by decide : lower "Native" ≠ "internal")⟩,
        List.forall_mem_singleton.2 ⟨hdirectory, (by decide : lower "ByteArray" ≠ "internal")⟩⟩
    obtain ⟨hdirectory, hother⟩ := hall _ hinternal
    rw [← hplaced] at hdirectory hother
    exact hother (append_left_cancel (a := "java/") hdirectory)
  · obtain ⟨i, hi, heq⟩ := List.mem_map.1 hvalue
    obtain ⟨x, hx, rfl⟩ := List.mem_map.1 hi
    have ht := (Model.mem_placedTypes.1 (show (x.1, x.2) ∈ m.placedTypes from hx)).1
    refine (hm.types.each x.2 ht).named.2 _ (mem_takenNames.2 (Or.inr (List.mem_map.2
      ⟨name, hname, rfl⟩))) ?_
    rw [lower_moduleClass (hm.spelled _ hname).1]
    exact congrArg Prod.snd (hplaced.trans heq.symm)

/-- The exceptions stand in front of all packages. -/
theorem nodup_place_javaItems {t : ErrorTable} (ht : t.Usable) (hm : m.WellFormed)
    (hapart : (t.exceptionClasses.map lower).Nodup) :
    ((javaItems t m).map (Item.place o)).Nodup := by
  have hbelow : ∀ i ∈ [Item.natives, .javaBytes] ++ javaClassItems m,
      '/' ∈ i.directory.toList := by
    refine List.forall_mem_append.2 ⟨by decide, List.forall_mem_append.2
      ⟨List.forall_mem_map.2 fun x _ => ?_, List.forall_mem_map.2 fun module _ => ?_⟩⟩
    · show '/' ∈ ("java/" ++ x.1).toList
      rw [String.toList_append]
      exact List.mem_append_left _ (by decide)
    · show '/' ∈ ("java/" ++ module.name).toList
      rw [String.toList_append]
      exact List.mem_append_left _ (by decide)
  unfold javaItems
  rw [List.map_append]
  refine List.nodup_append.2 ⟨?_, nodup_place_javaClasses hm, ?_⟩
  · rw [place_exceptionItems]
    exact hapart.map fun a b heq => (Prod.mk.inj heq).2
  · rintro p hp _ hrest rfl
    obtain ⟨i, hi, rfl⟩ := List.mem_map.1 hrest
    rw [place_exceptionItems] at hp
    obtain ⟨name, _, heq⟩ := List.mem_map.1 hp
    have hroot : (i.place o).1 = "java" := by
      rw [← heq]
      exact (by decide : IsSmall "java").lower_eq
    have hnamed := named_javaItems (o := o) ht hm i (List.mem_append_right _ hi)
    have hslash : '/' ∈ ((i.place o).1).toList := by
      show '/' ∈ (lower i.directory).toList
      rw [hnamed.directory.toList_lower]
      exact List.mem_map.2 ⟨'/', hbelow i hi, by decide⟩
    rw [hroot] at hslash
    exact absurd hslash (by decide)

/-- No two files of the Java side differ in case only, if no two exceptions do. -/
theorem nodup_lower_jvmFiles {t : ErrorTable} {files : List File} (ht : t.Usable)
    (hm : m.WellFormed) (hapart : (t.exceptionClasses.map lower).Nodup)
    (h : Target.jvm.emit m o t = .ok files) : ((files.map (·.path)).map lower).Nodup := by
  obtain ⟨s, hs, library, rfl⟩ := emit_jvm h
  have htable : s.codes.table = t := Codes.table_of_internalFirst hs.codes
  have hpaths : (jvmFiles s m library).map (·.path) =
      (Item.glue :: javaItems t m).map (Item.path o) := by
    have hfiles : jvmFiles s m library = glueFile s m :: baseExceptionFile s ::
        t.derivedExceptions.map (exceptionFile s) ++
        ([nativeFile s m library, byteArrayFile s] ++ javaClasses s m) := by
      unfold jvmFiles javaClasses
      rw [htable, List.append_assoc, List.append_assoc]
    have hderived : (t.derivedExceptions.map (exceptionFile s)).map (·.path) =
        (t.derivedExceptions.map Item.exception).map (Item.path o) := by
      rw [List.map_map, List.map_map]
      rfl
    have hclasses := map_path_javaClasses s m
    rw [hs.options] at hclasses
    unfold javaItems exceptionItems
    rw [hfiles, ← List.cons_append, List.map_append, List.map_append, List.map_cons, List.map_cons,
      hderived, List.map_append, hclasses, List.map_append]
    rfl
  have hending : ∀ i ∈ javaItems t m, i.ending = ".java" :=
    List.forall_mem_append.2 ⟨List.forall_mem_cons.2 ⟨rfl, List.forall_mem_map.2 fun _ _ => rfl⟩,
      List.forall_mem_append.2 ⟨List.forall_mem_cons.2 ⟨rfl, List.forall_mem_singleton.2 rfl⟩,
        List.forall_mem_append.2 ⟨List.forall_mem_map.2 fun _ _ => rfl,
          List.forall_mem_map.2 fun _ _ => rfl⟩⟩⟩
  have hnamed := named_javaItems (o := o) ht hm
  have hglue : Item.glue.Named o :=
    ⟨(by decide : IsSmall "ffiapijava").ascii, (by decide : Wordy "ffiapijava".toList)⟩
  have hlower : (((jvmFiles s m library).map (·.path)).map lower).Nodup := by
    rw [hpaths, Item.nodup_lower_paths_cons (fun i hi => ?_) hglue hnamed,
      Item.nodup_lower_paths hending hnamed]
    · exact nodup_place_javaItems ht hm hapart
    · rw [hending i hi]
      exact (by decide : ".java" ≠ ".rs")
  rwa [collect_of_nodup hlower.of_map]

/-! ## Files of the Swift side -/

/-- Two files of the Swift side differ in case only where a module is named, but for the case, like
the error type or the type of byte arrays. -/
theorem nodup_lower_swiftFiles {t : ErrorTable} {files : List File} (ho : o.Valid)
    (hm : m.WellFormed) (h : Target.swift.emit m o t = .ok files) :
    ((files.map (·.path)).map lower).Nodup ↔
      ∀ name ∈ m.moduleNames, name ∉ ["ZkGroupError", "ByteArray"].map lower := by
  obtain ⟨s, hs, rfl⟩ := emit_swift h
  have hpaths : (swiftFiles s m).map (·.path) = (Target.swift.items m).map (Item.path o) := by
    rw [map_path_of_renders (m := m) renders_swiftFiles, hs.options]
  have hn : ((swiftFiles s m).map (·.path)).Nodup := hpaths ▸ Target.nodup_items hm .swift
  let rest := [.swiftError, .swiftBytes] ++ (m.placedTypes.map fun x => Item.swiftValue x.2) ++
    m.modules.map Item.swiftSpace
  have hending : ∀ i ∈ rest, i.ending = ".swift" :=
    List.forall_mem_append.2 ⟨List.forall_mem_append.2 ⟨List.forall_mem_cons.2 ⟨rfl,
      List.forall_mem_singleton.2 rfl⟩, List.forall_mem_map.2 fun _ _ => rfl⟩,
      List.forall_mem_map.2 fun _ _ => rfl⟩
  have hdirectory : IsAscii "swift" := (by decide : IsSmall "swift").ascii
  have hnamed : ∀ i ∈ rest, i.Named o := by
    refine List.forall_mem_append.2 ⟨List.forall_mem_append.2 ⟨List.forall_mem_cons.2
      ⟨⟨hdirectory, (by decide : Wordy "ZkGroupError".toList)⟩, List.forall_mem_singleton.2
      ⟨hdirectory, (by decide : Wordy "ByteArray".toList)⟩⟩, ?_⟩, ?_⟩
    · exact List.forall_mem_map.2 fun x hx => ⟨hdirectory, hm.wordy_placed x hx⟩
    · exact List.forall_mem_map.2 fun module hmodule =>
        ⟨hdirectory, wordy_moduleClass (hm.isModuleName hmodule)⟩
  have hheader : Item.header.Named o := ⟨hdirectory, wordy_of_isIdentifier ho.libraryName⟩
  have hplaces : rest.map (Item.place o) = ((["ZkGroupError", "ByteArray"] ++
      (m.placedTypes.map fun x => x.2.name) ++ m.moduleNames.map moduleClass).map lower).map
      fun name => (lower "swift", name) := by
    simp [rest, Item.place, Item.directory, Item.stem, Model.moduleNames, Function.comp_def]
  rw [collect_of_nodup hn, hpaths]
  show (((Item.header :: rest).map (Item.path o)).map lower).Nodup ↔ _
  rw [Item.nodup_lower_paths_cons (fun i hi => ?_) hheader hnamed,
    Item.nodup_lower_paths hending hnamed, hplaces,
    List.nodup_map_iff fun a b heq => (Prod.mk.inj heq).2]
  · refine nodup_lower_classes hm (by decide) (by decide) (Model.nodup_placedTypes hm) ?_
    refine List.forall_mem_map.2 fun x hx => List.mem_map.2 ⟨x.2, ?_, rfl⟩
    exact (Model.mem_placedTypes.1 (show (x.1, x.2) ∈ m.placedTypes from hx)).1
  · rw [hending i hi]
    exact (by decide : ".swift" ≠ ".h")

end

/-! ## Accepted descriptions -/

/-- Names of the target languages and of the support that wrappers refer to. -/
def reliedOn : List String := ["ByteArray", "ZkGroupError", "Error", "String", "Object"]

/-- The classes of three modules shadow such a name. -/
theorem moduleClass_mem_reliedOn {name : String} (h : ModuleSpelled name) :
    moduleClass name ∈ reliedOn ↔ name ∈ ["error", "string", "object"] := by
  constructor
  · intro hmem
    have hname : lower (moduleClass name) ∈ reliedOn.map lower := List.mem_map.2 ⟨_, hmem, rfl⟩
    rw [lower_moduleClass h.1] at hname
    have hcases : ∀ n ∈ reliedOn.map lower, moduleClass n ∈ reliedOn →
        n ∈ ["error", "string", "object"] := by decide
    exact hcases name hname hmem
  · exact (by decide : ∀ n ∈ ["error", "string", "object"], moduleClass n ∈ reliedOn) name

/-- **Which names collide in small letters.**  In an accepted description no type has, but for the
case, the name of another type, of the class of a module or of a class that the bindings bring along,
and no two modules have one class.  What may collide is the class of a module with a class that the
bindings bring along, and it does so exactly where a module has one of nine names.  No two files of the
Java side differ in case only, two files of the Swift side do so exactly where one of two of these names
is used, and what a wrapper shadows are three of the names that it relies on. -/
theorem classes_apart {es : List (Value × Value)} {m : Model}
    (hm : Model.ofDescription es = .ok m) :
    (((reservedTypeNames ++ m.types.map (·.name) ++ m.moduleNames.map moduleClass).map lower).Nodup ↔
      ∀ name ∈ m.moduleNames, name ∉ supportModules) ∧
    ((reservedTypeNames ++ m.types.map (·.name)).map lower).Nodup ∧
    ((m.types.map (·.name) ++ m.moduleNames.map moduleClass).map lower).Nodup ∧
    (∀ (o : Options) (t : ErrorTable) (files : List File), t.Usable →
      (t.exceptionClasses.map lower).Nodup → Target.jvm.emit m o t = .ok files →
      ((files.map (·.path)).map lower).Nodup) ∧
    (∀ (o : Options) (t : ErrorTable) (files : List File), o.Valid →
      Target.swift.emit m o t = .ok files → (((files.map (·.path)).map lower).Nodup ↔
        ∀ name ∈ m.moduleNames, name ∉ ["zkgrouperror", "bytearray"])) ∧
    (∀ name ∈ m.moduleNames, moduleClass name ∈ reliedOn ↔ name ∈ ["error", "string", "object"]) ∧
    ∀ t ∈ m.types, t.name ∉ reliedOn := by
  have hw : m.WellFormed := (ofDescription_eq_ok.1 hm).2
  have hnames : (m.types.map (·.name)).Nodup :=
    List.pairwise_map.2 (hw.types.apart.imp fun hne heq => hne (congrArg lower heq))
  have hreserved : (reservedTypeNames.map lower).Nodup := by decide
  refine ⟨?_, ?_, ?_, ?_, ?_, ?_, ?_⟩
  · rw [nodup_lower_classes hw hreserved (List.Subset.refl _) hnames (List.Subset.refl _)]
    exact forall₂_congr fun name hname => not_congr (mem_supportModules (hw.spelled name hname))
  · exact nodup_lower_declared hw hreserved (List.Subset.refl _) hnames (List.Subset.refl _)
  · have hnil : (([] : List String).map lower).Nodup := List.nodup_nil
    exact (nodup_lower_classes hw hnil (List.nil_subset _) hnames
      (List.Subset.refl _)).2 fun _ _ h => nomatch h
  · exact fun _ _ _ ht hapart h => nodup_lower_jvmFiles ht hw hapart h
  · intro o t files ho h
    rw [nodup_lower_swiftFiles ho hw h,
      (by decide : ["ZkGroupError", "ByteArray"].map lower = ["zkgrouperror", "bytearray"])]
  · exact fun name hname => moduleClass_mem_reliedOn (hw.spelled name hname)
  · intro t ht hmem
    have hsub : reliedOn ⊆ reservedTypeNames := by decide
    exact (hw.types.each t ht).named.2 _ (mem_takenNames.2 (Or.inl (hsub hmem))) rfl

/-- A description with modules that are named like the type of byte arrays and like the error type of
the Swift library. -/
def likeSupportEntries : List (Value × Value) :=
  [(.str "types", .list [.map [(.str "name", .str "Key"), (.str "kind", .str "buffer"),
      (.str "size", .int 32)]]),
    (.str "modules", .list [.map [(.str "name", .str "bytearray")], .map [(.str "name", .str "error")]])]

/-- The model of the description. -/
def likeSupportModel : Model := ⟨[⟨"Key", .buffer 32, none⟩], [⟨"bytearray", []⟩, ⟨"error", []⟩]⟩

theorem classes_apart_bytearray :
    Model.ofDescription likeSupportEntries = .ok likeSupportModel ∧
    ¬ ((reservedTypeNames ++ likeSupportModel.types.map (·.name) ++
      likeSupportModel.moduleNames.map moduleClass).map lower).Nodup ∧
    (∃ files, Target.jvm.emit likeSupportModel .standard .standard = .ok files ∧
      ((files.map (·.path)).map lower).Nodup) ∧
    (∃ files, Target.swift.emit likeSupportModel .standard .standard = .ok files ∧
      ¬ ((files.map (·.path)).map lower).Nodup) ∧
    moduleClass "error" = "Error" ∧ "Error" ∈ reliedOn := by
  have hm : Model.ofDescription likeSupportEntries = .ok likeSupportModel := by decide +kernel
  obtain ⟨java, hjava⟩ : ∃ files, Target.jvm.emit likeSupportModel .standard .standard = .ok files :=
    exists_eq_ok (by decide +kernel)
  obtain ⟨swift, hswift⟩ :
      ∃ files, Target.swift.emit likeSupportModel .standard .standard = .ok files :=
    exists_eq_ok (by decide +kernel)
  obtain ⟨hall, _, _, hjvm, hlist, hshadow, _⟩ := classes_apart hm
  have hmodule : "bytearray" ∈ likeSupportModel.moduleNames := by decide
  refine ⟨hm, fun h => hall.1 h _ hmodule (by decide), ⟨java, hjava, ?_⟩,
    ⟨swift, hswift, fun h => ?_⟩, by decide, ?_⟩
  · exact hjvm _ _ _ ErrorTable.usable_standard (by decide) hjava
  · exact (hlist _ _ _ valid_standard hswift).1 h _ hmodule (by decide)
  · exact (by decide : moduleClass "error" = "Error") ▸
      (hshadow "error" (by decide)).2 (by decide)

end Bindery
