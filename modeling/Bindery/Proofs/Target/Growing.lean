/-
  APIS THAT GROW: what stays when types and modules are added behind those that are there.

  Most files are about one module and name nothing outside of it.  The exception are Java imports and
  packages: they depend on the HOMES of types, and a home is looked for in all functions.  The search
  stops at the first function that uses the type, and functions that come later do not change which
  one is first (`Model.GrowsTo.homeModule_eq`).  So the home of a type may move only as long as nobody
  uses the type and nobody placed it.

  The header is about the whole API, and grows with it: its lines stay, in their order, among those of
  the longer one (`sublist_headerLines`).
-/
import Mathlib.Data.List.Flatten
import Bindery.Proofs.Boundary.JavaModules
import Bindery.Proofs.Target.Standing

namespace Bindery

open Source Target

/-! ## Models that grow -/

/-- `m.GrowsTo m'` — the types and modules of one model come first in the other, as they are. -/
structure Model.GrowsTo (m m' : Model) : Prop where
  types : m.types <+: m'.types
  modules : m.modules <+: m'.modules

/-- `m.Settles t` — the home of a type does not depend on functions that are still to come: the type
is placed, or a function uses it. -/
def Model.Settles (m : Model) (t : TypeDef) : Prop :=
  t.placement.isSome = true ∨ ∃ f ∈ m.functions, t ∈ f.usedTypes

namespace Model.GrowsTo

variable {m m' : Model}

theorem functions (h : m.GrowsTo m') : m.functions <+: m'.functions := by
  obtain ⟨more, hmore⟩ := h.modules
  unfold Model.functions
  rw [← hmore, List.flatMap_append]
  exact List.prefix_append _ _

/-- The first function that uses a type stays the first. -/
theorem homeModule_eq (h : m.GrowsTo m') {t : TypeDef} (ht : m.Settles t) :
    m'.homeModule t = m.homeModule t := by
  unfold homeModule
  cases hplace : t.placement with
  | some home => rfl
  | none =>
    obtain ⟨f, hf, hused⟩ : ∃ f ∈ m.functions, t ∈ f.usedTypes := by
      rcases ht with hplaced | hused
      · rw [hplace] at hplaced
        nomatch hplaced
      · exact hused
    have hfound : (m.functions.find? fun f => f.usedTypes.any (·.name == t.name)).isSome := by
      rw [List.find?_isSome]
      exact ⟨f, hf, List.any_eq_true.2 ⟨t, hused, beq_self_eq_true _⟩⟩
    obtain ⟨first, hfirst⟩ := Option.isSome_iff_exists.1 hfound
    obtain ⟨more, hmore⟩ := h.functions
    rw [← hmore, List.find?_append, hfirst]
    rfl

theorem mem_types (h : m.GrowsTo m') {t : TypeDef} (ht : t ∈ m.types) : t ∈ m'.types :=
  h.types.subset ht

theorem mem_modules (h : m.GrowsTo m') {module : Module} (hm : module ∈ m.modules) :
    module ∈ m'.modules :=
  h.modules.subset hm

end Model.GrowsTo

/-! ## Files about one module or type -/

section

variable {m m' : Model} {s : Setting}

/-- The class of a module names homes of types that its own functions use. -/
theorem javaModuleFile_of_growsTo (h : m.GrowsTo m') {module : Module} (hmodule : module ∈ m.modules) :
    javaModuleFile s m' module = javaModuleFile s m module := by
  have himports : ∀ f ∈ module.functions, f.javaImports s m' = f.javaImports s m := by
    intro f hf
    have hhome : ∀ t ∈ f.usedTypes, m'.homeModule t = m.homeModule t := fun t ht =>
      h.homeModule_eq (Or.inr ⟨f, Model.mem_functions.2 ⟨module, hmodule, hf⟩, ht⟩)
    unfold Function.javaImports
    rw [List.filter_congr fun t ht => by rw [hhome t ht],
      List.map_congr_left fun t ht => by rw [hhome t (List.mem_filter.1 ht).1]]
  have hall : javaImports s m' module = javaImports s m module := by
    unfold javaImports
    rw [List.flatMap_congr himports]
  unfold javaModuleFile
  rw [hall]

end

/-! ## The header -/

/-- The lines of the longer header are those of the shorter one and more. -/
theorem sublist_headerLines {m m' : Model} (h : m.GrowsTo m') (s : Setting) :
    (headerLines s m).Sublist (headerLines s m') := by
  have hlengths : ((headerLengths m).map define).Sublist ((headerLengths m').map define) :=
    ((h.types.sublist.filter _).map _).map _
  have hgap : (if ((headerLengths m).map define).isEmpty then [] else [gap]).Sublist
      (if ((headerLengths m').map define).isEmpty then [] else [gap]) := by
    by_cases hnone : ((headerLengths m).map define).isEmpty = true
    · rw [if_pos hnone]
      exact List.nil_sublist _
    · have hsome : ¬ ((headerLengths m').map define).isEmpty = true := fun hnone' => by
        rw [List.isEmpty_iff.1 hnone'] at hlengths
        exact hnone (List.isEmpty_iff.2 (List.sublist_nil.1 hlengths))
      rw [if_neg hnone, if_neg hsome]
  unfold headerLines
  refine List.Sublist.append_right (List.Sublist.append ?_ (h.modules.sublist.flatMap _)) _
  refine List.Sublist.append (List.Sublist.append (List.Sublist.refl _) (.cons_cons _ ?_)) hgap
  exact hlengths

/-- The lines of a text that start with a head. -/
def linesWith (head text : String) : List (List Char) :=
  (linesOf text).filter head.toList.isPrefixOf

theorem linesWith_eq (head text : String) :
    linesWith head text = (⟨head, fun s => some (head.toList ++ s)⟩ : Reader _).readIn text := by
  unfold linesWith Reader.readIn
  rw [← List.filterMap_eq_filter]
  refine List.filterMap_congr fun s _ => ?_
  unfold Reader.read?
  by_cases hs : head.toList <+: s
  · obtain ⟨rest, rfl⟩ := hs
    rw [if_pos (List.prefix_append _ _), List.drop_left, Option.guard_pos]
    exact List.isPrefixOf_iff_prefix.2 (List.prefix_append _ _)
  · rw [if_neg hs, Option.guard_eq_none_iff]
    exact Bool.eq_false_iff.2 fun h => hs (List.isPrefixOf_iff_prefix.1 h)

/-- Whatever lines of a file are looked for, those of the shorter file are found in the longer. -/
theorem sublist_linesWith {body body' : List Line} (h : body.Sublist body') {head : String}
    (hhead : head ≠ "") (s : Setting) (path : String) :
    (linesWith head (s.file path body).text).Sublist
      (linesWith head (s.file path body').text) := by
  have hne : head.toList ≠ [] := fun heq => hhead (String.toList_inj.1 heq)
  rw [linesWith_eq, linesWith_eq, Reader.readIn_file hne, Reader.readIn_file hne]
  exact (h.flatMap _).append_left _

/-! ## Targets -/

/-- The files of a target before they are collected. -/
def Target.listing (s : Setting) (refused : String) (library : FileText) (m : Model) :
    Target → List File
  | core => coreFiles s m refused
  | jvm => jvmFiles s m library
  | swift => swiftFiles s m

theorem Target.short_of_emit {t : Target} {m : Model} {o : Options} {table : ErrorTable}
    {files : List File} (h : t.emit m o table = .ok files) : m.Short := by
  refine Model.checkSizes_eq_ok.1 ?_
  unfold Target.emit at h
  obtain ⟨_, _, h⟩ := bind_eq_ok.1 h
  cases t with
  | core =>
    obtain ⟨codes, _, h⟩ := bind_eq_ok.1 h
    cases hv : codes.invalidInput.libraryVariants with
    | nil =>
      rw [hv] at h
      nomatch h
    | cons refused rest =>
      rw [hv] at h
      obtain ⟨_, hsizes, _⟩ := bind_eq_ok.1 h
      exact hsizes
  | jvm =>
    obtain ⟨_, _, h⟩ := bind_eq_ok.1 h
    obtain ⟨_, _, h⟩ := bind_eq_ok.1 h
    obtain ⟨_, hsizes, _⟩ := bind_eq_ok.1 h
    exact hsizes
  | swift =>
    obtain ⟨_, hsizes, _⟩ := bind_eq_ok.1 h
    exact hsizes

/-- What else a target needs, besides sizes that can be written, does not depend on the API. -/
theorem Target.emit_of_emit {t : Target} {m : Model} {o : Options} {table : ErrorTable}
    {files : List File} (h : t.emit m o table = .ok files) :
    ∃ (s : Setting) (refused : String) (library : FileText), s.For o table ∧
      (t = .core → s.codes.invalidInput.libraryVariants.head? = some refused) ∧
      ∀ m' : Model, m'.Short → t.emit m' o table = .ok (collect (t.listing s refused library m')) := by
  cases t with
  | core =>
    obtain ⟨s, hs, _⟩ := emit_core h
    unfold Target.emit at h
    obtain ⟨_, _, h⟩ := bind_eq_ok.1 h
    obtain ⟨codes, hcodes, h⟩ := bind_eq_ok.1 h
    obtain rfl := Except.ok.inj (hs.codes.symm.trans hcodes)
    cases hv : s.codes.invalidInput.libraryVariants with
    | nil =>
      rw [hv] at h
      nomatch h
    | cons refused rest =>
      have hhead : s.codes.invalidInput.libraryVariants.head? = some refused := by rw [hv]; rfl
      exact ⟨s, refused, ⟨"", true⟩, hs, fun _ => hhead, fun m' hm' => hs.emit_core hm' hhead⟩
  | jvm =>
    obtain ⟨s, hs, _⟩ := emit_jvm h
    unfold Target.emit at h
    obtain ⟨_, _, h⟩ := bind_eq_ok.1 h
    obtain ⟨_, _, h⟩ := bind_eq_ok.1 h
    obtain ⟨library, hlibrary, _⟩ := bind_eq_ok.1 h
    exact ⟨s, "", library, hs, fun h => (nomatch h), fun m' hm' => hs.emit_jvm hm' hlibrary⟩
  | swift =>
    obtain ⟨s, hs, _⟩ := emit_swift h
    exact ⟨s, "", ⟨"", true⟩, hs, fun h => (nomatch h), fun m' hm' => hs.emit_swift hm'⟩

/-- `KeptAt path files files'` — one file has the path in either list, and it is the same one. -/
def KeptAt (path : String) (files files' : List File) : Prop :=
  ∃ f : File, f.path = path ∧ (∀ g, g ∈ files ∧ g.path = path ↔ g = f) ∧
    ∀ g, g ∈ files' ∧ g.path = path ↔ g = f

/-- `t.Kept o m files files'` — of the files of a target, those about one module or type of the model
are the same in both lists, and the lines of its header are found in the other header, whatever they
start with, in their order.  The value class of a type has to be settled for this. -/
def Target.Kept (o : Options) (m : Model) (files files' : List File) : Target → Prop
  | core => ∀ module ∈ m.modules, KeptAt ((Item.moduleExports module).path o) files files'
  | jvm =>
    (∀ module ∈ m.modules, KeptAt ((Item.javaClass module).path o) files files') ∧
    ∀ t ∈ m.types, t.isScalar = false → m.Settles t →
      KeptAt ((Item.javaValue (m.homeModule t) t).path o) files files'
  | swift =>
    (∀ module ∈ m.modules, KeptAt ((Item.swiftSpace module).path o) files files') ∧
    (∀ t ∈ m.types, t.isScalar = false → KeptAt ((Item.swiftValue t).path o) files files') ∧
    ∃ f ∈ files, ∃ f' ∈ files', f.path = Item.header.path o ∧ f'.path = Item.header.path o ∧
      ∀ head, head ≠ "" → (linesWith head f.text).Sublist (linesWith head f'.text)

section

variable {m m' : Model} {s : Setting}

/-- Lists without a path twice have one file of the path, if they have one at all. -/
theorem keptAt_of_mem {as bs : List File} {f : File} (ha : f ∈ collect as) (hb : f ∈ collect bs) :
    KeptAt f.path (collect as) (collect bs) := by
  have honly : ∀ {cs : List File}, f ∈ collect cs → ∀ g, g ∈ collect cs ∧ g.path = f.path ↔ g = f := by
    intro cs hf g
    refine ⟨fun ⟨hg, hpath⟩ => eq_of_mem_collect hg hf hpath, ?_⟩
    rintro rfl
    exact ⟨hf, rfl⟩
  exact ⟨f, rfl, honly ha, honly hb⟩

theorem collect_swiftFiles (hm : m.WellFormed) : collect (swiftFiles s m) = swiftFiles s m := by
  refine collect_of_nodup ?_
  rw [map_path_of_renders (m := m) renders_swiftFiles]
  exact Target.nodup_items hm .swift

theorem collect_coreFiles (hm : m.WellFormed) {refused : String}
    (hv : s.codes.invalidInput.libraryVariants.head? = some refused) :
    collect (coreFiles s m refused) = coreFiles s m refused := by
  refine collect_of_nodup ?_
  rw [map_path_of_renders (m := m) (renders_coreFiles hv)]
  exact Target.nodup_items hm .core

/-- The classes of the Java side come last, so they are not replaced. -/
theorem mem_collect_jvmFiles (hm : m.WellFormed) {library : FileText} {f : File}
    (h : f ∈ javaClasses s m) : f ∈ collect (jvmFiles s m library) := by
  have hfiles : jvmFiles s m library = (glueFile s m :: baseExceptionFile s ::
      s.codes.table.derivedExceptions.map (exceptionFile s) ++
      [nativeFile s m library, byteArrayFile s]) ++ javaClasses s m := by
    unfold jvmFiles javaClasses
    rw [List.append_assoc]
  have hn : ((javaClasses s m).map (·.path)).Nodup := by
    rw [map_path_javaClasses]
    have hn := nodup_javaClasses hm s.options
    rw [List.map_append] at hn
    exact (List.nodup_append.1 hn).2.1
  obtain ⟨front, back, hsplit, hback⟩ := exists_split hn h
  rw [hfiles, hsplit, ← List.append_assoc]
  exact mem_collect_of_last hback

/-- The listings of a target agree on what was there, and so do the lists that are collected. -/
theorem Target.kept_listing (hm : m.WellFormed) (hm' : m'.WellFormed) (h : m.GrowsTo m') {t : Target}
    {refused : String} (library : FileText)
    (hv : t = .core → s.codes.invalidInput.libraryVariants.head? = some refused) :
    t.Kept s.options m (collect (t.listing s refused library m))
      (collect (t.listing s refused library m')) := by
  -- A file of both listings has the path of its item.
  have hkept : ∀ {as bs : List File} {i : Item} {f : File}, i.Renders s m f → f ∈ collect as →
      f ∈ collect bs → KeptAt (i.path s.options) (collect as) (collect bs) :=
    fun hi ha hb => hi.path_eq ▸ keptAt_of_mem ha hb
  cases t with
  | core =>
    intro module hmodule
    have hmem : ∀ {m : Model}, m.WellFormed → module ∈ m.modules →
        exportModule s module ∈ collect (coreFiles s m refused) := by
      intro m hm hmodule
      rw [collect_coreFiles hm (hv rfl)]
      exact List.mem_append_left _ (List.mem_cons_of_mem _ (List.mem_map.2 ⟨module, hmodule, rfl⟩))
    exact hkept (i := .moduleExports module) rfl (hmem hm hmodule) (hmem hm' (h.mem_modules hmodule))
  | jvm =>
    refine ⟨fun module hmodule => ?_, fun t ht hscalar hsettles => ?_⟩
    · refine hkept (i := .javaClass module) rfl (mem_collect_jvmFiles hm
        (List.mem_append_right _ (List.mem_map.2 ⟨module, hmodule, rfl⟩)))
        (mem_collect_jvmFiles hm' (List.mem_append_right _ (List.mem_map.2
          ⟨module, h.mem_modules hmodule, javaModuleFile_of_growsTo h hmodule⟩)))
    · obtain ⟨f, hf⟩ := Option.isSome_iff_exists.1 (javaValueFile?_isSome s (m.homeModule t) hscalar)
      have hf' : javaValueFile? s (m'.homeModule t) t = some f := by
        rw [h.homeModule_eq hsettles]
        exact hf
      exact hkept (i := .javaValue (m.homeModule t) t) hf
        (mem_collect_jvmFiles hm (List.mem_append_left _ (mem_valueFiles_home ht hscalar hf)))
        (mem_collect_jvmFiles hm' (List.mem_append_left _
          (mem_valueFiles_home (h.mem_types ht) hscalar hf')))
  | swift =>
    refine ⟨fun module hmodule => ?_, fun t ht hscalar => ?_, ?_⟩
    · have hmem : ∀ {m : Model}, m.WellFormed → module ∈ m.modules →
          swiftModuleFile s module ∈ collect (swiftFiles s m) := by
        intro m hm hmodule
        rw [collect_swiftFiles hm]
        exact List.mem_append_right _ (List.mem_map.2 ⟨module, hmodule, rfl⟩)
      exact hkept (i := .swiftSpace module) rfl (hmem hm hmodule)
        (hmem hm' (h.mem_modules hmodule))
    · obtain ⟨f, hf⟩ := Option.isSome_iff_exists.1 (swiftValueFile?_isSome s hscalar)
      have hmem : ∀ {m : Model}, m.WellFormed → t ∈ m.types → f ∈ collect (swiftFiles s m) := by
        intro m hm ht
        have hvalue : f ∈ valueFiles m fun _ => swiftValueFile? s :=
          mem_valueFiles_home ht hscalar hf
        rw [collect_swiftFiles hm]
        exact List.mem_append_left _ (List.mem_append_right _ hvalue)
      exact hkept (i := .swiftValue t) hf (hmem hm ht) (hmem hm' (h.mem_types ht))
    · have hmem : ∀ {m : Model}, m.WellFormed → headerFile s m swiftDir ∈ collect (swiftFiles s m) := by
        intro m hm
        rw [collect_swiftFiles hm]
        exact List.mem_append_left _ (List.mem_append_left _ List.mem_cons_self)
      exact ⟨_, hmem hm, _, hmem hm', rfl, rfl, fun head hhead =>
        sublist_linesWith (sublist_headerLines h s) hhead s _⟩

end

/-- **Bindings stay as an API grows.**  Let one accepted description declare what another does and,
behind that, more types and modules, whose sizes can be written.  Under the same options and with the
same table every target that is generated from the shorter one is generated from the longer one, too; the
files about a module are the same, and so are the value classes of its types, on the Java side of those
whose home is settled, for it stays; and the lines of the header are found in the longer header. -/
theorem bindings_stay {es es' : List (Value × Value)} {m m' : Model} {o : Options}
    {table : ErrorTable} (hm : Model.ofDescription es = .ok m)
    (hm' : Model.ofDescription es' = .ok m') (h : m.GrowsTo m') (hsizes : m'.Short) :
    (∀ t ∈ m.types, m.Settles t → m'.homeModule t = m.homeModule t) ∧
    ∀ (t : Target) (files : List File), t.emit m o table = .ok files →
      ∃ files', t.emit m' o table = .ok files' ∧ t.Kept o m files files' := by
  refine ⟨fun t _ => h.homeModule_eq, fun t files hfiles => ?_⟩
  obtain ⟨s, refused, library, hs, hv, hall⟩ := Target.emit_of_emit hfiles
  have hsame := hall m (Target.short_of_emit hfiles)
  rw [hfiles, Except.ok.injEq] at hsame
  refine ⟨_, hall m' hsizes, ?_⟩
  rw [hsame, ← hs.options]
  exact Target.kept_listing (ofDescription_eq_ok.1 hm).2 (ofDescription_eq_ok.1 hm').2 h library hv

/-! ## A vault with a guard -/

/-- A description with a key that a function uses, and whatever is declared behind it. -/
def guardedEntries (types modules : List Value) : List (Value × Value) :=
  [(.str "types", .list (.map [(.str "name", .str "Key"), (.str "kind", .str "buffer"),
      (.str "size", .int 32)] :: types)),
    (.str "modules", .list (.map [(.str "name", .str "vault"), (.str "functions", .list
      [.map [(.str "name", .str "open"), (.str "params", .list
        [.map [(.str "name", .str "key"), (.str "type", .str "Key")]])]])] :: modules))]

/-- The key of the description. -/
def guardedKey : TypeDef := ⟨"Key", .buffer 32, none⟩

/-- Its model. -/
def guardedModel (types : List TypeDef) (modules : List Module) : Model :=
  ⟨guardedKey :: types, ⟨"vault", [⟨"open", "vault", [⟨"key", guardedKey, .input⟩], none, false⟩]⟩ ::
    modules⟩

theorem guardedModel_growsTo (types : List TypeDef) (modules : List Module) :
    (guardedModel [] []).GrowsTo (guardedModel types modules) :=
  ⟨⟨types, rfl⟩, ⟨modules, rfl⟩⟩

theorem ofDescription_guarded : Model.ofDescription (guardedEntries [] []) = .ok (guardedModel [] []) := by
  decide +kernel

/-- A module that uses the key, too, does not move it. -/
theorem bindings_stay_guarded :
    ∃ files files', Target.jvm.emit (guardedModel [] []) .standard .standard = .ok files ∧
      Target.jvm.emit (guardedModel [⟨"Salt", .buffer 16, none⟩] [⟨"alarm", [⟨"ring", "alarm",
        [⟨"key", guardedKey, .input⟩], none, false⟩]⟩]) .standard .standard = .ok files' ∧
      KeptAt "java/vault/Vault.java" files files' ∧ KeptAt "java/vault/Key.java" files files' := by
  have hm' : Model.ofDescription (guardedEntries
      [.map [(.str "name", .str "Salt"), (.str "kind", .str "buffer"), (.str "size", .int 16)]]
      [.map [(.str "name", .str "alarm"), (.str "functions", .list
        [.map [(.str "name", .str "ring"), (.str "params", .list
          [.map [(.str "name", .str "key"), (.str "type", .str "Key")]])]])]]) =
      .ok (guardedModel [⟨"Salt", .buffer 16, none⟩] [⟨"alarm", [⟨"ring", "alarm",
        [⟨"key", guardedKey, .input⟩], none, false⟩]⟩]) := by
    decide +kernel
  obtain ⟨files, hfiles⟩ :
      ∃ files, Target.jvm.emit (guardedModel [] []) .standard .standard = .ok files :=
    exists_eq_ok (by decide +kernel)
  obtain ⟨files', hfiles', hmodules, htypes⟩ :=
    (bindings_stay ofDescription_guarded hm' (guardedModel_growsTo _ _)
      (Model.checkSizes_eq_ok.1 (by decide +kernel))).2 .jvm files hfiles
  refine ⟨files, files', hfiles, hfiles', ?_, ?_⟩
  · exact hmodules _ List.mem_cons_self
  · refine htypes guardedKey List.mem_cons_self rfl (Or.inr ?_)
    exact ⟨_, List.mem_cons_self, List.mem_cons_self⟩

/-- A type whose size has more digits than are written takes all bindings away. -/
theorem bindings_lost_guarded :
    Model.ofDescription (guardedEntries [] []) = .ok (guardedModel [] []) ∧
    Model.ofDescription (guardedEntries [.map [(.str "name", .str "Salt"),
      (.str "kind", .str "buffer"), (.str "size", .int (10 ^ 4300))]] []) =
      .ok (guardedModel [⟨"Salt", .buffer (10 ^ 4300), none⟩] []) ∧
    (guardedModel [] []).GrowsTo (guardedModel [⟨"Salt", .buffer (10 ^ 4300), none⟩] []) ∧
    Options.standard.Valid ∧
    (∀ t : Target, ∃ files, t.emit (guardedModel [] []) .standard .standard = .ok files) ∧
    ∀ (t : Target) files,
      t.emit (guardedModel [⟨"Salt", .buffer (10 ^ 4300), none⟩] []) .standard .standard ≠ .ok files := by
  refine ⟨ofDescription_guarded, by decide +kernel, guardedModel_growsTo _ _,
    valid_standard, fun t => ?_, fun t => Target.not_emit_of_long (by decide +kernel)⟩
  exact Target.exists_emit.2 ⟨shown_standard.header, Model.checkSizes_eq_ok.1 (by decide +kernel),
    fun _ => Options.plain_jniLibraryName shown_standard.library⟩

end Bindery
