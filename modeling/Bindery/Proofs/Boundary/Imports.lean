/-
  IMPORTS of the Java side: what a class names and does not have at hand, no more and no less.

  A class is told by its package below the base package and by its name (`ClassKey`).  No such part has a
  dot, so what an import names can be read back, and the file of a class is found by putting slashes for
  dots.  What the class of a module has to import is listed function by function (`Module.needs`); sorted
  and each once these are its imports, and every question whether something is imported becomes one about
  that list.

  That a method needs a class is told by its lines: it decodes a number by the base of buffers, or it names
  the exception for refused arguments where it throws, declares or catches.
-/
import Bindery.Proofs.Boundary.CheckedExceptions
import Bindery.Proofs.Boundary.JavaFronts
import Bindery.Proofs.Codes.Agreement
import Bindery.Proofs.Text.Sorting

namespace Bindery

open Naming Source Target

/-! ## Classes by their names -/

/-- A class: its package below the base package, unless it is that itself, and its name. -/
abbrev ClassKey := Option String × String

/-- The class with its package. -/
def ClassKey.full (s : Setting) (x : ClassKey) : String :=
  s.options.javaPackage ++ "." ++ x.1.elim x.2 fun home => home ++ "." ++ x.2

/-- `x.Spelled` — each part of the name is a word. -/
structure ClassKey.Spelled (x : ClassKey) : Prop where
  home : ∀ home, x.1 = some home → Wordy home.toList
  name : Wordy x.2.toList

/-- A text with slashes for its dots. -/
def slashed (text : String) : String := String.ofList (text.toList.map fun c => if c = '.' then '/' else c)

/-- The class of a file. -/
def JavaUnit.key (u : JavaUnit) : ClassKey := (u.home, u.name)

theorem slashed_dotless {text : String} (h : '.' ∉ text.toList) : slashed text = text := by
  have hsame : text.toList.map (fun c => if c = '.' then '/' else c) = text.toList.map id :=
    List.map_congr_left fun c hc => if_neg fun heq : c = '.' => h (heq ▸ hc)
  rw [slashed, hsame, List.map_id, String.ofList_toList]

theorem slashed_append (a b : String) : slashed (a ++ b) = slashed a ++ slashed b := by
  rw [slashed, String.toList_append, List.map_append, String.ofList_append]
  rfl

theorem slashed_dot : slashed "." = "/" := by decide

namespace ClassKey

variable {s : Setting} {x y : ClassKey}

/-- Classes of one name are one. -/
theorem full_injective (hx : x.Spelled) (hy : y.Spelled) (h : x.full s = y.full s) : x = y := by
  have hrest := append_left_cancel h
  obtain ⟨xhome, xname⟩ := x
  obtain ⟨yhome, yname⟩ := y
  have hdot : ∀ home name : String, '.' ∈ (home ++ "." ++ name).toList := fun home name => by
    simp only [String.toList_append, List.mem_append]
    exact Or.inl (Or.inr (by decide))
  cases xhome with
  | none =>
    cases yhome with
    | none => exact congrArg (Prod.mk none) hrest
    | some home =>
      have hname : xname = home ++ "." ++ yname := hrest
      exact absurd (hname ▸ hdot home yname) (hx.name.notMem (by decide))
  | some home =>
    cases yhome with
    | none =>
      have hname : home ++ "." ++ xname = yname := hrest
      exact absurd (hname ▸ hdot home xname) (hy.name.notMem (by decide))
    | some host =>
      have hsame : home ++ "." ++ xname = host ++ "." ++ yname := hrest
      have hlist := congrArg String.toList hsame
      rw [String.toList_append, String.toList_append, String.toList_append, String.toList_append,
        List.append_assoc, List.append_assoc] at hlist
      have hfree : ∀ {name : String}, Wordy name.toList → ∀ c ∈ name.toList, (c == '.') = false :=
        fun hname c hc => beq_false_of_ne fun heq => hname.notMem (by decide) (heq ▸ hc)
      -- Neither package nor name has a dot, so the first one stands between the two.
      obtain ⟨hhome, _, hname⟩ := Text.append_cons_inj_of_first (p := (· == '.'))
        (hfree (hx.home home rfl)) (hfree (hy.home host rfl)) (by decide) (by decide) hlist
      rw [String.toList_inj.1 hhome, String.toList_inj.1 hname]

end ClassKey

/-! ## What a class needs -/

/-- The class of a type. -/
def Model.typeKey (m : Model) (t : TypeDef) : ClassKey := (some (m.homeModule t), t.name)

/-- What every method uses. -/
def fixedKeys : List ClassKey := [(none, baseException), (some Model.internalModule, "Native")]

/-- The base of the classes of buffers, which decodes numbers as well. -/
def bytesKey : ClassKey := (some Model.internalModule, "ByteArray")

/-- What the method of a function needs, besides what every method does. -/
def Function.needs (f : Function) (m : Model) : List ClassKey :=
  (f.usedTypes.filter fun t => !t.isScalar && m.homeModule t != f.module).map m.typeKey ++
    (if f.deliveries.any (·.type.isScalar) then [bytesKey] else []) ++
    if f.ranged.isEmpty && !f.guarded then [] else [(none, refusedException)]

/-- What the class of a module needs. -/
def Module.needs (module : Module) (m : Model) : List ClassKey :=
  (if module.functions.isEmpty then [] else fixedKeys) ++ module.functions.flatMap fun f => f.needs m

section

variable {s : Setting} {m : Model} {f : Function} {module : Module} {t : TypeDef}

theorem javaImports_eq (hs : s.Standard) (m : Model) (module : Module) :
    javaImports s m module = Text.sortDistinct ((module.needs m).map (ClassKey.full s)) := by
  have hinside : ∀ home name : String, s.package home ++ "." ++ name =
      ClassKey.full s (some home, name) := fun home name => by
    show s.options.javaPackage ++ "." ++ home ++ "." ++ name =
      s.options.javaPackage ++ "." ++ (home ++ "." ++ name)
    simp only [String.append_assoc]
  have hmember : ∀ name : String, s.package Model.internalModule ++ ("." ++ name) =
      ClassKey.full s (some Model.internalModule, name) := fun name => by
    rw [← hinside, String.append_assoc]
  have hbytes : s.package Model.internalModule ++ ".ByteArray" = bytesKey.full s := hmember "ByteArray"
  have hnative : s.package Model.internalModule ++ ".Native" =
      ClassKey.full s (some Model.internalModule, "Native") := hmember "Native"
  have hfunction : ∀ f : Function, f.javaImports s m = (f.needs m).map (ClassKey.full s) := by
    intro f
    unfold Function.javaImports Function.needs
    rw [hs.refused, hbytes, List.map_append, List.map_append, List.map_map]
    congr 1
    · congr 1
      · exact List.map_congr_left fun t _ => hinside _ _
      · split <;> rfl
    · split <;> rfl
  unfold javaImports Module.needs
  rw [hnative, List.map_append, List.map_flatMap]
  congr 2
  · split <;> rfl
  · exact List.flatMap_congr fun f _ => hfunction f

theorem mem_needs {x : ClassKey} : x ∈ module.needs m ↔
    (module.functions ≠ [] ∧ x ∈ fixedKeys) ∨ ∃ f ∈ module.functions, x ∈ f.needs m := by
  unfold Module.needs
  rw [List.mem_append, List.mem_flatMap]
  refine or_congr_left ?_
  cases module.functions with
  | nil => simp
  | cons f fs => simp

theorem mem_function_needs {x : ClassKey} : x ∈ f.needs m ↔
    (∃ t ∈ f.usedTypes, (t.isScalar = false ∧ m.homeModule t ≠ f.module) ∧ m.typeKey t = x) ∨
      (f.deliveries.any (·.type.isScalar) = true ∧ x = bytesKey) ∨
      ((f.ranged ≠ [] ∨ f.guarded = true) ∧ x = (none, refusedException)) := by
  unfold Function.needs
  rw [List.mem_append, List.mem_append, or_assoc, List.mem_map]
  refine or_congr ?_ (or_congr ?_ ?_)
  · simp only [List.mem_filter, Bool.and_eq_true, Bool.not_eq_true', bne_iff_ne, and_assoc]
  · split
    · rename_i h
      simp [h]
    · rename_i h
      simp [h]
  · cases f.ranged <;> cases f.guarded <;> simp

/-! ### Names without dots -/

theorem ClassKey.spelled_of_none {name : String} (hname : Wordy name.toList) :
    ClassKey.Spelled (none, name) :=
  ⟨fun _ h => absurd h (by simp), hname⟩

theorem ClassKey.spelled_of_home {home name : String} (hhome : Wordy home.toList)
    (hname : Wordy name.toList) : ClassKey.Spelled (some home, name) :=
  ⟨fun _ h => Option.some.inj h ▸ hhome, hname⟩

theorem spelled_fixedKeys : ∀ x ∈ fixedKeys, x.Spelled :=
  List.forall_mem_cons.2 ⟨ClassKey.spelled_of_none (by decide),
    List.forall_mem_singleton.2 (ClassKey.spelled_of_home (by decide) (by decide))⟩

theorem spelled_bytesKey : bytesKey.Spelled := ClassKey.spelled_of_home (by decide) (by decide)

theorem spelled_refused : ClassKey.Spelled (none, refusedException) :=
  ClassKey.spelled_of_none (by decide)

theorem Model.WellFormed.wordy_home (hm : m.WellFormed) (ht : t ∈ m.types) :
    Wordy (m.homeModule t).toList := by
  rcases home_cases hm ht with hhome | hhome
  · exact wordy_of_isModuleName (hm.spelled _ hhome).1
  · rw [hhome]
    decide

theorem spelled_typeKey (hm : m.WellFormed) (ht : t ∈ m.types) : (m.typeKey t).Spelled :=
  ClassKey.spelled_of_home (hm.wordy_home ht) (hm.word_typeName ht).1

theorem spelled_needs (hm : m.WellFormed) (hmodule : module ∈ m.modules) :
    ∀ x ∈ module.needs m, x.Spelled := by
  intro x hx
  rcases mem_needs.1 hx with ⟨_, hx⟩ | ⟨f, hf, hx⟩
  · exact spelled_fixedKeys x hx
  · have hfun : f ∈ m.functions := Model.mem_functions.2 ⟨module, hmodule, hf⟩
    rcases mem_function_needs.1 hx with ⟨t, ht, _, rfl⟩ | ⟨_, rfl⟩ | ⟨_, rfl⟩
    · exact spelled_typeKey hm (hm.usedTypes_mem hfun t ht)
    · exact spelled_bytesKey
    · exact spelled_refused

/-- What is imported is what is needed. -/
theorem mem_javaImports (hm : m.WellFormed) (hs : s.Standard) (hmodule : module ∈ m.modules)
    {x : ClassKey} (hx : x.Spelled) : x.full s ∈ javaImports s m module ↔ x ∈ module.needs m := by
  rw [javaImports_eq hs, Text.mem_sortDistinct, List.mem_map]
  constructor
  · rintro ⟨y, hy, heq⟩
    exact ClassKey.full_injective (spelled_needs hm hmodule y hy) hx heq ▸ hy
  · exact fun h => ⟨x, h, rfl⟩

/-! ### Classes that are not types -/

/-- No type has the class of something that the bindings bring along. -/
theorem typeKey_ne (hm : m.WellFormed) (ht : t ∈ m.types) :
    (∀ x ∈ fixedKeys, m.typeKey t ≠ x) ∧ m.typeKey t ≠ bytesKey ∧
      m.typeKey t ≠ (none, refusedException) := by
  -- Whatever the package, their names are reserved, in any case of letters.
  have hreserved : ∀ {home : Option String} {name : String}, name ∈ reservedTypeNames →
      m.typeKey t ≠ (home, name) := fun hname heq =>
    (hm.types.each t ht).named.2 _ (List.mem_append_left _ hname)
      (congrArg lower (congrArg Prod.snd heq).symm)
  exact ⟨List.forall_mem_cons.2 ⟨hreserved (by decide), List.forall_mem_singleton.2
    (hreserved (by decide))⟩, hreserved (by decide), hreserved (by decide)⟩

theorem typeKey_injective (hm : m.WellFormed) {u : TypeDef} (ht : t ∈ m.types) (hu : u ∈ m.types)
    (h : m.typeKey t = m.typeKey u) : t = u :=
  hm.types.eq_of_name_eq ht hu (congrArg Prod.snd h)

/-- The type is used by the functions of a module. -/
def Module.Uses (module : Module) (t : TypeDef) : Prop := ∃ f ∈ module.functions, t ∈ f.usedTypes

/-- A type is needed if it is used and lives elsewhere. -/
theorem typeKey_mem_needs (hm : m.WellFormed) (hmodule : module ∈ m.modules) (ht : t ∈ m.types) :
    m.typeKey t ∈ module.needs m ↔
      t.isScalar = false ∧ m.homeModule t ≠ module.name ∧ module.Uses t := by
  obtain ⟨hfixed, hbytes, hrefused⟩ := typeKey_ne hm ht
  have hhost : ∀ {f : Function}, f ∈ module.functions → f.module = module.name := fun hf =>
    ((hm.modules module hmodule).functions _ hf).2
  rw [mem_needs]
  constructor
  · rintro (⟨_, hx⟩ | ⟨f, hf, hx⟩)
    · exact absurd rfl (hfixed _ hx)
    · rcases mem_function_needs.1 hx with ⟨u, hu, ⟨hscalar, hhome⟩, heq⟩ | ⟨_, heq⟩ | ⟨_, heq⟩
      · have hfun : f ∈ m.functions := Model.mem_functions.2 ⟨module, hmodule, hf⟩
        obtain rfl := typeKey_injective hm (hm.usedTypes_mem hfun u hu) ht heq
        exact ⟨hscalar, hhost hf ▸ hhome, f, hf, hu⟩
      · exact absurd heq hbytes
      · exact absurd heq hrefused
  · rintro ⟨hscalar, hhome, f, hf, hu⟩
    exact Or.inr ⟨f, hf, mem_function_needs.2 (Or.inl ⟨t, hu, ⟨hscalar, (hhost hf).symm ▸ hhome⟩, rfl⟩)⟩

theorem bytesKey_mem_needs (hm : m.WellFormed) (hmodule : module ∈ m.modules) :
    bytesKey ∈ module.needs m ↔ ∃ f ∈ module.functions, f.deliveries.any (·.type.isScalar) = true := by
  rw [mem_needs]
  constructor
  · rintro (⟨_, hx⟩ | ⟨f, hf, hx⟩)
    · exact absurd hx (by decide)
    · rcases mem_function_needs.1 hx with ⟨u, hu, _, heq⟩ | ⟨hany, _⟩ | ⟨_, heq⟩
      · have hfun : f ∈ m.functions := Model.mem_functions.2 ⟨module, hmodule, hf⟩
        exact absurd heq (typeKey_ne hm (hm.usedTypes_mem hfun u hu)).2.1
      · exact ⟨f, hf, hany⟩
      · exact absurd (congrArg Prod.fst heq) (by decide)
  · rintro ⟨f, hf, hany⟩
    exact Or.inr ⟨f, hf, mem_function_needs.2 (Or.inr (Or.inl ⟨hany, rfl⟩))⟩

theorem refused_mem_needs : (none, refusedException) ∈ module.needs m ↔
    ∃ f ∈ module.functions, f.ranged ≠ [] ∨ f.guarded = true := by
  rw [mem_needs]
  constructor
  · rintro (⟨_, hx⟩ | ⟨f, hf, hx⟩)
    · exact absurd hx (by decide)
    · rcases mem_function_needs.1 hx with ⟨u, _, _, heq⟩ | ⟨_, heq⟩ | ⟨hneeds, _⟩
      · exact absurd (congrArg Prod.fst heq) (by simp [Model.typeKey])
      · exact absurd (congrArg Prod.fst heq) (by decide)
      · exact ⟨f, hf, hneeds⟩
  · rintro ⟨f, hf, hneeds⟩
    exact Or.inr ⟨f, hf, mem_function_needs.2 (Or.inr (Or.inr ⟨hneeds, rfl⟩))⟩

theorem fixedKeys_mem_needs : ∀ x ∈ fixedKeys, x ∈ module.needs m ↔ module.functions ≠ [] := by
  intro x hx
  rw [mem_needs]
  constructor
  · rintro (⟨hne, _⟩ | ⟨f, hf, _⟩)
    · exact hne
    · exact List.ne_nil_of_mem hf
  · exact fun hne => Or.inl ⟨hne, hx⟩

end

/-! ## What the lines of a method tell -/

/-- `DecodesNumber ls` — a value that the method returns is decoded to a number. -/
def DecodesNumber (ls : List Line) : Prop := ∃ type slot, some (Kind.scalar, type, slot) ∈
  ((javaReturns.readWithin ls).flatMap javaComponents).map javaDecoded?

/-- The exceptions that a method names: those that it declares, throws itself, or catches. -/
def namedExceptions (ls : List Line) : List String :=
  declaredThrows ls ++ (throwsItself.readWithin ls ++ catches.readWithin ls)

section

variable {m : Model} {f : Function} {s : Setting}

theorem decodesNumber_java (hm : m.WellFormed) (hf : f ∈ m.functions) (s : Setting) :
    DecodesNumber ((f.javaMethod s).lines s) ↔ f.deliveries.any (·.type.isScalar) = true := by
  unfold DecodesNumber
  rw [(javaHandsOut hm hf s).decoded, f.deliveries_eq, List.any_map, List.any_eq_true]
  constructor
  · rintro ⟨type, slot, hmem⟩
    obtain ⟨a, ha, heq⟩ := List.mem_map.1 hmem
    exact ⟨a, ha, beq_iff_eq.2 (congrArg Prod.fst (Option.some.inj heq))⟩
  · rintro ⟨a, ha, hscalar⟩
    have hkind : a.type.shape.kind = .scalar := beq_iff_eq.1 hscalar
    exact ⟨a.type.javaValue, a.name, List.mem_map.2 ⟨a, ha, by rw [hkind]⟩⟩

/-- The check of a range throws the exception for refused arguments. -/
theorem thrown_rangeCheck (hs : s.Standard) (x : String × Width) :
    throwsItself.readAll ((rangeCheck s x).map (·.text)) = [refusedException] := by
  have hclosing : throwsItself.read? closing.toList = none := by decide
  rw [texts_rangeCheck, hs.refused, Reader.readAll_cons, (calm_start rfl (by decide : "if (" ∈ _)).1,
    Reader.readAll_cons, throwsItself_refused, Reader.readAll_cons,
    (calm_start (rangeMessage_eq x.1) (by decide)).1, Reader.readAll_singleton, hclosing]
  rfl

theorem thrown_outcome (s : Setting) (f : Function) :
    throwsItself.readAll (((f.javaMethod s).outcome s).map (·.text)) =
      if f.fallible then [] else ["AssertionError"] := by
  have hclosing : throwsItself.read? closing.toList = none := by decide
  have hcheck : throwsItself.read? (baseException ++ ".checkResult(ffiResult);").toList = none := by decide
  have hfallible : (f.javaMethod s).fallible = f.fallible := rfl
  rw [texts_outcome, hfallible]
  split
  · rw [Reader.readAll_singleton, hcheck]
    rfl
  · rw [Reader.readAll_cons, (calm_start rfl (by decide : "if (" ∈ _)).1, Reader.readAll_cons,
      throwsItself_assertion, Reader.readAll_singleton, hclosing]
    rfl

/-- What a method throws itself: for numbers out of range, and where nothing may go wrong. -/
theorem thrown_java (hs : s.Standard) (f : Function) :
    throwsItself.readWithin ((f.javaMethod s).lines s) = f.ranged.map (fun _ => refusedException) ++
      ((if f.fallible then [] else ["AssertionError"]) ++ if f.guarded then ["AssertionError"] else []) := by
  have hranged : throwsItself.readAll ((f.ranged.flatMap (rangeCheck s)).map (·.text)) =
      f.ranged.map fun _ => refusedException := by
    rw [List.map_flatMap, List.map_eq_flatMap]
    unfold Reader.readAll
    rw [List.filterMap_flatMap]
    exact List.flatMap_congr fun x _ => thrown_rangeCheck hs x
  have hrooms : throwsItself.readAll (f.filled.map Function.javaRoom) = [] :=
    Reader.readAll_eq_nil (ignores_javaRooms (by decide) f)
  have hreturn : throwsItself.readAll (f.javaMethod s).returnStatement?.toList = [] :=
    Reader.readAll_eq_nil (ignores_javaReturn (by decide) f s)
  have hcall : throwsItself.read? f.javaCall.toList = none := ignores_javaCall (by decide) f
  have hend : throwsItself.readAll [catching ++ (refusedException ++ " e) \x7b"),
      "throw new AssertionError(e);"] = ["AssertionError"] := by decide
  unfold Reader.readWithin
  rw [textsWithin_java_eq, Reader.readAll_append, Reader.readAll_append, hranged, hrooms,
    Reader.readAll_cons, hcall, Reader.readAll_append, thrown_outcome,
    readAll_conclusion (by decide) (by decide), hreturn, hs.refused, hend, List.append_nil]
  rfl

/-- What a method catches. -/
theorem caught_java (hs : s.Standard) (f : Function) :
    catches.readWithin ((f.javaMethod s).lines s) = if f.guarded then [refusedException] else [] := by
  have hfront := Reader.readAll_eq_nil (ignores_front (r := catches) (by decide) (by decide) f s)
  have houtcome : catches.readAll (((f.javaMethod s).outcome s).map (·.text)) = [] :=
    Reader.readAll_eq_nil fun text htext =>
      (plainLine_outcome _ s text htext).ignores (by decide) (by decide)
  have hreturn : catches.readAll (f.javaMethod s).returnStatement?.toList = [] :=
    Reader.readAll_eq_nil (ignores_javaReturn (by decide) f s)
  have hcall : catches.read? f.javaCall.toList = none := ignores_javaCall (by decide) f
  have hend : catches.readAll [catching ++ (refusedException ++ " e) \x7b"),
      "throw new AssertionError(e);"] = [refusedException] := by decide
  unfold Reader.readWithin
  rw [textsWithin_java_eq, Reader.readAll_append, hfront, Reader.readAll_cons, hcall,
    Reader.readAll_append, houtcome, readAll_conclusion (by decide) (by decide), hreturn, hs.refused, hend]
  rfl

theorem refused_mem_namedExceptions (hm : m.WellFormed) (hf : f ∈ m.functions) (hs : s.Standard) :
    refusedException ∈ namedExceptions ((f.javaMethod s).lines s) ↔ f.ranged ≠ [] ∨ f.guarded = true := by
  have hdeclared : refusedException ∈ f.javaDeclared → f.ranged ≠ [] := by
    unfold Function.javaDeclared
    split
    · exact fun h => absurd h (by decide)
    · split
      · exact fun h => absurd h List.not_mem_nil
      · exact fun _ => ‹_›
  have hassert : ∀ b : Bool, refusedException ∉ if b then ["AssertionError"] else ([] : List String) := by
    decide
  have hother : ∀ b : Bool, refusedException ∉ if b then ([] : List String) else ["AssertionError"] := by
    decide
  unfold namedExceptions
  rw [declaredThrows_java hm hf hs, thrown_java hs, caught_java hs]
  simp only [List.mem_append, hassert, hother, or_false]
  constructor
  · rintro (h | h | h)
    · exact Or.inl (hdeclared h)
    · obtain ⟨_, hx, _⟩ := List.mem_map.1 h
      exact Or.inl (List.ne_nil_of_mem hx)
    · split at h
      · exact Or.inr ‹_›
      · exact absurd h List.not_mem_nil
  · rintro (h | h)
    · obtain ⟨x, hx⟩ := List.exists_mem_of_ne_nil _ h
      exact Or.inr (Or.inl (List.mem_map.2 ⟨x, hx, rfl⟩))
    · rw [h]
      exact Or.inr (Or.inr (List.mem_singleton_self _))

end

/-! ## The imports of a module -/

/-- `ImportsNeeds s m module imports` — these are the imports that the class of the module needs: in order,
each once, and every one for a reason that can be read off the description or the methods. -/
structure ImportsNeeds (s : Setting) (m : Model) (module : Module) (imports : List String) : Prop where
  ordered : imports.Pairwise (· < ·)
  types : ∀ t ∈ m.types, (m.typeKey t).full s ∈ imports ↔
    t.isScalar = false ∧ m.homeModule t ≠ module.name ∧ module.Uses t
  bytes : bytesKey.full s ∈ imports ↔ ∃ f ∈ module.functions, DecodesNumber ((f.javaMethod s).lines s)
  refused : ClassKey.full s (none, refusedException) ∈ imports ↔
    ∃ f ∈ module.functions, refusedException ∈ namedExceptions ((f.javaMethod s).lines s)
  fixed : ∀ x ∈ fixedKeys, x.full s ∈ imports ↔ module.functions ≠ []
  others : ∀ i ∈ imports, ∃ x : ClassKey, i = x.full s ∧
    (x ∈ fixedKeys ∨ x = bytesKey ∨ x = (none, refusedException) ∨ ∃ t ∈ m.types, x = m.typeKey t)

section

variable {s : Setting} {m : Model} {module : Module} {library : FileText}

theorem readAt_moduleUnit (s : Setting) (m : Model) (module : Module) :
    imported.readAt 0 (moduleUnit s m module).lines = javaImports s m module :=
  (laid_module module).readAt_imported (by decide)

theorem importsNeeds (hm : m.WellFormed) (hs : s.Standard) (hmodule : module ∈ m.modules) :
    ImportsNeeds s m module (imported.readAt 0 (moduleUnit s m module).lines) := by
  have hfun : ∀ f ∈ module.functions, f ∈ m.functions := fun f hf =>
    Model.mem_functions.2 ⟨module, hmodule, hf⟩
  rw [readAt_moduleUnit]
  constructor
  case ordered =>
    rw [javaImports_eq hs]
    exact Text.pairwise_sortDistinct _
  case types =>
    intro t ht
    rw [mem_javaImports hm hs hmodule (spelled_typeKey hm ht), typeKey_mem_needs hm hmodule ht]
  case bytes =>
    rw [mem_javaImports hm hs hmodule spelled_bytesKey, bytesKey_mem_needs hm hmodule]
    exact exists_congr fun f => and_congr_right fun hf => (decodesNumber_java hm (hfun f hf) s).symm
  case refused =>
    rw [mem_javaImports hm hs hmodule spelled_refused, refused_mem_needs]
    exact exists_congr fun f => and_congr_right fun hf =>
      (refused_mem_namedExceptions hm (hfun f hf) hs).symm
  case fixed =>
    intro x hx
    rw [mem_javaImports hm hs hmodule (spelled_fixedKeys x hx), fixedKeys_mem_needs x hx]
  case others =>
    intro i hi
    rw [javaImports_eq hs, Text.mem_sortDistinct] at hi
    obtain ⟨x, hx, rfl⟩ := List.mem_map.1 hi
    refine ⟨x, rfl, ?_⟩
    rcases mem_needs.1 hx with ⟨_, hx⟩ | ⟨f, hf, hx⟩
    · exact Or.inl hx
    · rcases mem_function_needs.1 hx with ⟨t, ht, _, rfl⟩ | ⟨_, rfl⟩ | ⟨_, rfl⟩
      · exact Or.inr (Or.inr (Or.inr ⟨t, hm.usedTypes_mem (hfun f hf) t ht, rfl⟩))
      · exact Or.inr (Or.inl rfl)
      · exact Or.inr (Or.inr (Or.inl rfl))

end

/-! ## Where imports lead -/

/-- `u.Resolves s paths` — the class stands where its package says, bears the name of its file, and for
what it imports there is a file, unless it comes with the language. -/
structure JavaUnit.Resolves (s : Setting) (paths : List String) (u : JavaUnit) : Prop where
  placed : ∃ below, packages.readAt 0 u.lines = [s.options.javaPackage ++ below] ∧
    u.path = "java" ++ slashed below ++ "/" ++ u.name ++ ".java"
  named : ∃ kind ∈ classKinds, ∃ rest : String, Text.Stops isIdentifierChar rest.toList ∧
    kind ++ (u.name ++ rest) ∈ textsAt 0 u.lines
  imports : ∀ i ∈ imported.readAt 0 u.lines, i = "java.util.Arrays" ∨ ∃ rest,
    i = s.options.javaPackage ++ "." ++ rest ∧ "java/" ++ slashed rest ++ ".java" ∈ paths

/-- `f.Resolves s paths` — the same of a file, read off its text up to the class that it declares. -/
structure Source.File.Resolves (s : Setting) (paths : List String) (f : File) : Prop where
  placed : ∃ below name, packages.readFront f.text = [s.options.javaPackage ++ below] ∧
    classOf? f.text = some name ∧ f.path = "java" ++ slashed below ++ "/" ++ name ++ ".java"
  imports : ∀ i ∈ imported.readFront f.text, i = "java.util.Arrays" ∨ ∃ rest,
    i = s.options.javaPackage ++ "." ++ rest ∧ "java/" ++ slashed rest ++ ".java" ∈ paths

section

variable {s : Setting} {m : Model} {library : FileText} {u : JavaUnit} {units : List JavaUnit}

/-- The file of a class stands where its full name says. -/
theorem JavaUnit.path_eq (h : u.key.Spelled) : u.path = "java/" ++ slashed (u.below ".") ++ ".java" := by
  have hname : slashed u.name = u.name := slashed_dotless (h.name.notMem (by decide))
  unfold JavaUnit.path JavaUnit.below
  cases hhome : u.home with
  | none => simp only [Option.elim_none, hname]
  | some home =>
    have hhost : slashed home = home := slashed_dotless ((h.home home hhome).notMem (by decide))
    simp only [Option.elim_some, slashed_append, slashed_dot, hname, hhost]

/-- The directory of a class is that of its package. -/
theorem JavaUnit.placed (h : u.key.Spelled) : ∃ below, u.package s = s.options.javaPackage ++ below ∧
    u.path = "java" ++ slashed below ++ "/" ++ u.name ++ ".java" := by
  have hslash : "java/" = "java" ++ "/" := by decide
  unfold JavaUnit.package JavaUnit.path JavaUnit.below
  cases hhome : u.home with
  | none =>
    refine ⟨"", (String.append_empty).symm, ?_⟩
    rw [slashed_dotless List.not_mem_nil, String.append_empty, ← hslash]
    rfl
  | some home =>
    have hhost : slashed ("." ++ home) = "/" ++ home := by
      rw [slashed_append, slashed_dot, slashed_dotless ((h.home home hhome).notMem (by decide))]
    refine ⟨"." ++ home, ?_, ?_⟩
    · exact String.append_assoc
    · rw [hhost, hslash]
      simp only [Option.elim_some, String.append_assoc]

theorem ClassKey.Spelled.unbroken_full {x : ClassKey} (h : x.Spelled)
    (hs : Unbroken s.options.javaPackage) : Unbroken (x.full s) := by
  obtain ⟨home, name⟩ := x
  have hname := unbroken_of_wordy h.name
  unfold ClassKey.full
  cases home with
  | none => simp +decide only [Option.elim_none, unbroken_append, hs, hname, and_self]
  | some home =>
    have hhome := unbroken_of_wordy (h.home home rfl)
    simp +decide only [Option.elim_some, unbroken_append, hs, hhome, hname, and_self]

theorem JavaUnit.unbroken_package (h : u.key.Spelled) (hs : Unbroken s.options.javaPackage) :
    Unbroken (u.package s) := by
  unfold JavaUnit.package Setting.package
  cases hhome : u.home with
  | none => exact hs
  | some home =>
    have hword := unbroken_of_wordy (h.home home hhome)
    simp +decide only [Option.elim_some, unbroken_append, hs, hword, and_self]

/-- `ImportsFrom s units imports` — what is imported are classes that there are, or comes with the
language. -/
def ImportsFrom (s : Setting) (units : List JavaUnit) (imports : List String) : Prop :=
  ∀ i ∈ imports, i = "java.util.Arrays" ∨ ∃ v ∈ units, i = v.key.full s

theorem ImportsFrom.lead {imports : List String} (h : ImportsFrom s units imports)
    (hunits : ∀ v ∈ units, v.key.Spelled) : ∀ i ∈ imports, i = "java.util.Arrays" ∨ ∃ rest,
      i = s.options.javaPackage ++ "." ++ rest ∧
        "java/" ++ slashed rest ++ ".java" ∈ units.map JavaUnit.path := by
  intro i hi
  rcases h i hi with harrays | ⟨v, hv, hfull⟩
  · exact Or.inl harrays
  · exact Or.inr ⟨v.below ".", hfull, List.mem_map.2 ⟨v, hv, v.path_eq (hunits v hv)⟩⟩

theorem ImportsFrom.unbroken {imports : List String} (h : ImportsFrom s units imports)
    (hunits : ∀ v ∈ units, v.key.Spelled) (hs : Unbroken s.options.javaPackage) :
    ∀ i ∈ imports, Unbroken i := by
  intro i hi
  rcases h i hi with rfl | ⟨v, hv, rfl⟩
  · decide
  · exact (hunits v hv).unbroken_full hs

namespace JavaUnit.Declares

variable {imports : List String} {kind rest : String}

/-- A class resolves if the classes it imports are there. -/
theorem resolves (h : u.Declares s imports kind rest) (hspelled : u.key.Spelled)
    (hunits : ∀ v ∈ units, v.key.Spelled) (himports : ImportsFrom s units imports) :
    u.Resolves s (units.map JavaUnit.path) := by
  constructor
  case placed =>
    rw [h.laid.readAt_packages h.kind]
    obtain ⟨below, hpackage, hpath⟩ := u.placed hspelled (s := s)
    exact ⟨below, congrArg (fun p => [p]) hpackage, hpath⟩
  case named =>
    obtain ⟨remarks, _, htexts⟩ := h.laid.textsAt
    refine ⟨kind, h.kind, _, h.ends, ?_⟩
    rw [htexts]
    simp only [List.mem_cons, List.mem_append, true_or, or_true]
  case imports =>
    rw [h.laid.readAt_imported h.kind]
    exact himports.lead hunits

/-- What is read off its file is what its lines hold, if no line of the header is broken. -/
theorem read_file {f : File} (h : u.Declares s imports kind rest) (hf : u.Written s f) (hs : s.Harmless)
    (hspelled : u.key.Spelled) (hunits : ∀ v ∈ units, v.key.Spelled)
    (himports : ImportsFrom s units imports) : classOf? f.text = some u.name ∧
      packages.readFront f.text = packages.readAt 0 u.lines ∧
      imported.readFront f.text = imported.readAt 0 u.lines := by
  have hbase := unbroken_of_isPackageName hs.options.javaPackage
  have hpackage := u.unbroken_package hspelled hbase
  have hunbroken := himports.unbroken hunits hbase
  have hpackages : packages.Outer := by constructor <;> decide
  have himported : imported.Outer := by constructor <;> decide
  exact ⟨(h.front_eq hf hs.header hpackage hunbroken).1,
    h.readFront_eq hf hs.header hpackage hunbroken hpackages (by decide) (by decide) (by decide),
    h.readFront_eq hf hs.header hpackage hunbroken himported (by decide) (by decide) (by decide)⟩

end JavaUnit.Declares

/-! ### The classes that there are -/

theorem mem_javaUnits_base : ⟨none, baseException, baseExceptionLines s⟩ ∈ javaUnits s m library :=
  List.mem_append_left _ (List.mem_append_left _ (List.mem_append_left _ List.mem_cons_self))

theorem mem_javaUnits_refused (hs : s.Standard) :
    exceptionUnit s refusedException ∈ javaUnits s m library := by
  have hderived : refusedException ∈ s.codes.table.derivedExceptions := by
    rw [hs.table]
    decide
  exact List.mem_append_left _ (List.mem_append_left _ (List.mem_append_left _
    (List.mem_cons_of_mem _ (List.mem_map.2 ⟨_, hderived, rfl⟩))))

theorem mem_javaUnits_native : ⟨some Model.internalModule, "Native", nativeLines s m library⟩ ∈
    javaUnits s m library :=
  List.mem_append_left _ (List.mem_append_left _ (List.mem_append_right _ List.mem_cons_self))

theorem mem_javaUnits_byteArray : ⟨some Model.internalModule, "ByteArray", byteArrayLines s⟩ ∈
    javaUnits s m library :=
  List.mem_append_left _ (List.mem_append_left _ (List.mem_append_right _
    (List.mem_cons_of_mem _ (List.mem_singleton_self _))))

theorem mem_javaUnits_value {t : TypeDef} (ht : t ∈ m.types) (hscalar : t.isScalar = false) :
    valueUnit s (m.homeModule t, t) ∈ javaUnits s m library :=
  List.mem_append_left _ (List.mem_append_right _
    (List.mem_map.2 ⟨_, Model.mem_placedTypes.2 ⟨ht, hscalar, rfl⟩, rfl⟩))

/-- What a module needs is there. -/
theorem exists_unit_of_mem_needs (hm : m.WellFormed) (hs : s.Standard) {module : Module}
    (hmodule : module ∈ m.modules) {x : ClassKey} (hx : x ∈ module.needs m) :
    ∃ v ∈ javaUnits s m library, v.key = x := by
  rcases mem_needs.1 hx with ⟨_, hx⟩ | ⟨f, hf, hx⟩
  · rcases List.mem_cons.1 hx with rfl | hx
    · exact ⟨_, mem_javaUnits_base, rfl⟩
    · obtain rfl := List.mem_singleton.1 hx
      exact ⟨_, mem_javaUnits_native, rfl⟩
  · have hfun : f ∈ m.functions := Model.mem_functions.2 ⟨module, hmodule, hf⟩
    rcases mem_function_needs.1 hx with ⟨t, ht, ⟨hscalar, _⟩, rfl⟩ | ⟨_, rfl⟩ | ⟨_, rfl⟩
    · exact ⟨_, mem_javaUnits_value (hm.usedTypes_mem hfun t ht) hscalar, rfl⟩
    · exact ⟨_, mem_javaUnits_byteArray, rfl⟩
    · exact ⟨_, mem_javaUnits_refused hs, rfl⟩

/-- No class has a dot in its name, nor in that of its package below the base package. -/
theorem spelled_javaUnits (hm : m.WellFormed) (hs : s.Standard) :
    ∀ u ∈ javaUnits s m library, u.key.Spelled := by
  refine forall_mem_javaUnits ?base ?exceptions ?native ?bytes ?values ?modules
  case base => exact ClassKey.spelled_of_none (by decide : Wordy baseException.toList)
  case exceptions =>
    rw [hs.table]
    have hall : ∀ name ∈ ErrorTable.standard.derivedExceptions, Wordy name.toList := by decide
    exact fun name hname => ClassKey.spelled_of_none (hall name hname)
  case native => exact ClassKey.spelled_of_home (by decide) (by decide : Wordy "Native".toList)
  case bytes => exact spelled_bytesKey
  case values =>
    rintro ⟨home, t⟩ hx
    obtain ⟨ht, _, rfl⟩ := Model.mem_placedTypes.1 hx
    exact spelled_typeKey hm ht
  case modules =>
    intro module hmodule
    have hname := (hm.spelled module.name (List.mem_map.2 ⟨module, hmodule, rfl⟩)).1
    exact ClassKey.spelled_of_home (wordy_of_isModuleName hname) (wordy_moduleClass hname)

/-- What a class is, apart from its body, is what it imports and how it is declared. -/
theorem declares_javaUnits (hm : m.WellFormed) (hs : s.Standard) :
    ∀ u ∈ javaUnits s m library, ∃ imports kind rest, u.Declares s imports kind rest ∧
      ImportsFrom s (javaUnits s m library) imports := by
  have hrefused : s.baseClass s.codes.invalidInput.exceptionName =
      (exceptionUnit s refusedException).key.full s := by
    rw [hs.refused]
    rfl
  have hbase : s.baseClass baseException = ClassKey.full s (none, baseException) := rfl
  suffices h : ∀ u ∈ javaUnits s m library, ∃ imports kind rest, u.Laid s imports kind rest ∧
      kind ∈ classKinds ∧ Text.Stops isIdentifierChar (rest ++ (" " ++ opening)).toList ∧
      Unbroken rest ∧ ImportsFrom s (javaUnits s m library) imports by
    intro u hu
    obtain ⟨_, _, _, hlaid, hkind, hends, hrest, himports⟩ := h u hu
    exact ⟨_, _, _, ⟨hlaid, hkind, (spelled_javaUnits hm hs u hu).name, hends, hrest⟩, himports⟩
  refine forall_mem_javaUnits ?base ?exceptions ?native ?bytes ?values ?modules
  case base => exact ⟨_, _, _, laid_base, by decide, by decide, by decide, List.forall_mem_nil _⟩
  case exceptions =>
    exact fun name _ => ⟨_, _, _, laid_exception hs name, by decide, by decide, by decide,
      List.forall_mem_nil _⟩
  case native => exact ⟨_, _, _, laid_native, by decide, by decide, by decide, List.forall_mem_nil _⟩
  case bytes =>
    refine ⟨_, _, _, laid_byteArray, by decide, by decide, by decide, ?_⟩
    refine List.forall_mem_cons.2 ⟨Or.inl rfl, List.forall_mem_cons.2 ⟨?_, ?_⟩⟩
    · exact Or.inr ⟨_, mem_javaUnits_refused hs, hrefused⟩
    · exact List.forall_mem_singleton.2 (Or.inr ⟨_, mem_javaUnits_base, hbase⟩)
  case values =>
    rintro ⟨home, t⟩ hx
    obtain ⟨_, hscalar, _⟩ := Model.mem_placedTypes.1 hx
    refine ⟨_, _, _, laid_value hscalar, valueKind_mem t, ?_, ?_, ?_⟩
    · unfold valueKind
      cases t.isBuffer <;> decide
    · unfold valueKind
      cases t.isBuffer <;> decide
    · refine List.forall_mem_cons.2 ⟨Or.inr ⟨_, mem_javaUnits_refused hs, hrefused⟩, ?_⟩
      refine List.forall_mem_singleton.2 (Or.inr ?_)
      split
      · refine ⟨_, mem_javaUnits_byteArray, ?_⟩
        show s.options.javaPackage ++ "." ++ Model.internalModule ++ ".ByteArray" =
          s.options.javaPackage ++ "." ++ (Model.internalModule ++ "." ++ "ByteArray")
        have hbytes : ".ByteArray" = "." ++ "ByteArray" := by decide
        rw [hbytes]
        simp only [String.append_assoc]
      · exact ⟨_, mem_javaUnits_base, hbase⟩
  case modules =>
    intro module hmodule
    refine ⟨_, _, _, laid_module module, by decide, by decide, by decide, fun i hi => ?_⟩
    rw [javaImports_eq hs, Text.mem_sortDistinct] at hi
    obtain ⟨x, hx, rfl⟩ := List.mem_map.1 hi
    have hunit : ∃ v ∈ javaUnits s m library, v.key = x := exists_unit_of_mem_needs hm hs hmodule hx
    obtain ⟨v, hv, rfl⟩ := hunit
    exact Or.inr ⟨v, hv, rfl⟩

/-- Every class is where it says, and so is what it imports. -/
theorem resolves_javaUnits (hm : m.WellFormed) (hs : s.Standard) :
    ∀ u ∈ javaUnits s m library, u.Resolves s ((javaUnits s m library).map JavaUnit.path) := by
  intro u hu
  obtain ⟨_, _, _, hdeclares, himports⟩ := declares_javaUnits hm hs u hu
  exact hdeclares.resolves (spelled_javaUnits hm hs u hu) (spelled_javaUnits hm hs) himports

end

/-! ## The imports of a description -/

theorem JavaUnit.map_path_of_written {s : Setting} {units : List JavaUnit} {files : List File}
    (h : List.Forall₂ (JavaUnit.Written s) units files) :
    files.map (·.path) = units.map JavaUnit.path := by
  induction h with
  | nil => rfl
  | cons hwritten _ ih => rw [List.map_cons, List.map_cons, hwritten.path, ih]

/-- `ImportsRead s m files` — what the texts of the files import: everything leads somewhere, and the
class of every module imports what it needs. -/
structure ImportsRead (s : Setting) (m : Model) (files : List File) : Prop where
  resolve : ∀ f ∈ files, f.Resolves s (files.map (·.path))
  needs : ∀ module ∈ m.modules, ∃ f ∈ files, f.path = javaModulePath module.name ∧
    ImportsNeeds s m module (imported.readFront f.text)

theorem importsRead {s : Setting} {m : Model} {library : FileText} {files : List File}
    (hm : m.WellFormed) (hs : s.Standard) (hharmless : s.Harmless)
    (hwritten : List.Forall₂ (JavaUnit.Written s) (javaUnits s m library) files) :
    ImportsRead s m files := by
  have hread : ∀ u ∈ javaUnits s m library, ∀ f, u.Written s f → classOf? f.text = some u.name ∧
      packages.readFront f.text = packages.readAt 0 u.lines ∧
      imported.readFront f.text = imported.readAt 0 u.lines := by
    intro u hu f hfile
    obtain ⟨_, _, _, hdeclares, himports⟩ := declares_javaUnits hm hs u hu
    exact hdeclares.read_file hfile hharmless (spelled_javaUnits hm hs u hu) (spelled_javaUnits hm hs)
      himports
  constructor
  case resolve =>
    intro f hf
    obtain ⟨u, hu, hfile⟩ := exists_mem_of_forall₂ hwritten.flip f hf
    have hresolves := resolves_javaUnits hm hs u hu
    obtain ⟨hclass, hpackage, himports⟩ := hread u hu f hfile
    obtain ⟨below, hbelow, hpath⟩ := hresolves.placed
    rw [JavaUnit.map_path_of_written hwritten]
    exact ⟨⟨below, u.name, hpackage.trans hbelow, hclass, hfile.path.trans hpath⟩,
      himports ▸ hresolves.imports⟩
  case needs =>
    intro module hmodule
    have hunit : moduleUnit s m module ∈ javaUnits s m library :=
      List.mem_append_right _ (List.mem_map.2 ⟨module, hmodule, rfl⟩)
    obtain ⟨f, hf, hfile⟩ := exists_mem_of_forall₂ hwritten _ hunit
    refine ⟨f, hf, hfile.path.trans (written_module (s := s) (m := m) module).path.symm, ?_⟩
    rw [(hread _ hunit f hfile).2.2]
    exact importsNeeds hm hs hmodule

/-- **No import is missing, superfluous or astray**, whatever the API: on the Java side of an accepted
description, with the standard table, the class of every module imports what it needs, and everything
that any class imports is among the files, each of which stands in the directory of its package.  If
the options are valid and no line of the header is broken, that is what the texts of the files say. -/
theorem imports_resolved {es : List (Value × Value)} {m : Model} {o : Options} {jvm : List File}
    (hm : Model.ofDescription es = .ok m) (hjvm : Target.jvm.emit m o .standard = .ok jvm) :
    ∃ (s : Setting) (library : FileText) (files : List File), s.For o .standard ∧
      jvm = glueFile s m :: files ∧
      List.Forall₂ (JavaUnit.Written s) (javaUnits s m library) files ∧
      (∀ u ∈ javaUnits s m library, u.Resolves s (files.map (·.path))) ∧
      (∀ module ∈ m.modules,
        ImportsNeeds s m module (imported.readAt 0 (moduleUnit s m module).lines)) ∧
      (o.Valid → o.HeaderUnbroken → ImportsRead s m files) := by
  obtain ⟨s, hs, library, hlibrary, rfl⟩ := emit_jvm_library hjvm
  have hw : m.WellFormed := (ofDescription_eq_ok.1 hm).2
  rw [← hs.options] at hlibrary
  obtain ⟨files, hfiles, hwritten⟩ := written_javaUnits hw hs.standard hlibrary
  refine ⟨s, library, files, hs, hfiles, hwritten, ?_, fun _ => importsNeeds hw hs.standard,
    fun ho hheader => importsRead hw hs.standard
      (hs.harmless ho hheader ErrorTable.usable_standard) hwritten⟩
  rw [JavaUnit.map_path_of_written hwritten]
  exact resolves_javaUnits hw hs.standard

theorem imports_resolved_vault : ∃ s library files, Target.jvm.emit (vaultModel 32) .standard .standard =
    .ok (glueFile s (vaultModel 32) :: files) ∧
    (∀ u ∈ javaUnits s (vaultModel 32) library, u.Resolves s (files.map (·.path))) ∧
    ((vaultModel 32).modules.map fun module =>
      imported.readAt 0 (moduleUnit s (vaultModel 32) module).lines) =
      [["org.signal.zkgroup.InvalidInputException", "org.signal.zkgroup.ZkGroupException",
        "org.signal.zkgroup.internal.Native", "org.signal.zkgroup.vault.Role"], []] ∧
    ImportsRead s (vaultModel 32) files := by
  obtain ⟨jvm, hjvm⟩ : ∃ fs, Target.jvm.emit (vaultModel 32) .standard .standard = .ok fs :=
    exists_eq_ok (by decide +kernel)
  obtain ⟨s, library, files, hs, rfl, _, hresolves, _, hread⟩ := imports_resolved ofDescription_vault hjvm
  refine ⟨s, library, files, hjvm, hresolves, ?_, hread valid_standard headerUnbroken_standard⟩
  have himports : (fun module => imported.readAt 0 (moduleUnit s (vaultModel 32) module).lines) =
      fun module => Text.sortDistinct ((module.needs (vaultModel 32)).map fun x : ClassKey =>
        Options.standard.javaPackage ++ "." ++ x.1.elim x.2 fun home => home ++ "." ++ x.2) := by
    funext module
    rw [readAt_moduleUnit, javaImports_eq hs.standard, ← hs.options]
    rfl
  rw [himports]
  decide +kernel

/-! ## A header with an import of its own -/

/-- Options with an import behind a line feed in the header. -/
def strayOptions : Options :=
  { Options.standard with header := .lines [.str "Bindings\nimport evil.Gone;"] }

/-- With a broken line in its header a class imports what is neither in the package nor comes with the
language. -/
theorem imports_astray : strayOptions.Valid ∧ Model.ofDescription (vaultEntries 32) = .ok (vaultModel 32) ∧
    ∃ (s : Setting) (jvm : List File) (file : File), s.For strayOptions .standard ∧
      Target.jvm.emit (vaultModel 32) strayOptions .standard = .ok jvm ∧ file ∈ jvm ∧
      file.path = "java/ZkGroupException.java" ∧ "evil.Gone" ∈ imported.readFront file.text ∧
      "evil.Gone" ≠ "java.util.Arrays" ∧
      ¬ ∃ rest : String, "evil.Gone" = strayOptions.javaPackage ++ "." ++ rest := by
  have hm : (vaultModel 32).WellFormed := (ofDescription_eq_ok.1 ofDescription_vault).2
  obtain ⟨jvm, hjvm⟩ : ∃ fs, Target.jvm.emit (vaultModel 32) strayOptions .standard = .ok fs :=
    exists_eq_ok (by decide +kernel)
  obtain ⟨s, hs, library, hlibrary, rfl⟩ := emit_jvm_library hjvm
  rw [← hs.options] at hlibrary
  obtain ⟨files, hfiles, hwritten⟩ := written_javaUnits hm hs.standard hlibrary
  obtain ⟨file, hmem, hfile⟩ := exists_mem_of_forall₂ hwritten _ mem_javaUnits_base
  have hheader : s.header = [⟨"Bindings\nimport evil.Gone;", true⟩] := (Except.ok.inj hs.header).symm
  have hpath : "java/" ++ baseException ++ ".java" = "java/ZkGroupException.java" := by decide
  refine ⟨valid_standard.withHeader _, ofDescription_vault, s, _, file, hs, hjvm,
    hfiles ▸ List.mem_cons_of_mem _ hmem, hfile.path.trans hpath, ?_, by decide, ?_⟩
  · rw [hfile.text, hheader]
    exact Reader.mem_readFront_of_banner (t := "// Bindings\nimport evil.Gone;") (by decide)
      (by decide +kernel) (by decide +kernel) (by decide +kernel) _
  · rintro ⟨rest, hrest⟩
    have hstart : ¬ strayOptions.javaPackage.toList <+: "evil.Gone".toList := by decide
    rw [hrest, String.append_assoc, String.toList_append] at hstart
    exact hstart (List.prefix_append _ _)

end Bindery
