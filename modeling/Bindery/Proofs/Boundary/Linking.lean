/-
  LINKING: every symbol has one function, and is where it is looked for.

  In one API no symbol of a layer stands for two functions, nor for one of the helpers that the
  layer brings along; and native symbols differ even where packages differ (`SymbolsApart`).  The
  class `Native` declares the native methods, and their native symbols are the ones that follow from
  the names of class and method (`DeclaresNative`).
-/
import Bindery.Proofs.Naming.Distinct
import Bindery.Proofs.Target.Paths

namespace Bindery

open Naming Source Target

/-! ## Symbols of one API -/

/-- The functions that the exported layer brings along. -/
def exportHelpers : List String :=
  ["ffi_return_code", "ffi_guard", "ffi_input", "ffi_output", "ffi_enum"]

/-- The functions that the safe layer brings along. -/
def safeHelpers : List String := ["fixed", "check_output"]

/-- `SymbolsApart m` — no symbol of the API stands for two things. -/
structure SymbolsApart (m : Model) : Prop where
  once : m.functions.Nodup
  core : ∀ f ∈ m.functions, ∀ g ∈ m.functions, f.coreSymbol = g.coreSymbol → f = g
  safe : ∀ f ∈ m.functions, ∀ g ∈ m.functions, f.safeSymbol = g.safeSymbol → f = g
  method : ∀ f ∈ m.functions, ∀ g ∈ m.functions, f.nativeMethod = g.nativeMethod → f = g
  native : ∀ f ∈ m.functions, ∀ g ∈ m.functions, ∀ o o' : Options, o.Valid → o'.Valid →
    f.nativeSymbol o.javaPackage = g.nativeSymbol o'.javaPackage →
      o.javaPackage = o'.javaPackage ∧ f.module = g.module ∧ f.name = g.name
  coreFree : ∀ f ∈ m.functions, f.coreSymbol ∉ exportHelpers
  safeFree : ∀ f ∈ m.functions, f.safeSymbol ∉ safeHelpers

namespace Function.Spelled

variable {f : Function}

/-- A text without an underscore is no symbol of the safe layer. -/
theorem safeSymbol_ne (text : String) (h : '_' ∉ text.toList) : f.safeSymbol ≠ text := by
  rintro rfl
  rw [safeSymbol_toList] at h
  exact h (List.mem_append_right _ List.mem_cons_self)

/-- A reserved word with something behind it is no symbol of the safe layer. -/
theorem safeSymbol_ne_reserved (hf : f.Spelled) (module name : String)
    (h : isReservedModule module = true) : f.safeSymbol ≠ module ++ "_" ++ name := by
  intro heq
  have hmodule := hf.module.2
  rw [(safeSymbol_parts hf heq).1, h] at hmodule
  nomatch hmodule

theorem coreSymbol_notMem (hf : f.Spelled) : f.coreSymbol ∉ exportHelpers := by
  have hcut : ∀ {text : String}, f.coreSymbol = "ffi_" ++ text → f.safeSymbol = text := fun h => by
    rw [coreSymbol_eq] at h
    exact append_left_cancel h
  intro hmem
  simp only [exportHelpers, List.mem_cons, List.not_mem_nil, or_false] at hmem
  rcases hmem with h | h | h | h | h
  · exact hf.safeSymbol_ne_reserved "return" "code" (by decide)
      (hcut (h.trans (by decide)))
  · exact safeSymbol_ne "guard" (by decide) (hcut (h.trans (by decide)))
  · exact safeSymbol_ne "input" (by decide) (hcut (h.trans (by decide)))
  · exact safeSymbol_ne "output" (by decide) (hcut (h.trans (by decide)))
  · exact safeSymbol_ne "enum" (by decide) (hcut (h.trans (by decide)))

theorem safeSymbol_notMem (hf : f.Spelled) : f.safeSymbol ∉ safeHelpers := by
  intro hmem
  simp only [safeHelpers, List.mem_cons, List.not_mem_nil, or_false] at hmem
  rcases hmem with h | h
  · exact safeSymbol_ne "fixed" (by decide) h
  · exact hf.safeSymbol_ne_reserved "check" "output" (by decide)
      (h.trans (by decide))

end Function.Spelled

theorem Model.WellFormed.symbolsApart {m : Model} (h : m.WellFormed) : SymbolsApart m where
  once := h.nodup_functions.of_map _
  core := fun _ hf _ hg heq =>
    h.function_eq hf hg (Function.coreSymbol_parts (h.spelledFunction hf) heq)
  safe := fun _ hf _ hg heq =>
    h.function_eq hf hg (Function.safeSymbol_parts (h.spelledFunction hf) heq)
  method := fun _ hf _ hg heq =>
    h.function_eq hf hg (Function.nativeMethod_parts (h.spelledFunction hf) (h.spelledFunction hg) heq)
  native := fun _ hf _ hg _ _ ho ho' heq =>
    nativeSymbol_parts (h.spelledFunction hf) (h.spelledFunction hg) ho.javaPackage ho'.javaPackage heq
  coreFree := fun _ hf => (h.spelledFunction hf).coreSymbol_notMem
  safeFree := fun _ hf => (h.spelledFunction hf).safeSymbol_notMem

/-! ## The class of the native methods -/

/-- The head of a native method. -/
def nativeHead : String := "public static native int "

/-- `DeclaresNative s m file` — a file for the class `Native` of the package `internal`, with exactly
one native method for every function, in the order of the model. -/
def DeclaresNative (s : Setting) (m : Model) (file : Source.File) : Prop :=
  ∃ body, file.text = renderFile (s.header.map (·.text))
      (line ("package " ++ (s.options.javaPackage ++ ".internal") ++ ";") :: gap ::
        block "public final class Native" body) ∧
    declared nativeHead body = m.functions.map (·.nativeMethod)

theorem declared_native {f : Function} (hf : f.Named) :
    declaredBy? nativeHead (line f.native.text) = some f.nativeMethod := by
  have hmethod : '(' ∉ f.nativeMethod.toList := by
    unfold Function.nativeMethod
    rw [String.toList_append, String.toList_append]
    exact (((wordy_of_plain hf.module).append (wordy_of_plain (plain_capitalize hf.name))).append
      (by decide)).notMem (by decide)
  obtain ⟨rest, hrest⟩ : ∃ rest, f.native.text.toList =
      nativeHead.toList ++ (f.nativeMethod.toList ++ '(' :: rest) := by
    unfold NativeMethod.text inParens
    simp only [String.toList_append, List.append_assoc]
    exact ⟨_, rfl⟩
  exact declaredBy?_line rest hrest hmethod

/-- What the class of the native methods holds. -/
def nativeBody (m : Model) (library : FileText) : List Line :=
  gap ::
    block "static" (Source.lines ["System.loadLibrary(\"" ++ library.text ++ "\");"]) ++
    gap ::
    block "private Native()" [] ++
    gap ::
    m.functions.map fun f => line f.native.text

theorem declared_nativeBody {m : Model} (h : ∀ f ∈ m.functions, f.Named) (library : FileText) :
    declared nativeHead (nativeBody m library) = m.functions.map (·.nativeMethod) := by
  have hmethods : declared nativeHead (m.functions.map fun f => line f.native.text) =
      m.functions.map (·.nativeMethod) := by
    rw [List.map_eq_flatMap]
    refine declared_flatMap_single fun f hf => ?_
    rw [declared_cons, declared_native (h f hf)]
    rfl
  have hgap : declaredBy? nativeHead gap = none := by decide
  have hprivate : declared nativeHead (block "private Native()" []) = [] := by decide
  unfold nativeBody
  have hstatic : declared nativeHead (block "static"
      (Source.lines ["System.loadLibrary(\"" ++ library.text ++ "\");"])) = [] :=
    declared_eq_nil 'p' rfl (quiet_block 's' rfl (by decide) (by decide))
  simp only [declared_append, declared_cons, hgap, hprivate, hmethods, hstatic]
  rfl

theorem nativeFile_text {s : Setting} {m : Model} (library : FileText) :
    (nativeFile s m library).text = renderFile (s.header.map (·.text))
      (line ("package " ++ (s.options.javaPackage ++ ".internal") ++ ";") :: gap ::
        block "public final class Native" (nativeBody m library)) := by
  have hpackage : s.package Model.internalModule = s.options.javaPackage ++ ".internal" := by
    have hname : "." ++ Model.internalModule = ".internal" := by decide
    rw [Setting.package, String.append_assoc, hname]
  unfold nativeFile javaFile Setting.file
  rw [hpackage]
  rfl

theorem declaresNative {s : Setting} {m : Model} (h : ∀ f ∈ m.functions, f.Named)
    (library : FileText) : DeclaresNative s m (nativeFile s m library) :=
  ⟨nativeBody m library, nativeFile_text library, declared_nativeBody h library⟩

/-- Where the class of the native methods stands. -/
def nativePath : String := "java/internal/Native.java"

/-- What stands in a directory of a home has the path of the native class only if it is named
alike. -/
theorem name_of_nativePath {home name : String} (hhome : IsHome home)
    (h : javaDir ++ "/" ++ (home ++ "/" ++ name) ++ ".java" = nativePath) :
    home = "internal" ∧ name = "Native" := by
  have hpath : nativePath = javaDir ++ "/" ++ ("internal" ++ "/" ++ "Native") ++ ".java" := by decide
  rw [hpath] at h
  have hlist := congrArg String.toList (append_left_cancel (append_right_cancel h))
  rw [String.toList_append, String.toList_append, String.toList_append, String.toList_append,
    List.append_assoc, List.append_assoc] at hlist
  have hslash : ∀ {s : List Char}, '/' ∉ s → ∀ c ∈ s, (c == '/') = false := fun hs c hc =>
    beq_false_of_ne fun heq => hs (heq ▸ hc)
  obtain ⟨hsame, _, hrest⟩ := Text.append_cons_inj_of_first (p := (· == '/'))
    (hslash hhome.component.noSlash) (hslash (by decide)) (by decide) (by decide) hlist
  exact ⟨String.toList_inj.1 hsame, String.toList_inj.1 hrest⟩

/-- No other file of the Java side takes the place of the class. -/
theorem nativeFile_mem {s : Setting} {m : Model} (hm : m.WellFormed) (library : FileText) :
    nativeFile s m library ∈ collect (jvmFiles s m library) := by
  have hfiles : jvmFiles s m library = (glueFile s m :: baseExceptionFile s ::
      s.codes.table.derivedExceptions.map (exceptionFile s)) ++ nativeFile s m library ::
      (byteArrayFile s :: (valueFiles m (javaValueFile? s) ++
        m.modules.map (javaModuleFile s m))) := by
    unfold jvmFiles
    simp only [List.cons_append, List.append_assoc, List.nil_append]
  rw [hfiles]
  refine mem_collect_of_last (List.forall_mem_cons.2 ⟨?_, List.forall_mem_append.2 ⟨?_, ?_⟩⟩)
  · show javaDir ++ "/" ++ "internal/ByteArray" ++ ".java" ≠ nativePath
    decide
  · intro f hf hpath
    obtain ⟨home, t, hhome, ht, hfile⟩ := mem_valueFiles hm hf
    obtain ⟨_, rfl⟩ := exists_javaValueFile hfile
    have hnative : t.name = "Native" := (name_of_nativePath hhome hpath).2
    refine (hm.types.each t ht).named.2 "Native" ?_ (by rw [hnative])
    exact List.mem_append_left _ (by decide)
  · intro f hf hpath
    obtain ⟨module, hmodule, rfl⟩ := List.mem_map.1 hf
    obtain ⟨hinternal, hclass⟩ := name_of_nativePath (isHome_of_isModuleName (hm.isModuleName hmodule))
      hpath
    rw [hinternal] at hclass
    exact absurd hclass (by decide)

/-! ## The symbols of a description -/

/-- **Symbols are apart, and linked.**  Whatever the API, no symbol of a layer stands for two things,
and under whatever options, the native symbol of a function is the one that belongs to the class and
the method that the Java side declares. -/
theorem symbols_apart {es : List (Value × Value)} {m : Model} (hm : Model.ofDescription es = .ok m) :
    SymbolsApart m ∧
    (∀ f ∈ m.functions, ∀ package,
      f.nativeSymbol package = jniName (package ++ ".internal.Native") f.nativeMethod) ∧
    ∀ o t files, Target.jvm.emit m o t = .ok files →
      ∃ s file, s.For o t ∧ file ∈ files ∧ file.path = nativePath ∧ DeclaresNative s m file := by
  have hw : m.WellFormed := (ofDescription_eq_ok.1 hm).2
  refine ⟨hw.symbolsApart, fun f hf package => nativeSymbol_eq (hw.named hf) package, ?_⟩
  intro o t files hfiles
  obtain ⟨s, hs, library, rfl⟩ := emit_jvm hfiles
  exact ⟨s, _, hs, nativeFile_mem hw library, rfl, declaresNative (fun f hf => hw.named hf) library⟩

/-- A description with two modules, and functions that are named alike up to the module. -/
def twinEntries : List (Value × Value) :=
  [(.str "modules", .list
    [.map [(.str "name", .str "a"), (.str "functions", .list
      [.map [(.str "name", .str "bc")], .map [(.str "name", .str "b")]])],
    .map [(.str "name", .str "ab"), (.str "functions", .list [.map [(.str "name", .str "c")]])]])]

theorem symbols_apart_twins : ∃ m, Model.ofDescription twinEntries = .ok m ∧
    m.functions.map (·.nativeMethod) = ["aBcJNI", "aBJNI", "abCJNI"] ∧ SymbolsApart m := by
  let m : Model := ⟨[], [⟨"a", [⟨"bc", "a", [], none, false⟩, ⟨"b", "a", [], none, false⟩]⟩,
    ⟨"ab", [⟨"c", "ab", [], none, false⟩]⟩]⟩
  have hm : Model.ofDescription twinEntries = .ok m := by decide +kernel
  exact ⟨m, hm, by decide +kernel, (symbols_apart hm).1⟩

end Bindery
