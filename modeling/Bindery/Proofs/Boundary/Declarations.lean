/-
  WHAT THE FILES OF THE BOUNDARY DECLARE.

  Exports, prototypes and glue functions have heads of their own.  Of each kind the lines of its
  file hold exactly one for every function, in the order of the model, and no other line of the
  file looks like one: outside of blocks it starts with another character.
-/
import Bindery.Layer.Glue
import Bindery.Layer.Header
import Bindery.Proofs.Naming.Symbols
import Bindery.Proofs.Source.Declared

namespace Bindery

open Source

/-! ## Heads of declarations -/

/-- The head of an exported function. -/
def exportHead : String := "pub extern \"C\" fn "

/-- The head of a prototype. -/
def prototypeHead : String := "int32_t "

/-- The head of a glue function. -/
def glueHead : String := "pub extern \"system\" fn "

theorem declared_exported {f : Function} (h : f.Named) :
    declared exportHead f.exported.lines = [f.coreSymbol] := by
  have hsymbol : '(' ∉ f.coreSymbol.toList := h.wordy_coreSymbol.notMem (by decide)
  have hline : declaredBy? exportHead (line ("pub extern \"C\" fn " ++ f.coreSymbol ++ "(")) =
      some f.coreSymbol := by
    refine declaredBy?_line [] ?_ hsymbol
    rw [String.toList_append, String.toList_append, List.append_assoc]
    rfl
  exact declared_function 'p' rfl (quiet_line '#' rfl (by decide)) hline
    (quiet_line ')' rfl (by decide)) (by decide)

theorem declared_prototype {f : Function} (h : f.Named) :
    declaredBy? prototypeHead (line f.prototype.text) = some f.coreSymbol := by
  have hsymbol : '(' ∉ f.coreSymbol.toList := h.wordy_coreSymbol.notMem (by decide)
  obtain ⟨rest, hrest⟩ : ∃ rest, f.prototype.text.toList =
      prototypeHead.toList ++ (f.coreSymbol.toList ++ '(' :: rest) := by
    unfold Prototype.text inParens
    simp only [String.toList_append, List.append_assoc]
    exact ⟨_, rfl⟩
  exact declaredBy?_line rest hrest hsymbol

theorem declared_glue {f : Function} (h : f.Named) {s : Setting}
    (hp : Naming.isPackageName s.options.javaPackage = true) :
    declared glueHead ((f.glue s.options.javaPackage).lines s) =
      [f.nativeSymbol s.options.javaPackage] := by
  have hsymbol : '(' ∉ (f.nativeSymbol s.options.javaPackage).toList :=
    (h.wordy_nativeSymbol hp).notMem (by decide)
  have hline : declaredBy? glueHead
      (line ("pub extern \"system\" fn " ++ f.nativeSymbol s.options.javaPackage ++ "(")) =
        some (f.nativeSymbol s.options.javaPackage) := by
    refine declaredBy?_line [] ?_ hsymbol
    rw [String.toList_append, String.toList_append, List.append_assoc]
    rfl
  exact declared_function 'p' rfl (quiet_line '#' rfl (by decide)) hline
    (quiet_line ')' rfl (by decide)) (by decide)

/-! ## What the files declare -/

theorem declared_exportLines {s : Setting} {module : Module}
    (h : ∀ f ∈ module.functions, f.Named) :
    declared exportHead (exportLines s module) = module.functions.map (·.coreSymbol) := by
  have htop : AllQuiet 'p'
      (Source.lines ["use super::*;", "use " ++ s.options.ffiPath ++ "::simpleapi;", ""]) := by
    refine .cons (quiet_line 'u' rfl (by decide)) (.cons (quiet_line 'u' ?_ (by decide)) ?_)
    · rw [String.toList_append, String.toList_append, List.append_assoc]
      rfl
    · exact .cons quiet_gap .nil
  unfold exportLines
  rw [declared_append, declared_eq_nil 'p' rfl htop, List.nil_append]
  exact declared_flatMap_single fun f hf => declared_exported (h f hf)

theorem quiet_define {c : Char} (hc : c ≠ '#') (d : String × Int) : Quiet c (define d) := by
  refine quiet_line '#' ?_ hc.symm
  rw [String.toList_append, String.toList_append, String.toList_append, List.append_assoc,
    List.append_assoc]
  rfl

theorem declared_moduleHeader {module : Module} (h : ∀ f ∈ module.functions, f.Named) :
    declared prototypeHead (line ("/* " ++ module.name ++ " */") ::
        module.functions.map (fun f => line f.prototype.text) ++ [gap]) =
      module.functions.map (·.coreSymbol) := by
  have hcomment : Quiet 'i' (line ("/* " ++ module.name ++ " */")) := by
    refine quiet_line '/' ?_ (by decide)
    rw [String.toList_append, String.toList_append, List.append_assoc]
    rfl
  have hprototypes : declared prototypeHead
      (module.functions.map fun f => line f.prototype.text) =
        module.functions.map (·.coreSymbol) := by
    rw [List.map_eq_flatMap]
    refine declared_flatMap_single fun f hf => ?_
    rw [declared_cons, declared_prototype (h f hf)]
    rfl
  rw [declared_append, declared_cons, declaredBy?_eq_none rfl hcomment, hprototypes,
    declared_eq_nil 'i' rfl (.cons quiet_gap .nil), List.append_nil]
  rfl

theorem declared_headerLines {s : Setting} {m : Model} (h : ∀ f ∈ m.functions, f.Named) :
    declared prototypeHead (headerLines s m) = m.functions.map (·.coreSymbol) := by
  have htop : AllQuiet 'i' (Source.lines ["#ifndef " ++ (Naming.upper s.options.libraryName ++ "_H"),
      "#define " ++ (Naming.upper s.options.libraryName ++ "_H"), "", "#include <stdint.h>", "",
      "#ifdef __cplusplus", "extern \"C\" " ++ opening, "#endif", ""]) := by
    refine quiet_lines ?_
    simp [String.toList_append, opening]
  have hcodes : AllQuiet 'i' ((headerCodes s).map define) :=
    List.forall_mem_map.2 fun d _ => quiet_define (by decide) d
  have hlengths : AllQuiet 'i' ((headerLengths m).map define) :=
    List.forall_mem_map.2 fun d _ => quiet_define (by decide) d
  have hgap : AllQuiet 'i'
      (if ((headerLengths m).map define).isEmpty then [] else [gap]) := by
    split
    · exact .nil
    · exact .cons quiet_gap .nil
  have hfoot : AllQuiet 'i' (Source.lines ["#ifdef __cplusplus", closing, "#endif", "",
      "#endif // " ++ (Naming.upper s.options.libraryName ++ "_H")]) := by
    refine quiet_lines ?_
    simp [String.toList_append, closing]
  have hmodules : declared prototypeHead (m.modules.flatMap fun module =>
      line ("/* " ++ module.name ++ " */") ::
        module.functions.map (fun f => line f.prototype.text) ++ [gap]) =
        m.functions.map (·.coreSymbol) := by
    rw [declared_flatMap, Model.functions, List.map_flatMap]
    refine List.flatMap_congr fun module hmod => declared_moduleHeader fun f hf => ?_
    exact h f (Model.mem_functions.2 ⟨module, hmod, hf⟩)
  have hbefore := ((htop.append hcodes).append (.cons quiet_gap hlengths)).append hgap
  unfold headerLines
  dsimp only
  rw [declared_append, declared_append, declared_eq_nil 'i' rfl hbefore,
    declared_eq_nil 'i' rfl hfoot, hmodules, List.nil_append, List.append_nil]

theorem quiet_glueHelpers {c : Char} (hfn : 'f' ≠ c) (hclose : c ≠ '\x7d') (s : Setting) :
    AllQuiet c (glueHelpers s) := by
  unfold glueHelpers
  refine .append (.append (.append (.append ?_ ?_) ?_) ?_) (.cons quiet_gap .nil)
  · exact quiet_block 'f' rfl hfn hclose
  · exact .cons quiet_gap (quiet_block 'f' rfl hfn hclose)
  · exact .cons quiet_gap (quiet_block 'f' rfl hfn hclose)
  · exact .cons quiet_gap (quiet_block 'f' rfl hfn hclose)

theorem declared_glueLines {s : Setting} {m : Model} (h : ∀ f ∈ m.functions, f.Named)
    (hp : Naming.isPackageName s.options.javaPackage = true) :
    declared glueHead (glueLines s m) =
      m.functions.map (·.nativeSymbol s.options.javaPackage) := by
  have htop : AllQuiet 'p' (Source.lines ["#![allow(non_snake_case)]", ""]) :=
    quiet_lines (by decide)
  have hnarrow : AllQuiet 'p' (if m.valueWidths.any (·.isNarrow) then
      Source.lines ["use std::convert::TryFrom;", ""] else []) := by
    split
    · exact quiet_lines (by decide)
    · exact .nil
  have huses : AllQuiet 'p' (Source.lines ["use jni::objects::JClass;",
      "use jni::sys::" ++ opening ++ commas (glueTypes m) ++ closing ++ ";",
      "use jni::JNIEnv;", "", "use " ++ s.options.ffiPath ++ "::ffiapi::*;", ""]) := by
    refine quiet_lines ?_
    simp [String.toList_append]
  have hbefore := ((htop.append hnarrow).append huses).append
    (quiet_glueHelpers (by decide) (by decide) s)
  unfold glueLines
  rw [declared_append, declared_eq_nil 'p' rfl hbefore, List.nil_append]
  exact declared_flatMap_single fun f hf => declared_glue (h f hf) hp

end Bindery
