/-
  NEAT FILES AT THE BOUNDARY: exports, header and glue hold no line feed but between their lines.

  Names of a description and of a table are words, options are paths and packages, and what is put
  between them is known.  So every line of these files is neat, and what is read off a file is read
  off its lines (`Setting.Harmless.readIn_neat`).
-/
import Bindery.Proofs.Boundary.ExportMeasures
import Bindery.Proofs.Source.Neat

namespace Bindery

open Naming Source

section

variable {s : Setting} {m : Model} {f : Function}

/-! ## Exports -/

theorem Model.WellFormed.unbroken_exportedSize (hm : m.WellFormed) {t : TypeDef} (ht : t ∈ m.types) :
    Unbroken (exportedSize t.size) := by
  have hlength := unbroken_of_wordy (hm.wordy_lengthConstant ht)
  unfold exportedSize TypeDef.size
  split
  · exact unbroken_append.2 ⟨by decide, hlength⟩
  · exact unbroken_integer _

theorem Model.WellFormed.unbroken_check (hm : m.WellFormed) (hf : f ∈ m.functions) {a : Argument}
    (ha : a ∈ f.arguments) : ∀ check ∈ a.check?, Unbroken check.statement := by
  have hname := unbroken_of_wordy (hm.known hf ha).name
  have hcount := unbroken_of_wordy (hm.wordy_countConstant (hm.known hf ha).type)
  have hcommas : Unbroken (commas [a.name, Naming.lengthSlot a.name, exportedSize a.type.size]) :=
    unbroken_commas (List.forall_mem_cons.2 ⟨hname, List.forall_mem_cons.2
      ⟨unbroken_append.2 ⟨hname, by decide⟩,
        List.forall_mem_singleton.2 (hm.unbroken_exportedSize (hm.known hf ha).type)⟩⟩)
  have hvariants : Unbroken (commas [a.name, fromSafeLayer (Naming.countConstant a.type.name)]) :=
    unbroken_commas (List.forall_mem_cons.2 ⟨hname, List.forall_mem_singleton.2
      (unbroken_append.2 ⟨by decide, hcount⟩)⟩)
  intro check hcheck
  unfold Argument.check? at hcheck
  split at hcheck
  · cases hcheck
    simp +decide only [SlotCheck.statement, inBraces, inParens, unbroken_append, hname, hcommas,
      and_self]
  · cases hcheck
    simp +decide only [SlotCheck.statement, inBraces, inParens, unbroken_append, hname, hcommas,
      and_self]
  · cases hcheck
    simp +decide only [SlotCheck.statement, inParens, unbroken_append, hname, hvariants, and_self]
  · cases hcheck

theorem Model.WellFormed.unbroken_exportCall (hm : m.WellFormed) (hf : f ∈ m.functions) :
    Unbroken f.exported.call := by
  have hcallee := unbroken_of_wordy (hm.named hf).wordy_safeSymbol
  have hpassed : Unbroken (commas (f.exported.passed.map (·.expression))) := by
    refine unbroken_commas (List.forall_mem_map.2 (List.forall_mem_map.2 fun a ha => ?_))
    have hname := unbroken_of_wordy (hm.known hf (List.mem_filter.1 ha).1).name
    unfold Argument.pass
    split <;> simp +decide only [Pass.expression, unbroken_append, hname, and_self]
  show Unbroken (fromSafeLayer f.safeSymbol ++ inParens _ ++ ".map_err(ffi_return_code)?")
  simp +decide only [fromSafeLayer, inParens, unbroken_append, hcallee, hpassed, and_self]

theorem Model.WellFormed.unbroken_statements (hm : m.WellFormed) (hf : f ∈ m.functions) :
    ∀ text ∈ f.exported.statements, Unbroken text := by
  have hcall := hm.unbroken_exportCall hf
  unfold Export.statements
  refine List.forall_mem_append.2 ⟨List.forall_mem_append.2 ⟨List.forall_mem_map.2 ?_, ?_⟩, by decide⟩
  · intro check hcheck
    obtain ⟨a, ha, hcheck⟩ := List.mem_filterMap.1 hcheck
    exact hm.unbroken_check hf (mem_readFirst.1 ha) check hcheck
  · split
    · rename_i store _
      refine List.forall_mem_cons.2 ⟨?_, List.forall_mem_singleton.2 ?_⟩
      · simp +decide only [unbroken_append, hcall, and_self]
      · cases store <;> decide
    · refine List.forall_mem_singleton.2 ?_
      simp +decide only [unbroken_append, hcall, and_self]

/-- An exported function is neat. -/
theorem Model.WellFormed.allNeat_exported (hm : m.WellFormed) (hf : f ∈ m.functions) :
    AllNeat f.exported.lines := by
  have hsymbol := unbroken_of_wordy (hm.named hf).wordy_coreSymbol
  have hslots : OneLined (f.exported.slots.map fun x => line (x.1 ++ ": " ++ x.2.rust ++ ",")) := by
    refine .map (List.forall_mem_map.2 fun slot hslot => ?_)
    have hname := hm.unbroken_slot hf hslot
    have hrust : Unbroken slot.kind.rust := by
      cases slot.kind with
      | value w => exact unbroken_width w
      | _ => decide
    simp +decide only [unbroken_append, hname, hrust, and_self]
  unfold Export.lines
  refine .append (.append (.cons (by decide) (.cons ?_ (.indent hslots))) (.cons (by decide)
    (.indent (.append (.cons (by decide) (.indent (.map ?_))) (by decide))))) (by decide)
  · refine neat_line ?_ (.append _ (by decide) (by decide))
    show Unbroken ("pub extern \"C\" fn " ++ f.coreSymbol ++ "(")
    simp +decide only [unbroken_append, hsymbol, and_self]
  · exact hm.unbroken_statements hf

theorem Setting.Harmless.allNeat_exportLines (hs : s.Harmless) (hm : m.WellFormed) {module : Module}
    (h : module ∈ m.modules) : AllNeat (exportLines s module) := by
  have hffi := unbroken_of_isPath hs.options.ffiPath
  have huse : Neat (line ("use " ++ s.options.ffiPath ++ "::simpleapi;")) := by
    refine neat_line ?_ (.append _ (by decide) (by decide))
    simp +decide only [unbroken_append, hffi, and_self]
  unfold exportLines
  refine .append (.cons (by decide) (.cons huse (by decide))) (.flatMap fun f hf => ?_)
  exact hm.allNeat_exported (Model.mem_functions.2 ⟨_, h, hf⟩)

/-! ## The header -/

theorem solid_integer (n : Int) : Solid (Decimal.integer n) := by
  intro c hc
  have hdigit := Reader.isDigit_getLast_integer n c hc
  refine Reader.isBlank_of_isIdentifierChar ?_
  rw [isIdentifierChar, Char.isAlphanum, hdigit, Bool.or_true, Bool.true_or]

theorem neat_define {d : String × Int} (h : Wordy d.1.toList) : Neat (define d) := by
  have hname := unbroken_of_wordy h
  have hnumber : (Decimal.integer d.2).toList ≠ [] := fun hnil =>
    Reader.toList_integer_ne d.2 (String.toList_eq_nil_iff.1 hnil)
  refine neat_line ?_ (.append _ (solid_integer d.2) hnumber)
  simp +decide only [unbroken_append, hname, unbroken_integer, and_self]

theorem Model.WellFormed.neat_prototype (hm : m.WellFormed) (hf : f ∈ m.functions) :
    Neat (line f.prototype.text) :=
  neat_line (hm.unbroken_prototype hf) (.append _ (by decide) (by decide))

theorem Setting.Harmless.allNeat_headerLines (hs : s.Harmless) (hm : m.WellFormed) :
    AllNeat (headerLines s m) := by
  have hguard : Unbroken (Naming.upper s.options.libraryName ++ "_H") :=
    unbroken_of_wordy (wordy_guard hs)
  have hends : ∀ head : String, Unbroken head →
      Neat (line (head ++ (Naming.upper s.options.libraryName ++ "_H"))) := by
    intro head hhead
    refine neat_line (unbroken_append.2 ⟨hhead, hguard⟩) ?_
    rw [← String.append_assoc]
    exact .append _ (by decide) (by decide)
  have hmodule : ∀ module ∈ m.modules, AllNeat (line ("/* " ++ module.name ++ " */") ::
      module.functions.map (fun f => line f.prototype.text) ++ [gap]) := by
    intro module hmodule
    have hname := unbroken_of_wordy (wordy_of_isModuleName (hm.isModuleName hmodule))
    refine .append (.cons (neat_line ?_ (.append _ (by decide) (by decide)))
      (List.forall_mem_map.2 fun f hf => ?_)) (by decide)
    · simp +decide only [unbroken_append, hname, and_self]
    · exact hm.neat_prototype (Model.mem_functions.2 ⟨_, hmodule, hf⟩)
  have hclose : AllNeat (Source.lines ["#ifdef __cplusplus", closing, "#endif", ""]) := by decide
  have hgap : AllNeat (if ((headerLengths m).map define).isEmpty then [] else [gap]) := by
    split <;> decide
  unfold headerLines
  refine .append (.append (.append (.append (.append
    (.cons (hends _ (by decide)) (.cons (hends _ (by decide)) (by decide)))
    (List.forall_mem_map.2 fun d hd => ?_)) (.cons (by decide) (List.forall_mem_map.2 fun d hd => ?_)))
    hgap) (.flatMap hmodule))
    (.append hclose (.cons (hends _ (by decide)) .nil))
  · exact neat_define (hs.wordy_code hd).1
  · exact neat_define (hm.wordy_length hd).1

/-! ## The glue -/

theorem Setting.Harmless.unbroken_glueStep (hs : s.Harmless) (hm : m.WellFormed)
    (hf : f ∈ m.functions) {a : Argument} (ha : a ∈ f.arguments) :
    ∀ step ∈ a.glueStep?, Unbroken (step.statement s) := by
  have hname := unbroken_of_wordy (hm.known hf ha).name
  have hrefused := hs.unbroken_refused
  intro step hstep
  unfold Argument.glueStep? at hstep
  split at hstep
  · cases hstep
    simp +decide only [GlueStep.statement, bufferLocal, unbroken_append, hname, and_self]
  · cases hstep
    simp +decide only [GlueStep.statement, bufferLocal, unbroken_append, hname, and_self]
  · rename_i w _
    have hrust := unbroken_width w
    split at hstep
    · cases hstep
      simp +decide only [GlueStep.statement, unbroken_append, hname, hrust, hrefused, and_self]
    · nomatch hstep

theorem Model.WellFormed.unbroken_glueArg (hm : m.WellFormed) (hf : f ∈ m.functions) {a : Argument}
    (ha : a ∈ f.arguments) : ∀ x ∈ a.glueArgs, Unbroken x.expression := by
  have hname := unbroken_of_wordy (hm.known hf ha).name
  unfold Argument.glueArgs
  split
  · simp +decide [GlueArg.expression, bufferLocal, unbroken_append, hname]
  · simp +decide [GlueArg.expression, bufferLocal, unbroken_append, hname]
  · rename_i w _
    have hrust := unbroken_width w
    split <;> simp +decide [GlueArg.expression, unbroken_append, hname, hrust]

theorem unbroken_writeBack {name : String} (h : Unbroken name) : Unbroken (writeBack name) := by
  unfold writeBack bufferLocal
  simp +decide only [unbroken_append, h, and_self]

theorem Setting.Harmless.oneLined_glueBody (hs : s.Harmless) (hm : m.WellFormed)
    (hf : f ∈ m.functions) (package : String) : OneLined ((f.glue package).body s) := by
  have hcallee := unbroken_of_wordy (hm.named hf).wordy_coreSymbol
  have hok := hs.unbroken_ok
  have hwritten : ∀ name ∈ (f.glue package).written, Unbroken (writeBack name) := by
    intro name hwritten
    obtain ⟨a, ha, hname⟩ := List.mem_map.1 hwritten
    have hword := unbroken_of_wordy (hm.known hf (List.mem_filter.1 ha).1).name
    exact hname ▸ unbroken_writeBack hword
  unfold Glue.body
  refine .append (.append (.append (.map ?_) (.cons ?_ (.indent (.map ?_)))) (.cons (by decide) ?_))
    (by decide)
  · refine List.forall_mem_map.2 fun step hstep => ?_
    obtain ⟨a, ha, hstep⟩ := List.mem_filterMap.1 hstep
    exact hs.unbroken_glueStep hm hf ha step hstep
  · show Unbroken ("let code = " ++ f.coreSymbol ++ "(")
    simp +decide only [unbroken_append, hcallee, and_self]
  · intro x hx
    obtain ⟨a, ha, hx⟩ := List.mem_flatMap.1 hx
    exact unbroken_append.2 ⟨hm.unbroken_glueArg hf ha x hx, by decide⟩
  · split
    · exact .nil
    · refine .block ?_ (.map (List.forall_mem_map.2 hwritten))
      simp +decide only [unbroken_append, hok, and_self]

/-- A glue function is neat. -/
theorem Setting.Harmless.allNeat_glue (hs : s.Harmless) (hm : m.WellFormed) (hf : f ∈ m.functions) :
    AllNeat ((f.glue s.options.javaPackage).lines s) := by
  have hsymbol := unbroken_of_wordy ((hm.named hf).wordy_nativeSymbol hs.options.javaPackage)
  have hparameters : OneLined ((f.glue s.options.javaPackage).parameters.map fun p =>
      line (p.1 ++ ": " ++ p.2.jni ++ ",")) := by
    refine .map (List.forall_mem_map.2 fun a ha => ?_)
    have hname := unbroken_of_wordy (hm.known hf ha).name
    have hjni : Unbroken a.passing.jni := by
      cases a.passing with
      | inValue w => cases w <;> decide
      | _ => decide
    simp +decide only [unbroken_append, hname, hjni, and_self]
  unfold Glue.lines
  refine .append (.append (.cons (by decide) (.cons ?_ (.indent (.append (by decide) hparameters))))
    (.cons (by decide) (.indent (.append (.cons (by decide) (.indent ?_)) (by decide))))) (by decide)
  · refine neat_line ?_ (.append _ (by decide) (by decide))
    show Unbroken ("pub extern \"system\" fn " ++ f.nativeSymbol s.options.javaPackage ++ "(")
    simp +decide only [unbroken_append, hsymbol, and_self]
  · exact hs.oneLined_glueBody hm hf _

theorem Setting.Harmless.allNeat_glueHelpers (hs : s.Harmless) : AllNeat (glueHelpers s) := by
  have hrefused := hs.unbroken_refused
  have hbroken := hs.unbroken_broken
  have hnull : OneLined (block "if array.is_null()"
      (Source.lines ["return Err(" ++ s.refused ++ ");"])) := by
    refine .block (by decide) (.cons ?_ .nil)
    show Unbroken ("return Err(" ++ s.refused ++ ");")
    simp +decide only [unbroken_append, hrefused, and_self]
  have hread : Unbroken ("env.convert_byte_array(array).map_err(|_| " ++ s.refused ++ ")") := by
    simp +decide only [unbroken_append, hrefused, and_self]
  have hlength : Unbroken (".map_err(|_| " ++ s.refused ++ ")?;") := by
    simp +decide only [unbroken_append, hrefused, and_self]
  have hwrite : Unbroken (".map_err(|_| " ++ s.broken ++ ")") := by
    simp +decide only [unbroken_append, hbroken, and_self]
  unfold glueHelpers
  refine .append (.append (.append (.append (.block (by decide) (.append hnull (.cons hread .nil)))
    (.cons (by decide) (.block (by decide) (.append (.append hnull (.cons (by decide)
      (.indent (.cons (by decide) (.cons hlength .nil))))) (by decide)))))
    (.cons (by decide) (.block (by decide) (.append (by decide) (.indent (.cons hwrite .nil))))))
    (.cons (by decide) (.block (by decide) (by decide)))) (by decide)

theorem Setting.Harmless.allNeat_glueLines (hs : s.Harmless) (hm : m.WellFormed) :
    AllNeat (glueLines s m) := by
  have hffi := unbroken_of_isPath hs.options.ffiPath
  have huse : Neat (line ("use " ++ s.options.ffiPath ++ "::ffiapi::*;")) := by
    refine neat_line ?_ (.append _ (by decide) (by decide))
    simp +decide only [unbroken_append, hffi, and_self]
  have hnarrow : AllNeat (if m.valueWidths.any (·.isNarrow) then
      Source.lines ["use std::convert::TryFrom;", ""] else []) := by
    split <;> decide
  have htypes : Neat (line ("use jni::sys::" ++ opening ++ commas (glueTypes m) ++ closing ++ ";")) := by
    unfold glueTypes
    split <;> decide
  unfold glueLines
  exact .append (.append (.append (.append (by decide) hnarrow) (.cons (by decide) (.cons htypes
    (.cons (by decide) (.cons (by decide) (.cons huse (by decide)))))))
    hs.allNeat_glueHelpers) (.flatMap fun f hf => hs.allNeat_glue hm hf)

end

end Bindery
