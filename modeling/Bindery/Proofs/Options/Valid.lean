/-
  VALID OPTIONS: what the checks on options come to.

  Options are built in one place, and what that place asks of them is `Options.Valid`.  Whichever
  way options are come by, from a description or with overrides, they are valid.
-/
import Bindery.Options
import Bindery.Proofs.Outcome

namespace Bindery

open Naming

/-- Options whose texts have the form that each of them must have. -/
structure Options.Valid (o : Options) : Prop where
  libraryName : isIdentifier o.libraryName = true
  javaPackage : isPackageName o.javaPackage = true
  ffiPath : isPath o.ffiPath = true
  apiPath : isPath o.apiPath = true
  errorType : isPath o.errorType = true

theorem valid_standard : Options.standard.Valid := by
  constructor <;> decide +kernel

/-- A header may hold any text. -/
theorem Options.Valid.withHeader {o : Options} (h : o.Valid) (header : Header) :
    { o with header }.Valid :=
  ⟨h.libraryName, h.javaPackage, h.ffiPath, h.apiPath, h.errorType⟩

namespace OptionDraft

theorem formed_eq_ok {form : String → Bool} {fault : String → ConfigFault} {v : Value}
    {s : String} : formed form fault v = .ok s ↔ v = .str s ∧ form s = true := by
  cases v with
  | str t =>
    unfold formed
    by_cases hf : form t = true
    · simp only [hf, if_true, Except.ok.injEq, Value.str.injEq]
      exact ⟨fun h => ⟨h, h ▸ hf⟩, fun h => h.1⟩
    · simp only [hf, if_false, reduceCtorEq, Value.str.injEq, false_iff, not_and]
      rintro rfl
      exact hf
  | _ => exact ⟨fun h => (nomatch h), fun h => (nomatch h.1)⟩

/-- What comes out of the checks is valid. -/
theorem valid_of_check {d : OptionDraft} {o : Options} (h : d.check = .ok o) : o.Valid := by
  unfold check at h
  simp only [bind_eq_ok, formed_eq_ok] at h
  obtain ⟨lib, ⟨_, hlib⟩, pkg, ⟨_, hpkg⟩, ffi, ⟨_, hffi⟩, api, ⟨_, hapi⟩, err, ⟨_, herr⟩, ho⟩ := h
  cases ho
  exact ⟨hlib, hpkg, hffi, hapi, herr⟩

/-- The checks leave alone what has no form. -/
theorem free_of_check {d : OptionDraft} {o : Options} (h : d.check = .ok o) :
    o.header = d.header ∧ o.jniLibrary = d.jniLibrary := by
  unfold check at h
  simp only [bind_eq_ok] at h
  obtain ⟨_, _, _, _, _, _, _, _, _, _, h⟩ := h
  cases h
  exact ⟨rfl, rfl⟩

end OptionDraft

namespace Options

/-- Options of a description are a draft: the header that its settings name, and their other texts. -/
theorem exists_draft_of_ofValue {v : Value} {o : Options} (h : ofValue v = .ok o) :
    ∃ es header d, entriesOf v = .ok es ∧
      (match Value.lookup? OptionDraft.headerKey es with
        | some lines => headerOf lines
        | none => .ok (.lines [])) = .ok header ∧
      setTexts { standard.draft with header } es = .ok d ∧ d.check = .ok o := by
  unfold ofValue at h
  obtain ⟨es, hes, h⟩ := bind_eq_ok.1 h
  obtain ⟨_, _, h⟩ := bind_eq_ok.1 h
  cases hlines : Value.lookup? OptionDraft.headerKey es with
  | some lines =>
    rw [hlines] at h
    obtain ⟨header, hheader, h⟩ := bind_eq_ok.1 h
    obtain ⟨d, hd, hcheck⟩ := bind_eq_ok.1 h
    exact ⟨es, header, d, hes, by rw [hlines]; exact hheader, hd, hcheck⟩
  | none =>
    rw [hlines] at h
    obtain ⟨header, hheader, h⟩ := bind_eq_ok.1 h
    obtain ⟨d, hd, hcheck⟩ := bind_eq_ok.1 h
    exact ⟨es, header, d, hes, by rw [hlines]; exact hheader, hd, hcheck⟩

/-- So are options with overrides. -/
theorem check_of_merged {o o' : Options} {overrides : List (String × Value)}
    (h : o.merged overrides = .ok o') :
    ((present overrides).foldl (fun d e => override d e.1 e.2) o.draft).check = .ok o' := by
  unfold merged at h
  by_cases hown : overrides.any (·.1 == ownName) = true
  · rw [if_pos hown] at h
    nomatch h
  rw [if_neg hown] at h
  dsimp only at h
  by_cases hkeys : ((present overrides).any fun e => !OptionDraft.keys.contains e.1) = true
  · rw [if_pos hkeys] at h
    nomatch h
  · rw [if_neg hkeys] at h
    exact h

theorem valid_of_merged {o o' : Options} {overrides : List (String × Value)}
    (h : o.merged overrides = .ok o') : o'.Valid :=
  OptionDraft.valid_of_check (check_of_merged h)

end Options

end Bindery
