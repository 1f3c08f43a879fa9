/-
  SYMBOLS ARE IDENTIFIERS: of which characters the generated names are made.

  Declared names are letters and digits, and what is put around them or in their place adds
  underscores only.  So a symbol ends where its declaration goes on: at the first character that
  no symbol has.
-/
import Bindery.Proofs.Model.Valid
import Bindery.Proofs.Text.WordCase
import Bindery.Options

namespace Bindery

open Naming

/-! ## Characters of identifiers -/

/-- `Wordy s` — letters, digits and underscores of ASCII, and nothing else. -/
def Wordy (s : List Char) : Prop := ∀ c ∈ s, isIdentifierChar c = true

instance (s : List Char) : Decidable (Wordy s) :=
  decidable_of_iff (s.all isIdentifierChar = true) List.all_eq_true

theorem Wordy.append {s t : List Char} (hs : Wordy s) (ht : Wordy t) : Wordy (s ++ t) :=
  List.forall_mem_append.2 ⟨hs, ht⟩

theorem Wordy.notMem {s : List Char} (h : Wordy s) {c : Char}
    (hc : isIdentifierChar c = false) : c ∉ s := by
  intro hm
  rw [h c hm] at hc
  nomatch hc

theorem wordy_of_plain {s : List Char} (h : Plain s) : Wordy s := by
  intro c hc
  rw [isIdentifierChar, h c hc, Bool.true_or]

theorem plain_of_isModuleName {name : String} (h : isModuleName name = true) :
    Plain name.toList := by
  refine plain_of_spelled (fun _ => isAlphanum_of_isLower) (fun c hc => ?_) h
  rcases (Bool.or_eq_true _ _).mp hc with hc | hc
  · exact isAlphanum_of_isLower hc
  · rw [Char.isAlphanum, hc, Bool.or_true]

theorem plain_of_isMemberName {name : String} (h : isMemberName name = true) :
    Plain name.toList :=
  plain_of_spelled (fun _ => isAlphanum_of_isLower) (fun _ h => h) h

/-! ## Capitals -/

theorem isAlphanum_toUpper {c : Char} (h : c.isAlphanum = true) : c.toUpper.isAlphanum = true := by
  by_cases hl : c.isLower = true
  · have hu : c.toUpper.isUpper = true := by
      rw [Char.isUpper_toUpper_eq_isAlpha, Char.isAlpha, hl, Bool.or_true]
    exact isAlphanum_of_isUpper hu
  · rw [Char.toUpper_eq_of_not_isLower hl]
    exact h

theorem capitalize_toList {name : String} {c : Char} {s : List Char} (h : name.toList = c :: s)
    (hc : c.toNat < 0x80) : (capitalize name).toList = c.toUpper :: s := by
  unfold capitalize
  rw [h]
  show (String.ofList (Text.upperChar c ++ s)).toList = _
  rw [String.toList_ofList, Text.upperChar, if_pos hc]
  rfl

theorem plain_capitalize {name : String} (h : Plain name.toList) :
    Plain (capitalize name).toList := by
  cases hn : name.toList with
  | nil =>
    have hsame : Naming.capitalize name = name := by
      unfold Naming.capitalize
      rw [hn]
    rw [hsame, hn]
    exact fun c hc => nomatch hc
  | cons c s =>
    rw [hn] at h
    have hc : c.isAlphanum = true := h c List.mem_cons_self
    rw [capitalize_toList hn (toNat_lt_of_isAlphanum hc)]
    exact List.forall_mem_cons.2
      ⟨isAlphanum_toUpper hc, fun d hd => h d (List.mem_cons_of_mem _ hd)⟩

/-! ## Words of a name -/

theorem wordy_wordsOf {name : String} (h : Plain name.toList) : Wordy (wordsOf name) := by
  intro c hc
  rcases mem_of_mem_dropBars hc with hm | rfl
  · rw [dropBars_wordsOf h] at hm
    exact wordy_of_plain h c hm
  · decide

/-- A change of case that keeps letters and digits what they are keeps identifiers. -/
theorem Wordy.map {s : List Char} (h : Wordy s) {f : Char → Char}
    (hf : ∀ c, c.isAlphanum = true → (f c).isAlphanum = true) (hbar : f '_' = '_') :
    Wordy (s.map f) := by
  refine List.forall_mem_map.2 fun c hc => ?_
  rcases (Bool.or_eq_true _ _).mp (h c hc) with hplain | hc
  · rw [isIdentifierChar, hf c hplain, Bool.true_or]
  · rw [beq_iff_eq.1 hc, hbar]
    decide

theorem wordy_stem {name : String} (h : Plain name.toList) : Wordy (stem name).toList := by
  rw [stem_toList h]
  exact (wordy_wordsOf h).map (fun _ => isAlphanum_toUpper) (by decide)

theorem wordy_snakeCase {name : String} (h : Plain name.toList) : Wordy (snakeCase name).toList := by
  rw [snakeCase_toList h]
  exact (wordy_wordsOf h).map (fun _ => isAlphanum_toLower) (by decide)

/-! ## Pieces of a text -/

namespace Text

/-- A character that no cut is made at is in one of the pieces. -/
theorem mem_flatten_splitWhere {p : Char → Bool} {s : List Char} {c : Char} (hc : c ∈ s)
    (hp : p c = false) : c ∈ (splitWhere p s).flatten := by
  induction s with
  | nil => cases hc
  | cons d s ih =>
    unfold splitWhere
    by_cases hd : p d = true
    · rw [if_pos hd, List.flatten_cons, List.nil_append]
      rcases List.mem_cons.1 hc with rfl | hc
      · rw [hp] at hd
        cases hd
      · exact ih hc
    · rw [if_neg hd]
      cases hs : splitWhere p s with
      | nil => exact absurd hs (splitWhere_ne_nil p s)
      | cons w ws =>
        rcases List.mem_cons.1 hc with rfl | hc
        · exact List.mem_cons_self
        · have hm := ih hc
          rw [hs] at hm
          exact List.mem_cons_of_mem _ hm

theorem mem_of_mem_flatten_splitWhere {p : Char → Bool} {s : List Char} {c : Char}
    (hc : c ∈ (splitWhere p s).flatten) : c ∈ s := by
  induction s with
  | nil => nomatch hc
  | cons d s ih =>
    unfold splitWhere at hc
    by_cases hd : p d = true
    · rw [if_pos hd, List.flatten_cons, List.nil_append] at hc
      exact List.mem_cons_of_mem _ (ih hc)
    · rw [if_neg hd] at hc
      cases hs : splitWhere p s with
      | nil => exact absurd hs (splitWhere_ne_nil p s)
      | cons w ws =>
        rw [hs] at hc ih
        rcases List.mem_cons.1 hc with rfl | hc
        · exact List.mem_cons_self
        · exact List.mem_cons_of_mem _ (ih hc)

end Text

/-- The characters of a package name besides its dots. -/
theorem isIdentifierChar_of_isPackageName {s : String} (h : isPackageName s = true) {c : Char}
    (hc : c ∈ s.toList) (hdot : c ≠ '.') : isIdentifierChar c = true := by
  unfold isPackageName at h
  rw [List.all_eq_true] at h
  have hm : c ∈ (Text.splitOn '.' s.toList).flatten :=
    Text.mem_flatten_splitWhere hc (beq_eq_false_iff_ne.2 hdot)
  obtain ⟨w, hw, hcw⟩ := List.mem_flatten.1 hm
  have hspelled := h w hw
  cases w with
  | nil => nomatch hcw
  | cons d t =>
    rw [spelledChars, Bool.and_eq_true, List.all_eq_true] at hspelled
    rcases List.mem_cons.1 hcw with rfl | hct
    · rw [isIdentifierChar, isAlphanum_of_isLower hspelled.1, Bool.true_or]
    · rw [isIdentifierChar, Char.isAlphanum, Char.isAlpha]
      have hrest := hspelled.2 c hct
      simp only [Bool.or_eq_true] at hrest ⊢
      tauto

/-! ## Mangled names -/

theorem Wordy.mangle {s : List Char} (h : Wordy s) : Wordy (mangle s) := by
  intro c hc
  obtain ⟨d, hd, hcd⟩ := List.mem_flatMap.1 hc
  by_cases hbar : (d == '_') = true
  · rw [if_pos hbar] at hcd
    rcases List.mem_cons.1 hcd with rfl | hcd
    · decide
    · rw [List.mem_singleton.1 hcd]
      decide
  · rw [if_neg hbar] at hcd
    rw [List.mem_singleton.1 hcd]
    exact h d hd

theorem Wordy.intercalate {sep : List Char} {ws : List (List Char)} (hsep : Wordy sep)
    (h : ∀ w ∈ ws, Wordy w) : Wordy (sep.intercalate ws) := by
  induction ws with
  | nil => exact fun c hc => nomatch hc
  | cons w ws ih =>
    obtain ⟨hw, hws⟩ := List.forall_mem_cons.1 h
    cases ws with
    | nil => simpa [List.intercalate] using hw
    | cons v ws =>
      rw [List.intercalate_cons_cons]
      exact (hw.append hsep).append (ih hws)

theorem wordy_manglePath {package : String} (h : isPackageName package = true) :
    Wordy (manglePath package.toList) := by
  refine Wordy.intercalate (by decide) fun w hw => ?_
  obtain ⟨piece, hpiece, rfl⟩ := List.mem_map.1 hw
  refine Wordy.mangle fun c hc => ?_
  have hflat : c ∈ (Text.splitOn '.' package.toList).flatten :=
    List.mem_flatten.2 ⟨piece, hpiece, hc⟩
  have hmem := Text.mem_of_mem_flatten_splitWhere hflat
  refine isIdentifierChar_of_isPackageName h hmem ?_
  rintro rfl
  unfold isPackageName at h
  rw [List.all_eq_true] at h
  have hspelled := h piece hpiece
  cases piece with
  | nil => nomatch hc
  | cons d t =>
    rw [spelledChars, Bool.and_eq_true, List.all_eq_true] at hspelled
    rcases List.mem_cons.1 hc with rfl | hct
    · exact absurd hspelled.1 (by decide)
    · exact absurd (hspelled.2 _ hct) (by decide)

/-! ## Symbols of functions -/

/-- Names that a function of a well-formed model has. -/
structure Function.Named (f : Function) : Prop where
  module : Plain f.module.toList
  name : Plain f.name.toList

theorem Model.WellFormed.function {m : Model} (h : m.WellFormed) {f : Function}
    (hf : f ∈ m.functions) : f.WellFormed m.types := by
  obtain ⟨module, hmodule, hf⟩ := Model.mem_functions.1 hf
  exact ((h.modules module hmodule).functions f hf).1

theorem Model.WellFormed.named {m : Model} (h : m.WellFormed) {f : Function}
    (hf : f ∈ m.functions) : f.Named := by
  obtain ⟨module, hmod, hf⟩ := Model.mem_functions.1 hf
  obtain ⟨hw, hmodule⟩ := (h.modules module hmod).functions f hf
  refine ⟨?_, plain_of_isMemberName hw.named.1⟩
  rw [hmodule]
  exact plain_of_isModuleName (h.spelled _ (List.mem_map.2 ⟨module, hmod, rfl⟩)).1

theorem Function.Named.wordy_coreSymbol {f : Function} (h : f.Named) :
    Wordy f.coreSymbol.toList := by
  unfold Function.coreSymbol
  simp only [String.toList_append]
  refine (((?_ : Wordy _).append (wordy_of_plain h.module)).append ?_).append
    (wordy_of_plain h.name)
  · decide
  · decide

theorem Function.Named.wordy_safeSymbol {f : Function} (h : f.Named) :
    Wordy f.safeSymbol.toList := by
  unfold Function.safeSymbol
  simp only [String.toList_append]
  exact ((wordy_of_plain h.module).append (by decide)).append (wordy_of_plain h.name)

theorem Function.Named.wordy_nativeMethod {f : Function} (h : f.Named) :
    Wordy f.nativeMethod.toList := by
  unfold Function.nativeMethod
  simp only [String.toList_append]
  exact ((wordy_of_plain h.module).append (wordy_of_plain (plain_capitalize h.name))).append
    (by decide)

theorem Function.Named.wordy_nativeSymbol {f : Function} (h : f.Named) {package : String}
    (hp : isPackageName package = true) : Wordy (f.nativeSymbol package).toList := by
  unfold Function.nativeSymbol mangled
  simp only [String.toList_append, String.toList_ofList]
  refine (((((?_ : Wordy _).append (wordy_manglePath hp)).append ?_).append ?_).append
    ?_).append h.wordy_nativeMethod.mangle
  · decide
  · decide
  · decide
  · decide

end Bindery
