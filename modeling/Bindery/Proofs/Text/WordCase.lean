/-
  WORD CASE, on ASCII names.

  Cutting a name into words only adds underscores (`dropBars_splitRuns`, `dropBars_splitHumps`),
  and on ASCII letters both mappings of case go letter by letter.  So the letters of a name, their
  case apart, can be read off its constants: types whose constants are named alike
  (`stem s = stem t`) have files that are named alike (`lower_eq_of_stem_eq`).  A check of file
  names leaves nothing for a check of constants to find.
-/
import Mathlib
import Bindery.Naming.Spelling
import Bindery.Naming.Symbol

namespace Bindery.Naming

/-! ## ASCII -/

/-- `Plain s` — letters and digits of ASCII, and nothing else. -/
def Plain (s : List Char) : Prop := ∀ c ∈ s, c.isAlphanum = true

theorem toNat_lt_of_isAlphanum {c : Char} (h : c.isAlphanum = true) : c.toNat < 0x80 := by
  simp only [Char.isAlphanum, Char.isAlpha, Char.isUpper, Char.isLower, Char.isDigit,
    Bool.or_eq_true, Bool.and_eq_true, decide_eq_true_eq, ge_iff_le, UInt32.le_iff_toNat_le] at h
  show c.val.toNat < 0x80
  rcases h with (⟨_, h⟩ | ⟨_, h⟩) | ⟨_, h⟩ <;> exact Nat.lt_of_le_of_lt h (by decide)

theorem Plain.ne_bar {s : List Char} (h : Plain s) : ∀ c ∈ s, c ≠ '_' := by
  rintro c hc rfl
  exact absurd (h _ hc) (by decide)

theorem plain_of_spelled {first rest : Char → Bool} {name : String}
    (hf : ∀ c, first c = true → c.isAlphanum = true)
    (hr : ∀ c, rest c = true → c.isAlphanum = true) (h : spelled first rest name = true) :
    Plain name.toList := by
  unfold spelled at h
  cases hn : name.toList with
  | nil => exact fun c hc => nomatch hc
  | cons c s =>
    rw [hn, spelledChars, Bool.and_eq_true, List.all_eq_true] at h
    exact List.forall_mem_cons.2 ⟨hf c h.1, fun d hd => hr d (h.2 d hd)⟩

theorem isAlphanum_of_isUpper {c : Char} (h : c.isUpper = true) : c.isAlphanum = true := by
  simp [Char.isAlphanum, Char.isAlpha, h]

theorem isAlphanum_of_isLower {c : Char} (h : c.isLower = true) : c.isAlphanum = true := by
  simp [Char.isAlphanum, Char.isAlpha, h]

theorem isLower_toLower {c : Char} (h : c.isUpper = true) : c.toLower.isLower = true := by
  rw [Char.isLower_toLower_eq_isAlpha, Char.isAlpha, h, Bool.true_or]

theorem isAlphanum_toLower {c : Char} (h : c.isAlphanum = true) : c.toLower.isAlphanum = true := by
  by_cases hu : c.isUpper = true
  · exact isAlphanum_of_isLower (isLower_toLower hu)
  · rw [Char.toLower_eq_of_not_isUpper hu]
    exact h

theorem plain_of_isTypeName {name : String} (h : isTypeName name = true) : Plain name.toList :=
  plain_of_spelled (fun _ => isAlphanum_of_isUpper) (fun _ h => h) h

theorem exists_upper_of_isTypeName {name : String} (h : isTypeName name = true) :
    ∃ c s, name.toList = c :: s ∧ c.isUpper = true := by
  unfold isTypeName spelled at h
  cases hn : name.toList with
  | nil =>
    rw [hn] at h
    nomatch h
  | cons c s =>
    rw [hn, spelledChars, Bool.and_eq_true] at h
    exact ⟨c, s, rfl, h.1⟩

/-! ## Cutting only adds underscores -/

/-- A text without its underscores. -/
def dropBars (s : List Char) : List Char := s.filter (· != '_')

theorem dropBars_of_plain {s : List Char} (h : Plain s) : dropBars s = s :=
  List.filter_eq_self.2 fun c hc => bne_iff_ne.2 (h.ne_bar c hc)

theorem dropBars_cons_congr {s t : List Char} (c : Char) (h : dropBars s = dropBars t) :
    dropBars (c :: s) = dropBars (c :: t) := by
  unfold dropBars at *
  rw [List.filter_cons, List.filter_cons, h]

theorem dropBars_bar (s : List Char) : dropBars ('_' :: s) = dropBars s := rfl

theorem dropBars_splitRuns (s : List Char) : dropBars (splitRuns s) = dropBars s := by
  fun_induction splitRuns s with
  | case1 a b c s h ih =>
    refine dropBars_cons_congr a ?_
    rw [dropBars_bar, ih]
  | case2 a b c s h ih => exact dropBars_cons_congr a ih
  | case3 s h => rfl

theorem dropBars_splitHumps (s : List Char) : dropBars (splitHumps s) = dropBars s := by
  fun_induction splitHumps s with
  | case1 a b s h ih =>
    refine dropBars_cons_congr a ?_
    rw [dropBars_bar, ih]
  | case2 a b s h ih => exact dropBars_cons_congr a ih
  | case3 s h => rfl

theorem mem_of_mem_dropBars {s : List Char} {c : Char} (h : c ∈ s) : c ∈ dropBars s ∨ c = '_' := by
  by_cases hc : c = '_'
  · exact Or.inr hc
  · exact Or.inl (List.mem_filter.2 ⟨h, bne_iff_ne.2 hc⟩)

/-! ## The words of a name -/

/-- The words of a name with underscores between them, in the case they have. -/
def wordsOf (name : String) : List Char := splitHumps (splitRuns name.toList)

theorem dropBars_wordsOf {name : String} (h : Plain name.toList) :
    dropBars (wordsOf name) = name.toList := by
  rw [wordsOf, dropBars_splitHumps, dropBars_splitRuns, dropBars_of_plain h]

theorem wordsOf_ascii {name : String} (h : Plain name.toList) :
    ∀ c ∈ wordsOf name, c.toNat < 0x80 := by
  intro c hc
  rcases mem_of_mem_dropBars hc with hm | rfl
  · rw [dropBars_wordsOf h] at hm
    exact toNat_lt_of_isAlphanum (h c hm)
  · decide

theorem toNat_toLower_lt {c : Char} (h : c.toNat < 0x80) : c.toLower.toNat < 0x80 := by
  by_cases hu : c.isUpper = true
  · exact toNat_lt_of_isAlphanum (isAlphanum_of_isLower (isLower_toLower hu))
  · rw [Char.toLower_eq_of_not_isUpper hu]
    exact h

theorem snakeCase_toList {name : String} (h : Plain name.toList) :
    (snakeCase name).toList = (wordsOf name).map Char.toLower := by
  rw [snakeCase, String.toList_ofList]
  exact Text.lower_of_ascii (wordsOf_ascii h)

theorem lower_toList {name : String} (h : Plain name.toList) :
    (lower name).toList = name.toList.map Char.toLower := by
  rw [lower, String.toList_ofList]
  exact Text.lower_of_ascii fun c hc => toNat_lt_of_isAlphanum (h c hc)

theorem stem_toList {name : String} (h : Plain name.toList) :
    (stem name).toList = (wordsOf name).map Char.toUpper := by
  have hascii : ∀ c ∈ (snakeCase name).toList, c.toNat < 0x80 := by
    rw [snakeCase_toList h]
    intro c hc
    obtain ⟨d, hd, rfl⟩ := List.mem_map.1 hc
    exact toNat_toLower_lt (wordsOf_ascii h d hd)
  rw [stem, constantCase, upper, String.toList_ofList, Text.upper_of_ascii hascii,
    snakeCase_toList h, List.map_map]
  exact List.map_congr_left fun c _ => Char.toUpper_toLower_eq_toUpper c

theorem toLower_eq_bar {c : Char} : c.toLower = '_' ↔ c = '_' := by
  constructor
  · intro h
    by_cases hu : c.isUpper = true
    · have hl := isLower_toLower hu
      rw [h] at hl
      exact absurd hl (by decide)
    · rwa [Char.toLower_eq_of_not_isUpper hu] at h
  · rintro rfl
    decide

theorem dropBars_map_toLower (s : List Char) :
    dropBars (s.map Char.toLower) = (dropBars s).map Char.toLower := by
  unfold dropBars
  rw [List.filter_map]
  refine congrArg _ (List.filter_congr fun c _ => ?_)
  show (c.toLower != '_') = (c != '_')
  rw [Bool.eq_iff_iff, bne_iff_ne, bne_iff_ne, Ne, toLower_eq_bar]

/-- The lower-case form of a name can be read off its stem. -/
theorem dropBars_lower_stem {name : String} (h : Plain name.toList) :
    dropBars ((stem name).toList.map Char.toLower) = (lower name).toList := by
  have hcase : (stem name).toList.map Char.toLower = (wordsOf name).map Char.toLower := by
    rw [stem_toList h, List.map_map]
    exact List.map_congr_left fun c _ => Char.toLower_toUpper_eq_toLower c
  rw [hcase, dropBars_map_toLower, dropBars_wordsOf h, lower_toList h]

/-- **Types with the same constants have the same file**, but for the case of letters. -/
theorem lower_eq_of_stem_eq {s t : String} (hs : Plain s.toList) (ht : Plain t.toList)
    (h : stem s = stem t) : lower s = lower t := by
  have hl : (lower s).toList = (lower t).toList := by
    rw [← dropBars_lower_stem hs, ← dropBars_lower_stem ht, h]
  exact String.toList_inj.1 hl

end Bindery.Naming
