/-
  WORDS OF A NAME: where they start, told in one pass.

  The two rules that cut a name into words run one after the other over the whole of it.  Together
  they say no more than this: a word starts at a capital behind a small letter or a digit, and at a
  capital behind a capital where a small letter follows (`startsWord`).  So a single pass that holds
  the previous character in hand puts the same underscores (`splitHumps_splitRuns`).

  What is lost by it is the case of letters inside a word.  `camelCase` drops just that: it keeps a
  capital where a word starts and makes every other letter small.  Two names have the same snake case
  exactly if they have it in common (`snakeCase_eq_iff`): `aBC` and `aBc` do.
-/
import Bindery.Proofs.Text.WordCase

namespace Bindery.Naming

/-! ## Where a word starts -/

/-- Whether a word starts at a character, from the one in front of it and what comes behind. -/
def startsWord (before : Option Char) (c : Char) (after : List Char) : Bool :=
  c.isUpper && before.any fun b =>
    b.isLower || b.isDigit || (b.isUpper && after.head?.any Char.isLower)

/-- A text with an underscore in front of each word but the first. -/
def marked (before : Option Char) : List Char → List Char
  | [] => []
  | c :: s =>
    if startsWord before c s then '_' :: c :: marked (some c) s else c :: marked (some c) s

section

variable {before : Option Char} {a b c : Char} {s t : List Char}

theorem isUpper_of_startsWord (h : startsWord before c s = true) : c.isUpper = true :=
  ((Bool.and_eq_true _ _).mp h).1

/-- The first rule looks at two characters and the one behind them. -/
theorem splitRuns_cons_cons (a b : Char) (s : List Char) : splitRuns (a :: b :: s) =
    if a.isUpper && b.isUpper && s.head?.any Char.isLower then a :: '_' :: splitRuns (b :: s)
    else a :: splitRuns (b :: s) := by
  cases s with
  | nil =>
    rw [List.head?_nil, Option.any_none, Bool.and_false, if_neg (by decide)]
    rfl
  | cons c s => rfl

/-- Whether the two rules part two neighbours is what `startsWord` says. -/
theorem startsWord_some (a b : Char) (s : List Char) : startsWord (some a) b s =
    (((a.isLower || a.isDigit) && b.isUpper) ||
      (a.isUpper && b.isUpper && s.head?.any Char.isLower)) := by
  unfold startsWord
  rw [Option.any_some]
  cases b.isUpper <;> cases a.isUpper <;> simp

/-- No rule puts anything in front of the first character. -/
theorem splitRuns_cons (b : Char) (s : List Char) : ∃ t, splitRuns (b :: s) = b :: t := by
  cases s with
  | nil => exact ⟨[], rfl⟩
  | cons c s =>
    rw [splitRuns_cons_cons]
    split
    · exact ⟨_, rfl⟩
    · exact ⟨_, rfl⟩

theorem splitHumps_bar (s : List Char) : splitHumps ('_' :: s) = '_' :: splitHumps s := by
  cases s with
  | nil => rfl
  | cons c s =>
    rw [splitHumps, if_neg]
    exact fun h => absurd ((Bool.and_eq_true _ _).mp h).1 (by decide)

/-- The two rules behind a first character, by induction on what follows it. -/
theorem splitHumps_splitRuns_cons (a : Char) (s : List Char) :
    splitHumps (splitRuns (a :: s)) = a :: marked (some a) s := by
  induction s generalizing a with
  | nil => rfl
  | cons b s ih =>
    obtain ⟨t, ht⟩ := splitRuns_cons b s
    have hrest : splitHumps (b :: t) = b :: marked (some b) s := by
      rw [← ht]
      exact ih b
    rw [splitRuns_cons_cons, ht, marked, startsWord_some]
    by_cases hrun : (a.isUpper && b.isUpper && s.head?.any Char.isLower) = true
    -- The underscore of the first rule keeps the second one from putting another.
    · have hapart : splitHumps (a :: '_' :: b :: t) = a :: splitHumps ('_' :: b :: t) := by
        rw [splitHumps, if_neg]
        exact fun h => absurd ((Bool.and_eq_true _ _).mp h).2 (by decide)
      rw [if_pos hrun, hapart, splitHumps_bar, hrest, hrun, Bool.or_true, if_pos rfl]
    · rw [if_neg hrun, Bool.eq_false_iff.2 hrun, Bool.or_false, splitHumps, hrest]
      split <;> rfl

/-- **The two rules are one pass.** -/
theorem splitHumps_splitRuns (s : List Char) : splitHumps (splitRuns s) = marked none s := by
  cases s with
  | nil => rfl
  | cons a s =>
    have hfirst : startsWord none a s = false := Bool.and_false _
    rw [splitHumps_splitRuns_cons, marked, hfirst]
    rfl

end

/-! ## Camel case -/

/-- A text with capitals only where words start. -/
def camel (before : Option Char) : List Char → List Char
  | [] => []
  | c :: s => (if startsWord before c s then c else c.toLower) :: camel (some c) s

/-- A name with capitals only where its words start. -/
def camelCase (name : String) : String := String.ofList (camel none name.toList)

/-- The words that a text in camel case stands for. -/
def spread (s : List Char) : List Char :=
  s.flatMap fun c => if c.isUpper then ['_', c.toLower] else [c]

section

variable {before : Option Char} {c d : Char} {s t : List Char}

/-- A capital is told by its small letter. -/
theorem toLower_injective (hc : c.isUpper = true) (hd : d.isUpper = true)
    (h : c.toLower = d.toLower) : c = d := by
  have hback : ∀ {c : Char}, c.isUpper = true → c.toLower.toUpper = c := by
    intro c hc
    rw [Char.toUpper_toLower_eq_toUpper]
    exact Char.toUpper_eq_of_not_isLower (Char.not_isLower_of_isUpper hc)
  rw [← hback hc, h, hback hd]

/-- The snake case of a text is spread out from its camel case. -/
theorem map_toLower_marked (before : Option Char) (s : List Char) :
    (marked before s).map Char.toLower = spread (camel before s) := by
  induction s generalizing before with
  | nil => rfl
  | cons c s ih =>
    unfold spread at ih ⊢
    rw [marked, camel, List.flatMap_cons]
    by_cases hstart : startsWord before c s = true
    · have hbar : '_'.toLower = '_' := by decide
      rw [if_pos hstart, if_pos hstart, if_pos (isUpper_of_startsWord hstart), List.map_cons,
        List.map_cons, ih, hbar]
      rfl
    · rw [if_neg hstart, if_neg hstart, List.map_cons, ih,
        Char.isUpper_toLower_eq_false, if_neg (by decide)]
      rfl

/-- Words are put together again in one way only. -/
theorem spread_injective (hs : '_' ∉ s) (ht : '_' ∉ t) (h : spread s = spread t) : s = t := by
  have hhead : ∀ {c : Char} {s : List Char}, spread (c :: s) =
      (if c.isUpper then ['_', c.toLower] else [c]) ++ spread s := List.flatMap_cons
  have hne : ∀ {c : Char} {s : List Char}, spread (c :: s) ≠ [] := by
    intro c s hnil
    rw [hhead] at hnil
    split at hnil <;> nomatch hnil
  induction s generalizing t with
  | nil =>
    cases t with
    | nil => rfl
    | cons d t => exact absurd h.symm hne
  | cons c s ih =>
    cases t with
    | nil => exact absurd h hne
    | cons d t =>
      rw [List.mem_cons, not_or] at hs ht
      rw [hhead, hhead] at h
      -- An underscore comes from a capital, for no character is one itself.
      by_cases hc : c.isUpper = true <;> by_cases hd : d.isUpper = true
      · rw [if_pos hc, if_pos hd] at h
        obtain ⟨hletter, hrest⟩ := List.cons.inj (List.cons.inj h).2
        rw [toLower_injective hc hd hletter, ih hs.2 ht.2 hrest]
      · rw [if_pos hc, if_neg hd] at h
        exact absurd (List.cons.inj h).1 ht.1
      · rw [if_neg hc, if_pos hd] at h
        exact absurd (List.cons.inj h).1.symm hs.1
      · rw [if_neg hc, if_neg hd] at h
        obtain ⟨hletter, hrest⟩ := List.cons.inj h
        rw [hletter, ih hs.2 ht.2 hrest]

/-- A small letter or a digit is no capital. -/
theorem not_isUpper_of_hump (h : (c.isLower || c.isDigit) = true) : ¬ c.isUpper = true := by
  rcases (Bool.or_eq_true _ _).mp h with hl | hd
  · exact Char.not_isUpper_of_isLower hl
  · simp only [Char.isDigit, Char.isUpper, Bool.and_eq_true, decide_eq_true_eq,
      UInt32.le_iff_toNat_le, ge_iff_le] at hd ⊢
    rintro ⟨hupper, -⟩
    have hdigit : c.val.toNat ≤ 57 := hd.2
    have hletter : 65 ≤ c.val.toNat := hupper
    omega

theorem notMem_camel (before : Option Char) (h : '_' ∉ s) : '_' ∉ camel before s := by
  induction s generalizing before with
  | nil => exact List.not_mem_nil
  | cons c s ih =>
    rw [List.mem_cons, not_or] at h
    rw [camel, List.mem_cons, not_or]
    refine ⟨?_, ih (some c) h.2⟩
    split
    · exact h.1
    · exact fun hbar => h.1 (toLower_eq_bar.1 hbar.symm).symm

end

/-! ## The spellings of a name -/

section

variable {s t : String}

theorem snakeCase_eq_spread (h : Plain s.toList) :
    (snakeCase s).toList = spread (camelCase s).toList := by
  rw [snakeCase_toList h, wordsOf, splitHumps_splitRuns, map_toLower_marked, camelCase,
    String.toList_ofList]

/-- **Two names have the same snake case** exactly if they have the same camel case. -/
theorem snakeCase_eq_iff (hs : Plain s.toList) (ht : Plain t.toList) :
    snakeCase s = snakeCase t ↔ camelCase s = camelCase t := by
  have hbar : ∀ {s : String}, Plain s.toList → '_' ∉ (camelCase s).toList := by
    intro s h
    rw [camelCase, String.toList_ofList]
    exact notMem_camel none fun hmem => h.ne_bar _ hmem rfl
  rw [← String.toList_inj, snakeCase_eq_spread hs, snakeCase_eq_spread ht]
  constructor
  · intro h
    exact String.toList_inj.1 (spread_injective (hbar hs) (hbar ht) h)
  · intro h
    rw [h]

end

end Bindery.Naming
