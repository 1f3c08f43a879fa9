/-
  CUTTING TEXT, read backwards.

  Every text is blanks, what is left of it when they are gone, and blanks again; a text without
  blanks at its ends is left by all of this (`trim_append`).  A cut leaves pieces without the
  character that cuts, one after the other (`separated_iff`), and the words of a text stand between
  gaps (`words_eq_cons`).
-/
import Mathlib.Data.List.Forall2
import Mathlib.Data.List.TakeWhile
import Bindery.Text.Blank

namespace Bindery.Text

/-! ## Runs of characters -/

/-- `Stops p s` — the text does not go on with a character that has the property. -/
def Stops (p : Char → Bool) (s : List Char) : Prop := ∀ c ∈ s.head?, p c = false

instance (p : Char → Bool) (s : List Char) : Decidable (Stops p s) :=
  Option.decidableForallMem s.head?

section

variable {p : Char → Bool} {a s r : List Char}

theorem stops_nil : Stops p [] := fun _ h => (nomatch h)

theorem stops_cons {c : Char} : Stops p (c :: s) ↔ p c = false := by
  constructor
  · exact fun h => h c rfl
  · intro h d hd
    cases hd
    exact h

theorem stops_dropWhile : Stops p (s.dropWhile p) := by
  intro c hc
  cases hs : s.dropWhile p with
  | nil =>
    rw [hs] at hc
    nomatch hc
  | cons d t =>
    rw [hs] at hc
    cases hc
    have hnot := List.dropWhile_get_zero_not p s (by rw [hs]; exact Nat.zero_lt_succ _)
    simpa [hs] using hnot

theorem takeWhile_append_stops (ha : ∀ c ∈ a, p c = true) (hr : Stops p r) :
    (a ++ r).takeWhile p = a := by
  rw [List.takeWhile_append_of_pos ha]
  cases r with
  | nil => rw [List.takeWhile_nil, List.append_nil]
  | cons c r => rw [List.takeWhile_cons_of_neg (by rw [stops_cons.1 hr]; decide), List.append_nil]

theorem dropWhile_append_stops (ha : ∀ c ∈ a, p c = true) (hr : Stops p r) :
    (a ++ r).dropWhile p = r := by
  rw [List.dropWhile_append_of_pos ha]
  cases r with
  | nil => rfl
  | cons c r => rw [List.dropWhile_cons_of_neg (by rw [stops_cons.1 hr]; decide)]

/-- Where the first character with a property stands, a text can be cut in one way only. -/
theorem append_cons_inj_of_first {p : Char → Bool} {s s' t t' : List Char} {c c' : Char}
    (hs : ∀ d ∈ s, p d = false) (hs' : ∀ d ∈ s', p d = false) (hc : p c = true) (hc' : p c' = true)
    (h : s ++ c :: t = s' ++ c' :: t') : s = s' ∧ c = c' ∧ t = t' := by
  have hfront : ∀ {s t : List Char} {c : Char}, (∀ d ∈ s, p d = false) → p c = true →
      (s ++ c :: t).takeWhile (fun d => !p d) = s := by
    intro s t c hs hc
    rw [List.takeWhile_append_of_pos fun d hd => by rw [hs d hd]; rfl,
      List.takeWhile_cons_of_neg (by simp [hc]), List.append_nil]
  have hsame : s = s' := by
    rw [← hfront (t := t) hs hc, h, hfront hs' hc']
  subst hsame
  obtain ⟨hcc, htt⟩ := List.cons.inj (List.append_cancel_left h)
  exact ⟨rfl, hcc, htt⟩

/-- The longest run of characters with the property. -/
theorem span_iff : s.takeWhile p = a ∧ s.dropWhile p = r ↔
    (∀ c ∈ a, p c = true) ∧ Stops p r ∧ s = a ++ r := by
  constructor
  · rintro ⟨rfl, rfl⟩
    exact ⟨fun c hc => List.mem_takeWhile_imp hc, stops_dropWhile,
      (List.takeWhile_append_dropWhile).symm⟩
  · rintro ⟨ha, hr, rfl⟩
    exact ⟨takeWhile_append_stops ha hr, dropWhile_append_stops ha hr⟩

end

/-! ## Blanks -/

/-- What no blank is. -/
theorem holds_of_isBlank {q : Char → Bool}
    (h : ∀ r ∈ blankRanges, ∀ n ∈ List.range' r.1 (r.2 + 1 - r.1), q (Char.ofNat n) = false)
    {c : Char} (hc : isBlank c = true) : q c = false := by
  obtain ⟨r, hr, hin⟩ := List.any_eq_true.1 hc
  simp only [Bool.and_eq_true, decide_eq_true_eq] at hin
  have hmem : c.toNat ∈ List.range' r.1 (r.2 + 1 - r.1) := by
    rw [List.mem_range'_1]
    omega
  have hq := h r hr c.toNat hmem
  rwa [Char.ofNat_toNat] at hq

/-- `Blank s` — the text is blanks only; it may be empty. -/
def Blank (s : List Char) : Prop := ∀ c ∈ s, isBlank c = true

/-- `Solid s` — there is no blank in the text. -/
def Solid (s : List Char) : Prop := ∀ c ∈ s, isBlank c = false

section

variable {a b s t r : List Char}

theorem blank_nil : Blank [] := fun _ h => (nomatch h)

theorem Blank.append (ha : Blank a) (hb : Blank b) : Blank (a ++ b) :=
  List.forall_mem_append.2 ⟨ha, hb⟩

theorem trimLeft_append (hb : Blank b) : trimLeft (b ++ s) = trimLeft s :=
  List.dropWhile_append_of_pos hb

theorem trimLeft_of_stops (hs : Stops isBlank s) : trimLeft s = s :=
  dropWhile_append_stops (a := []) (fun _ h => (nomatch h)) hs

theorem stops_trimLeft : Stops isBlank (trimLeft s) := stops_dropWhile

theorem trimLeft_eq_iff : trimLeft s = t ↔ Stops isBlank t ∧ ∃ b, Blank b ∧ s = b ++ t := by
  constructor
  · rintro rfl
    exact ⟨stops_trimLeft, s.takeWhile isBlank, fun c hc => List.mem_takeWhile_imp hc,
      (List.takeWhile_append_dropWhile).symm⟩
  · rintro ⟨ht, b, hb, rfl⟩
    rw [trimLeft_append hb, trimLeft_of_stops ht]

theorem dropTail_append (hb : Blank b) : dropTail isBlank (s ++ b) = dropTail isBlank s := by
  induction s with
  | nil =>
    rw [List.nil_append]
    induction b with
    | nil => rfl
    | cons c b ih =>
      have hc : isBlank c = true := hb c List.mem_cons_self
      unfold dropTail
      rw [ih fun d hd => hb d (List.mem_cons_of_mem _ hd)]
      show (if isBlank c then [] else [c]) = _
      rw [hc]
      rfl
  | cons c s ih =>
    rw [List.cons_append]
    unfold dropTail
    rw [ih]

/-- Nothing is dropped up to an item without the property. -/
theorem dropTail_append_solid {α : Type} {p : α → Bool} {a : List α} (h : ∀ c ∈ a.getLast?, p c = false)
    (s : List α) : dropTail p (a ++ s) = a ++ dropTail p s := by
  induction a with
  | nil => rfl
  | cons c a ih =>
    rw [List.cons_append, dropTail]
    cases a with
    | nil =>
      have hc : p c = false := h c rfl
      rw [List.nil_append, hc]
      cases dropTail p s <;> rfl
    | cons d a =>
      rw [ih fun e he => h e he]
      rfl

theorem dropTail_concat {c : Char} (hc : isBlank c = false) :
    dropTail isBlank (s ++ [c]) = s ++ [c] := by
  have hkept := dropTail_append_solid (a := s ++ [c]) (by simpa using hc) []
  rwa [List.append_nil, dropTail, List.append_nil] at hkept

/-- What is dropped is a tail of items with the property. -/
theorem exists_dropTail {α : Type} {p : α → Bool} (s : List α) :
    ∃ b, (∀ c ∈ b, p c = true) ∧ s = dropTail p s ++ b := by
  induction s with
  | nil => exact ⟨[], fun _ h => (nomatch h), rfl⟩
  | cons c s ih =>
    obtain ⟨b, hb, hs⟩ := ih
    unfold dropTail
    cases ht : dropTail p s with
    | cons d t =>
      rw [ht] at hs
      exact ⟨b, hb, congrArg (c :: ·) hs⟩
    | nil =>
      rw [ht] at hs
      by_cases hc : p c = true
      · dsimp only
        rw [if_pos hc]
        refine ⟨c :: s, List.forall_mem_cons.2 ⟨hc, ?_⟩, rfl⟩
        rw [hs]
        exact hb
      · dsimp only
        rw [if_neg hc]
        exact ⟨b, hb, congrArg (c :: ·) hs⟩

/-- A text is what is left of it, between blanks. -/
theorem exists_trim (s : List Char) : ∃ b b', Blank b ∧ Blank b' ∧ s = b ++ trim s ++ b' := by
  obtain ⟨_, b, hb, hs⟩ := trimLeft_eq_iff.1 (rfl : trimLeft s = _)
  obtain ⟨b', hb', hs'⟩ := exists_dropTail (trimLeft s)
  refine ⟨b, b', hb, hb', ?_⟩
  rw [List.append_assoc, trim, trimRight, ← hs']
  exact hs

/-- A text that starts and ends with something else is left between blanks. -/
theorem trim_append {b' : List Char} {c : Char} (hb : Blank b) (hb' : Blank b')
    (hs : Stops isBlank (s ++ [c])) (hc : isBlank c = false) :
    trim (b ++ (s ++ [c]) ++ b') = s ++ [c] := by
  have hstart : Stops isBlank (s ++ [c] ++ b') := by
    cases s with
    | nil => exact stops_cons.2 hc
    | cons d s => exact stops_cons.2 (stops_cons.1 hs)
  rw [trim, List.append_assoc, trimLeft_append hb, trimLeft_of_stops hstart, trimRight,
    dropTail_append hb', dropTail_concat hc]

theorem trim_solid {b' : List Char} (hb : Blank b) (hb' : Blank b') (hs : Solid s) :
    trim (b ++ s ++ b') = s := by
  rcases List.eq_nil_or_concat s with rfl | ⟨front, c, rfl⟩
  · rw [List.append_nil, ← List.append_nil (b ++ b'), trim, trimLeft_append (hb.append hb')]
    rfl
  · rw [List.concat_eq_append] at hs ⊢
    refine trim_append hb hb' (fun d hd => hs d (List.mem_of_mem_head? hd)) (hs c (by simp))

theorem trim_blank (hs : Blank s) : trim s = [] := by
  rw [← List.append_nil s, trim, trimLeft_append hs]
  rfl

theorem trim_eq_nil : trim s = [] ↔ Blank s := by
  constructor
  · intro h
    obtain ⟨b, b', hb, hb', hs⟩ := exists_trim s
    rw [h, List.append_nil] at hs
    rw [hs]
    exact hb.append hb'
  · exact trim_blank

end

/-! ## Pieces between cuts -/

/-- `Separated c L s as` — the text is made of pieces with such values, and the character stands
between two of them. -/
inductive Separated {α : Type} (c : Char) (L : List Char → α → Prop) : List Char → List α → Prop
  | one {s : List Char} {a : α} (h : L s a) : Separated c L s [a]
  | cons {s t : List Char} {a : α} {as : List α} (h : L s a) (ht : Separated c L t as) :
    Separated c L (s ++ c :: t) (a :: as)

section

variable {p : Char → Bool} {c : Char} {s t : List Char}

theorem splitWhere_free (h : ∀ d ∈ s, p d = false) : splitWhere p s = [s] := by
  induction s with
  | nil => rfl
  | cons d s ih =>
    obtain ⟨hd, hs⟩ := List.forall_mem_cons.1 h
    unfold splitWhere
    rw [if_neg (by rw [hd]; decide), ih hs]

theorem splitWhere_append (h : ∀ d ∈ s, p d = false) (hc : p c = true) :
    splitWhere p (s ++ c :: t) = s :: splitWhere p t := by
  induction s with
  | nil =>
    rw [List.nil_append, splitWhere, if_pos hc]
  | cons d s ih =>
    obtain ⟨hd, hs⟩ := List.forall_mem_cons.1 h
    rw [List.cons_append, splitWhere, if_neg (by rw [hd]; decide), ih hs]

/-- A text is in one piece, or goes on behind its first cut. -/
theorem free_or_append (p : Char → Bool) (s : List Char) :
    (∀ d ∈ s, p d = false) ∨
      ∃ front c t, s = front ++ c :: t ∧ (∀ d ∈ front, p d = false) ∧ p c = true := by
  induction s with
  | nil => exact Or.inl fun _ h => (nomatch h)
  | cons d s ih =>
    cases hd : p d with
    | true => exact Or.inr ⟨[], d, s, rfl, fun _ h => (nomatch h), hd⟩
    | false =>
      rcases ih with hs | ⟨front, c, t, rfl, hfront, hc⟩
      · exact Or.inl (List.forall_mem_cons.2 ⟨hd, hs⟩)
      · exact Or.inr ⟨d :: front, c, t, rfl, List.forall_mem_cons.2 ⟨hd, hfront⟩, hc⟩

/-- A cut costs one character. -/
theorem splitWhere_append_cons (hc : p c = true) :
    splitWhere p (s ++ c :: t) = splitWhere p s ++ splitWhere p t := by
  induction s with
  | nil => exact if_pos hc
  | cons d s ih =>
    rw [List.cons_append, splitWhere, splitWhere, ih]
    split
    · rfl
    · cases hs : splitWhere p s with
      | nil => exact absurd hs (splitWhere_ne_nil p s)
      | cons w ws => rfl

/-- A text in front, without a cut, is part of the first piece. -/
theorem splitWhere_append_left {p : Char → Bool} {a : List Char} (h : ∀ c ∈ a, p c = false)
    {s w : List Char} {ws : List (List Char)} (hs : splitWhere p s = w :: ws) :
    splitWhere p (a ++ s) = (a ++ w) :: ws := by
  induction a with
  | nil => exact hs
  | cons c a ih =>
    obtain ⟨hc, ha⟩ := List.forall_mem_cons.1 h
    rw [List.cons_append, splitWhere, hc, ih ha]
    rfl

/-- A text is in one piece, or has its last piece behind its last cut. -/
theorem free_or_concat (p : Char → Bool) (s : List Char) :
    (∀ d ∈ s, p d = false) ∨
      ∃ front c t, s = front ++ c :: t ∧ p c = true ∧ (∀ d ∈ t, p d = false) := by
  induction s with
  | nil => exact Or.inl fun _ h => (nomatch h)
  | cons d s ih =>
    rcases ih with hs | ⟨front, c, t, rfl, hc, ht⟩
    · cases hd : p d with
      | true => exact Or.inr ⟨[], d, s, rfl, hd, hs⟩
      | false => exact Or.inl (List.forall_mem_cons.2 ⟨hd, hs⟩)
    · exact Or.inr ⟨d :: front, c, t, rfl, hc, ht⟩

theorem splitOn_free (h : c ∉ s) : splitOn c s = [s] :=
  splitWhere_free fun _ hd => beq_false_of_ne fun heq => h (heq ▸ hd)

theorem splitOn_append : splitOn c (s ++ c :: t) = splitOn c s ++ splitOn c t :=
  splitWhere_append_cons (beq_self_eq_true c)

/-- What is in no piece and does not cut is not in the text. -/
theorem Separated.not_mem {α : Type} {L : List Char → α → Prop} {as : List α} {d : Char}
    (h : Separated c L s as) (hc : d ≠ c) (hL : ∀ s a, L s a → d ∉ s) : d ∉ s := by
  induction h with
  | one h => exact hL _ _ h
  | cons h _ ih =>
    rw [List.mem_append, List.mem_cons]
    rintro (hmem | rfl | hmem)
    · exact hL _ _ h hmem
    · exact hc rfl
    · exact ih hmem

/-- The pieces of a text are those that it is made of. -/
theorem separated_iff {α : Type} {L : List Char → α → Prop} {as : List α}
    (hL : ∀ s a, L s a → c ∉ s) :
    Separated c L s as ↔ List.Forall₂ L (splitOn c s) as := by
  constructor
  · intro h
    induction h with
    | one h =>
      rw [splitOn_free (hL _ _ h)]
      exact .cons h .nil
    | cons h _ ih =>
      rw [splitOn_append, splitOn_free (hL _ _ h)]
      exact .cons h ih
  · intro h
    -- On the length: a cut goes to the text behind the first separator, not behind one letter.
    induction hn : s.length using Nat.strongRecOn generalizing s as with
    | ind n ih =>
      rcases free_or_append (· == c) s with hs | ⟨front, d, t, rfl, hfront, hd⟩
      · rw [splitOn, splitWhere_free hs] at h
        obtain ⟨a, as', ha, hnil, rfl⟩ := List.forall₂_cons_left_iff.1 h
        cases hnil
        exact .one ha
      · rw [splitOn, splitWhere_append hfront hd] at h
        obtain ⟨a, as', ha, hrest, rfl⟩ := List.forall₂_cons_left_iff.1 h
        obtain rfl : d = c := eq_of_beq hd
        refine .cons ha (ih t.length ?_ hrest rfl)
        rw [← hn, List.length_append, List.length_cons]
        omega

end

/-! ## Words between gaps -/

section

variable {b s t r w : List Char} {ws : List (List Char)}

theorem words_cons_blank {c : Char} (hc : isBlank c = true) : words (c :: s) = words s := by
  unfold words
  rw [splitWhere, if_pos hc]
  rfl

theorem words_append (hb : Blank b) : words (b ++ s) = words s := by
  induction b with
  | nil => rfl
  | cons c b ih =>
    obtain ⟨hc, hb⟩ := List.forall_mem_cons.1 hb
    rw [List.cons_append, words_cons_blank hc, ih hb]

theorem words_blank (hs : Blank s) : words s = [] := by
  rw [← List.append_nil s, words_append hs]
  rfl

theorem words_solid (hs : Solid s) (hne : s ≠ []) : words s = [s] := by
  unfold words
  rw [splitWhere_free hs]
  cases s with
  | nil => exact absurd rfl hne
  | cons c s => rfl

theorem words_solid_append {c : Char} (hs : Solid s) (hne : s ≠ []) (hc : isBlank c = true) :
    words (s ++ c :: t) = s :: words t := by
  unfold words
  rw [splitWhere_append hs hc]
  cases s with
  | nil => exact absurd rfl hne
  | cons c s => rfl

/-- A word and the words behind it. -/
theorem words_word (hs : Solid s) (hne : s ≠ []) (hr : ∀ c ∈ r.head?, isBlank c = true) :
    words (s ++ r) = s :: words r := by
  cases r with
  | nil =>
    rw [List.append_nil, words_solid hs hne]
    rfl
  | cons c r => rw [words_solid_append hs hne (hr c rfl), words_cons_blank (hr c rfl)]

/-- A text without words is blank. -/
theorem words_eq_nil : words s = [] ↔ Blank s := by
  constructor
  · intro h
    obtain ⟨hstop, b, hb, hs⟩ := trimLeft_eq_iff.1 (rfl : trimLeft s = _)
    cases ht : trimLeft s with
    | nil =>
      rw [hs, ht, List.append_nil]
      exact hb
    | cons c t =>
      rw [ht] at hs hstop
      have hc := stops_cons.1 hstop
      rw [hs, words_append hb] at h
      -- The first word starts with the first character that is no blank.
      rcases free_or_append isBlank (c :: t) with hfree | ⟨front, d, t', heq, hfront, hd⟩
      · rw [words_solid hfree (List.cons_ne_nil _ _)] at h
        nomatch h
      · have hne : front ≠ [] := by
          rintro rfl
          obtain rfl : c = d := (List.cons.inj heq).1
          rw [hc] at hd
          nomatch hd
        rw [heq, words_solid_append hfront hne hd] at h
        nomatch h
  · exact words_blank

/-- The first word of a text stands behind blanks, and before blanks or the end. -/
theorem words_eq_cons (h : words s = w :: ws) :
    ∃ b r, Blank b ∧ Solid w ∧ w ≠ [] ∧ s = b ++ w ++ r ∧ words r = ws ∧
      (∀ c ∈ r.head?, isBlank c = true) := by
  obtain ⟨hstop, b, hb, hs⟩ := trimLeft_eq_iff.1 (rfl : trimLeft s = _)
  rw [hs, words_append hb] at h
  rcases free_or_append isBlank (trimLeft s) with hfree | ⟨front, d, t, heq, hfront, hd⟩
  · have hne : trimLeft s ≠ [] := by
      intro hnil
      rw [hnil] at h
      nomatch h
    rw [words_solid hfree hne] at h
    obtain ⟨rfl, rfl⟩ := List.cons.inj h
    exact ⟨b, [], hb, hfree, hne, by rw [List.append_nil]; exact hs, rfl, fun _ h => (nomatch h)⟩
  · have hne : front ≠ [] := by
      rintro rfl
      rw [heq] at hstop
      rw [stops_cons.1 hstop] at hd
      nomatch hd
    rw [heq, words_solid_append hfront hne hd] at h
    obtain ⟨rfl, rfl⟩ := List.cons.inj h
    refine ⟨b, d :: t, hb, hfront, hne, by rw [hs, heq, List.append_assoc], ?_, ?_⟩
    · exact words_cons_blank hd
    · rintro c hc
      cases hc
      exact hd

end

end Bindery.Text
