/-
  THE TWO PASSES THAT TAKE COMMENTS OUT, across a cut of the text.

  Each pass carries one bit over a cut: whether a comment is open there.  For line comments the bit
  is told by the text before the cut alone (`LineOpen`); a block comment counts as open only if its
  end comes, so before the cut there must be none that is left without one.  Where neither is open
  and the two characters at the cut make no sign of a comment, the text before the cut and the text
  behind it are stripped apart (`stripComments_append`).

  A text that a pass changes loses slashes by it (`count_dropLineComments_lt`,
  `count_dropBlockComments_lt`), so a text keeps its slashes exactly if there is no comment in it
  (`stripComments_eq_iff`).
-/
import Bindery.Proofs.Idl.Acceptance

namespace Bindery.Idl

open Text

variable {s t p q : List Char} {c d : Char}

/-! ## Two characters in a row -/

/-- What ends a text ends it also behind another. -/
theorem getLast?_append_of_eq (h : s.getLast? = some c) : (p ++ s).getLast? = some c := by
  rw [List.getLast?_append, h]
  rfl

theorem eq_of_prefix_pair (h : [c, d] <+: s) : ∃ u, s = c :: d :: u := by
  obtain ⟨u, hu⟩ := h
  exact ⟨u, hu.symm⟩

theorem prefix_pair_iff {e : Char} : [c, d] <+: e :: s ↔ e = c ∧ ∃ u, s = d :: u := by
  constructor
  · rintro ⟨u, hu⟩
    obtain ⟨he, hs⟩ := List.cons.inj hu
    exact ⟨he.symm, u, hs.symm⟩
  · rintro ⟨rfl, u, rfl⟩
    exact ⟨u, rfl⟩

theorem not_prefix_pair {e : Char} (h : ∀ u, e = c → s = d :: u → False) : ¬[c, d] <+: e :: s :=
  fun hfront => (prefix_pair_iff.1 hfront).elim fun he ⟨u, hs⟩ => h u he hs

/-- Two characters at the front of a text are its first two, or a cut parts them. -/
theorem prefix_pair_append {e : Char} (h : [c, d] <+: e :: (s ++ t)) :
    [c, d] <+: e :: s ∨ s = [] ∧ e = c ∧ t.head? = some d := by
  obtain ⟨r, hr⟩ := h
  obtain ⟨rfl, hrest⟩ := List.cons.inj hr
  cases s with
  | nil =>
    refine Or.inr ⟨rfl, rfl, ?_⟩
    rw [← List.nil_append t, ← hrest]
    rfl
  | cons e s =>
    obtain ⟨rfl, _⟩ := List.cons.inj hrest
    exact Or.inl ⟨s, rfl⟩

theorem infix_pair_cons {e : Char} (hc : e ≠ c) : [c, d] <:+: e :: s ↔ [c, d] <:+: s := by
  rw [List.infix_cons_iff]
  exact or_iff_right (not_prefix_pair fun _ he _ => hc he)

/-- Two characters in a row are on one side of a third. -/
theorem infix_pair_append {e : Char} (hc : e ≠ c) (hd : e ≠ d) :
    [c, d] <:+: s ++ e :: t ↔ [c, d] <:+: s ∨ [c, d] <:+: t := by
  constructor
  · intro h
    induction s with
    | nil => exact Or.inr ((infix_pair_cons hc).1 h)
    | cons f s ih =>
      rcases List.infix_cons_iff.1 h with hfront | h
      · rcases prefix_pair_append hfront with hfront | ⟨_, _, he⟩
        · exact Or.inl hfront.isInfix
        · exact absurd (Option.some.inj he) hd
      · exact (ih h).imp_left fun h => h.trans (List.suffix_cons f s).isInfix
  · rintro (h | h)
    · exact h.trans (List.prefix_append s _).isInfix
    · exact h.trans ((List.suffix_cons e t).trans (List.suffix_append s _)).isInfix

/-! ## Line comments -/

/-- `LineOpen s` — a line comment is open at the end of the text: on its last line stand two
slashes. -/
def LineOpen (s : List Char) : Prop := ∃ p q, s = p ++ '/' :: '/' :: q ∧ '\n' ∉ q

theorem dropLineComments_true_cons (c : Char) (s : List Char) : dropLineComments true (c :: s) =
    if c == '\n' then c :: dropLineComments false s else dropLineComments true s := by
  rw [dropLineComments.eq_def]
  split
  · rename_i heq
    nomatch heq
  · rename_i heq
    obtain ⟨rfl, rfl⟩ := List.cons.inj heq
    rfl
  · rename_i heq
    obtain ⟨rfl, rfl⟩ := List.cons.inj heq
    rfl

theorem dropLineComments_slashes (s : List Char) :
    dropLineComments false ('/' :: '/' :: s) = dropLineComments true ('/' :: s) := by
  rw [dropLineComments_true_cons]
  rfl

theorem dropLineComments_false_cons (h : ¬['/', '/'] <+: c :: s) :
    dropLineComments false (c :: s) = c :: dropLineComments false s := by
  rw [dropLineComments.eq_def]
  split
  · rename_i heq
    nomatch heq
  · rename_i heq
    exact absurd ⟨_, heq.symm⟩ h
  · rename_i heq
    obtain ⟨rfl, rfl⟩ := List.cons.inj heq
    rw [if_neg Bool.false_ne_true, ite_self]

/-- An open line comment ends with its line. -/
theorem dropLineComments_true (s : List Char) :
    dropLineComments true s = dropLineComments false (s.dropWhile (· != '\n')) := by
  induction s with
  | nil => rfl
  | cons c s ih =>
    rw [dropLineComments_true_cons]
    by_cases hc : c = '\n'
    · subst hc
      rw [List.dropWhile_cons_of_neg (by decide), dropLineComments_false_cons]
      · rfl
      · rintro ⟨_, h⟩
        exact absurd (List.cons.inj h).1 (by decide)
    · have hne : (c == '\n') = false := beq_false_of_ne hc
      rw [List.dropWhile_cons_of_pos (by rw [bne, hne]; rfl), hne, ih]
      rfl

theorem not_lineOpen_nil : ¬LineOpen [] := by
  rintro ⟨u, q, h, _⟩
  simp at h

/-- An open comment is on the last line. -/
theorem lineOpen_behind : LineOpen (p ++ '\n' :: s) ↔ LineOpen s := by
  constructor
  · rintro ⟨u, q, h, hq⟩
    rcases List.append_eq_append_iff.1 h with ⟨v, rfl, hv⟩ | ⟨v, rfl, hv⟩
    · cases v with
      | nil => exact absurd (List.cons.inj hv).1 (by decide)
      | cons e v =>
        obtain ⟨_, rfl⟩ := List.cons.inj hv
        exact ⟨v, q, rfl, hq⟩
    · have hmem : '\n' ∈ '/' :: '/' :: q := by
        rw [hv]
        exact List.mem_append_right _ List.mem_cons_self
      simp [hq] at hmem
  · rintro ⟨u, q, rfl, hq⟩
    exact ⟨p ++ '\n' :: u, q, by rw [List.append_assoc, List.cons_append], hq⟩

theorem lineOpen_cons (h : ¬['/', '/'] <+: c :: s) : LineOpen (c :: s) ↔ LineOpen s := by
  constructor
  · rintro ⟨u, q, hs, hq⟩
    cases u with
    | nil => exact absurd ⟨q, hs.symm⟩ h
    | cons e u => exact ⟨u, q, (List.cons.inj hs).2, hq⟩
  · rintro ⟨u, q, rfl, hq⟩
    exact ⟨c :: u, q, rfl, hq⟩

theorem dropLineComments_true_append (h : '\n' ∉ s) :
    dropLineComments true (s ++ t) = dropLineComments true t := by
  rw [dropLineComments_true, dropLineComments_true t, List.dropWhile_append_of_pos]
  intro c hc
  exact bne_iff_ne.2 fun heq => h (heq ▸ hc)

/-- The pass carries over a cut whether a line comment is open there.  If none is, the cut may not
part two slashes. -/
theorem dropLineComments_append {o : Bool} (ho : o = true ↔ LineOpen s)
    (hcut : o = false → s.getLast? = some '/' → t.head? ≠ some '/') :
    dropLineComments false (s ++ t) = dropLineComments false s ++ dropLineComments o t := by
  induction hn : s.length using Nat.strongRecOn generalizing s with
  | ind n ih =>
    subst hn
    cases s with
    | nil =>
      rw [Bool.eq_false_iff.2 fun h => not_lineOpen_nil (ho.1 h)]
      rfl
    | cons c s =>
      by_cases hslashes : ['/', '/'] <+: c :: s
      · obtain ⟨u, hu⟩ := hslashes
        rw [← hu] at ho hcut ih ⊢
        show dropLineComments true (u ++ t) = dropLineComments true u ++ _
        by_cases hline : '\n' ∈ u
        · -- The comment ends with its line; what follows is shorter.
          obtain ⟨v, w, rfl, hv⟩ := List.eq_append_cons_of_mem hline
          have hopen : LineOpen (['/', '/'] ++ (v ++ '\n' :: w)) ↔ LineOpen w := by
            rw [← List.append_assoc]
            exact lineOpen_behind
          have hrest := ih w.length (by simp; omega) (ho.trans hopen)
            (fun h hlast => hcut h (getLast?_append_of_eq (getLast?_append_of_eq
              (getLast?_append_of_eq (p := ['\n']) hlast)))) rfl
          rw [List.append_assoc, dropLineComments_true_append hv, dropLineComments_true_append hv,
            List.cons_append, dropLineComments_true_cons, dropLineComments_true_cons]
          exact congrArg ('\n' :: ·) hrest
        · rw [ho.2 ⟨[], u, rfl, hline⟩, dropLineComments_true_append hline,
            ← List.append_nil u, dropLineComments_true_append hline]
          rfl
      · have hrest := ih s.length (Nat.lt_succ_self _) (ho.trans (lineOpen_cons hslashes))
          (fun h hlast => hcut h (getLast?_append_of_eq (p := [c]) hlast)) rfl
        by_cases hnew : ['/', '/'] <+: c :: (s ++ t)
        · rcases prefix_pair_append hnew with h | ⟨rfl, rfl, ht⟩
          · exact absurd h hslashes
          · cases o with
            | false => exact absurd ht (hcut rfl rfl)
            | true => exact absurd ((lineOpen_cons hslashes).1 (ho.1 rfl)) not_lineOpen_nil
        · rw [List.cons_append, dropLineComments_false_cons hslashes,
            dropLineComments_false_cons hnew, hrest, List.cons_append]

/-- Where a line comment was open, there is nothing left but from the next line feed on. -/
theorem dropLineComments_true_cases (s : List Char) :
    dropLineComments true s = [] ∨ ∃ t, dropLineComments true s = '\n' :: t := by
  induction s with
  | nil => exact Or.inl rfl
  | cons c s ih =>
    rw [dropLineComments_true_cons]
    split
    · rename_i hc
      rw [eq_of_beq hc]
      exact Or.inr ⟨_, rfl⟩
    · exact ih

/-- The pass brings nothing but line feeds to the front. -/
theorem head?_dropLineComments (hd : d ≠ '\n') (h : (dropLineComments false s).head? = some d) :
    s.head? = some d := by
  cases s with
  | nil => exact h
  | cons c s =>
    by_cases hslashes : ['/', '/'] <+: c :: s
    · obtain ⟨u, hu⟩ := eq_of_prefix_pair hslashes
      rw [hu, dropLineComments_slashes] at h
      rcases dropLineComments_true_cases ('/' :: u) with hu | ⟨t, hu⟩ <;> rw [hu] at h
      · nomatch h
      · exact absurd (Option.some.inj h).symm hd
    · rw [dropLineComments_false_cons hslashes] at h
      exact h

/-- What stands first behind a kept character stood behind it before. -/
theorem prefix_dropLineComments {e : Char} (hd : d ≠ '\n')
    (h : [c, d] <+: e :: dropLineComments false s) : [c, d] <+: e :: s := by
  obtain ⟨r, hr⟩ := h
  obtain ⟨rfl, hrest⟩ := List.cons.inj hr
  have hhead : s.head? = some d := head?_dropLineComments hd (by rw [← hrest]; rfl)
  obtain ⟨t, rfl⟩ := List.head?_eq_some_iff.1 hhead
  exact ⟨t, rfl⟩

/-- Two characters that the pass leaves in a row were in a row before. -/
theorem infix_of_infix_dropLineComments {i : Bool} (hd : d ≠ '\n')
    (h : [c, d] <:+: dropLineComments i s) : [c, d] <:+: s := by
  induction s generalizing i with
  | nil => cases i <;> exact h
  | cons e s ih =>
    have htail : [c, d] <:+: s → [c, d] <:+: e :: s := fun h => h.trans (List.suffix_cons e s).isInfix
    have hkept : [c, d] <:+: e :: dropLineComments false s → [c, d] <:+: e :: s := fun h =>
      (List.infix_cons_iff.1 h).elim (fun h => (prefix_dropLineComments hd h).isInfix) fun h => htail (ih h)
    cases i with
    | true =>
      rw [dropLineComments_true_cons] at h
      split at h
      · exact hkept h
      · exact htail (ih h)
    | false =>
      by_cases hslashes : ['/', '/'] <+: e :: s
      · obtain ⟨u, hu⟩ := eq_of_prefix_pair hslashes
        obtain ⟨rfl, rfl⟩ := List.cons.inj hu
        rw [dropLineComments_slashes] at h
        exact htail (ih h)
      · rw [dropLineComments_false_cons hslashes] at h
        exact hkept h

/-- The pass leaves no line comment. -/
theorem no_slashes_dropLineComments (i : Bool) (s : List Char) :
    ¬['/', '/'] <:+: dropLineComments i s := by
  induction s generalizing i with
  | nil => cases i <;> decide
  | cons e s ih =>
    intro h
    cases i with
    | true =>
      rw [dropLineComments_true_cons] at h
      split at h
      · rename_i he
        rw [eq_of_beq he] at h
        rcases List.infix_cons_iff.1 h with ⟨r, hr⟩ | h
        · exact absurd (List.cons.inj hr).1 (by decide)
        · exact ih _ h
      · exact ih _ h
    | false =>
      by_cases hslashes : ['/', '/'] <+: e :: s
      · obtain ⟨u, hu⟩ := eq_of_prefix_pair hslashes
        obtain ⟨rfl, rfl⟩ := List.cons.inj hu
        rw [dropLineComments_slashes] at h
        exact ih _ h
      · rw [dropLineComments_false_cons hslashes] at h
        rcases List.infix_cons_iff.1 h with h | h
        · exact hslashes (prefix_dropLineComments (by decide) h)
        · exact ih _ h

/-! ## Block comments -/

theorem closesComment_iff : closesComment s = true ↔ ['*', '/'] <:+: s := by
  fun_induction closesComment s with
  | case1 => simp
  | case2 s => exact ⟨fun _ => ⟨[], s, rfl⟩, fun _ => rfl⟩
  | case3 c s hno ih =>
    rw [ih, List.infix_cons_iff]
    exact ⟨Or.inr, fun h => h.resolve_left (not_prefix_pair hno)⟩

theorem dropBlockComments_true_cons (h : ¬['*', '/'] <+: c :: s) : dropBlockComments true (c :: s) =
    [c].filter (· == '\n') ++ dropBlockComments true s := by
  rw [dropBlockComments.eq_def]
  split
  · rename_i heq
    nomatch heq
  · rename_i heq
    exact absurd ⟨_, heq.symm⟩ h
  · rename_i heq
    obtain ⟨rfl, rfl⟩ := List.cons.inj heq
    cases hc : c == '\n' <;> simp [hc]
  · rename_i hinside _
    nomatch hinside
  · rename_i hinside _
    nomatch hinside

theorem dropBlockComments_false_cons (h : ¬['/', '*'] <+: c :: s) :
    dropBlockComments false (c :: s) = c :: dropBlockComments false s := by
  rw [dropBlockComments.eq_def]
  split
  · rename_i heq
    nomatch heq
  · rename_i hinside _
    nomatch hinside
  · rename_i hinside _
    nomatch hinside
  · rename_i heq
    exact absurd ⟨_, heq.symm⟩ h
  · rename_i heq
    obtain ⟨rfl, rfl⟩ := List.cons.inj heq
    rfl

/-- Of an open block comment the line feeds are left. -/
theorem dropBlockComments_true_append (h : ¬['*', '/'] <:+: s) :
    dropBlockComments true (s ++ '*' :: '/' :: t) =
      s.filter (· == '\n') ++ dropBlockComments false t := by
  induction s with
  | nil => rfl
  | cons c s ih =>
    have hs := ih fun hin => h (hin.trans (List.suffix_cons c s).isInfix)
    rw [List.cons_append, dropBlockComments_true_cons, hs, ← List.append_assoc, ← List.filter_append]
    · rfl
    · intro hfront
      rcases prefix_pair_append hfront with hfront | ⟨_, _, ht⟩
      · exact h hfront.isInfix
      · exact absurd (Option.some.inj ht) (by decide)

/-- A block comment leaves its line feeds. -/
theorem dropBlockComments_comment (h : ¬['*', '/'] <:+: s) :
    dropBlockComments false ('/' :: '*' :: (s ++ '*' :: '/' :: t)) =
      s.filter (· == '\n') ++ dropBlockComments false t := by
  rw [dropBlockComments, if_pos (closesComment_iff.2 ⟨s, t, by simp⟩), dropBlockComments_true_append h]

/-- What nothing closes is no comment. -/
theorem dropBlockComments_unclosed (h : ¬['*', '/'] <:+: s) :
    dropBlockComments false ('/' :: '*' :: s) = '/' :: '*' :: s := by
  rw [dropBlockComments, if_neg fun hclose => h (closesComment_iff.1 hclose)]

/-- The pass carries over a cut in a block comment that is closed behind it. -/
theorem closesComment_tail (h : ¬['*', '/'] <+: c :: s) (hclose : closesComment (c :: s) = true) :
    closesComment s = true ∧ ¬['*', '/'] <+: c :: (s ++ t) := by
  have hs : ['*', '/'] <:+: s :=
    (List.infix_cons_iff.1 (closesComment_iff.1 hclose)).resolve_left h
  refine ⟨closesComment_iff.2 hs, fun hfront => ?_⟩
  rcases prefix_pair_append hfront with hfront | ⟨rfl, _, _⟩
  · exact h hfront
  · simp at hs

/-- Where nothing is left that opens a block comment, none is open at the end; the cut may not part
the sign that opens one. -/
theorem dropBlockComments_append {i : Bool} (hi : i = true → closesComment s = true)
    (hopen : ¬['/', '*'] <:+: dropBlockComments i s)
    (hcut : s.getLast? = some '/' → t.head? ≠ some '*') :
    dropBlockComments i (s ++ t) = dropBlockComments i s ++ dropBlockComments false t := by
  fun_induction dropBlockComments i s with
  | case1 i =>
    cases i with
    | true => exact absurd (hi rfl) (by decide)
    | false => rfl
  | case2 s ih =>
    exact ih (fun h => absurd h Bool.false_ne_true) hopen
      fun hlast => hcut (getLast?_append_of_eq (p := ['*', '/']) hlast)
  | case3 c s hno hline ih =>
    obtain ⟨hs, hfront⟩ := closesComment_tail (t := t) (not_prefix_pair hno) (hi rfl)
    have hrest := ih (fun _ => hs) (fun h => hopen (h.trans (List.suffix_cons c _).isInfix))
      fun hlast => hcut (getLast?_append_of_eq (p := [c]) hlast)
    rw [List.cons_append, dropBlockComments_true_cons hfront, hrest,
      List.filter_cons_of_pos (p := (· == '\n')) hline]
    rfl
  | case4 c s hno hline ih =>
    obtain ⟨hs, hfront⟩ := closesComment_tail (t := t) (not_prefix_pair hno) (hi rfl)
    have hrest := ih (fun _ => hs) hopen fun hlast => hcut (getLast?_append_of_eq (p := [c]) hlast)
    rw [List.cons_append, dropBlockComments_true_cons hfront, hrest,
      List.filter_cons_of_neg (p := (· == '\n')) hline]
    rfl
  | case5 s hclose ih =>
    -- A comment that ends before the cut still ends there with more text behind.
    have hrest := ih (fun _ => hclose) hopen
      fun hlast => hcut (getLast?_append_of_eq (p := ['/', '*']) hlast)
    have hclose' : closesComment (s ++ t) = true :=
      closesComment_iff.2 ((closesComment_iff.1 hclose).trans (List.prefix_append s t).isInfix)
    rw [List.cons_append, List.cons_append, dropBlockComments, if_pos hclose', hrest]
  | case6 s hclose => exact absurd ⟨[], s, rfl⟩ hopen
  | case7 c s hno ih =>
    -- Only at the cut can two characters open what neither side opens.
    have hrest := ih (fun h => absurd h Bool.false_ne_true)
      (fun h => hopen (h.trans (List.suffix_cons c _).isInfix))
      fun hlast => hcut (getLast?_append_of_eq (p := [c]) hlast)
    rw [List.cons_append, dropBlockComments_false_cons, hrest, List.cons_append]
    intro hfront
    rcases prefix_pair_append hfront with hfront | ⟨rfl, rfl, ht⟩
    · exact not_prefix_pair hno hfront
    · exact hcut rfl ht

/-- **Texts are stripped apart** where no comment is open between them and the cut makes none. -/
theorem stripComments_append (hline : ¬LineOpen s) (hblock : ¬['/', '*'] <:+: stripComments s)
    (hcut : (dropLineComments false s).getLast? = some '/' → t.head? ≠ some '*')
    (hslash : s.getLast? = some '/' → t.head? ≠ some '/') :
    stripComments (s ++ t) = stripComments s ++ stripComments t := by
  have hpass : dropLineComments false (s ++ t) = dropLineComments false s ++ dropLineComments false t :=
    dropLineComments_append (iff_of_false Bool.false_ne_true hline) fun _ => hslash
  unfold stripComments
  rw [hpass]
  exact dropBlockComments_append (fun h => absurd h Bool.false_ne_true) hblock fun hlast hhead =>
    hcut hlast (head?_dropLineComments (by decide) hhead)

/-! ## Texts that are left as they are -/

/-- `HoldsBlock s` — a block comment opens in the text and is closed. -/
def HoldsBlock (s : List Char) : Prop := ∃ q, '/' :: '*' :: q <:+ s ∧ ['*', '/'] <:+: q

/-- `HoldsComment s` — something in the text is taken for a comment. -/
def HoldsComment (s : List Char) : Prop := ['/', '/'] <:+: s ∨ HoldsBlock s

theorem not_holdsBlock_nil : ¬HoldsBlock [] := by
  rintro ⟨q, hs, _⟩
  simp at hs

theorem holdsBlock_cons : HoldsBlock (c :: s) ↔
    (∃ u, c = '/' ∧ s = '*' :: u ∧ ['*', '/'] <:+: u) ∨ HoldsBlock s := by
  constructor
  · rintro ⟨q, hs, hq⟩
    rcases List.suffix_cons_iff.1 hs with heq | hs
    · obtain ⟨rfl, rfl⟩ := List.cons.inj heq
      exact Or.inl ⟨q, rfl, rfl, hq⟩
    · exact Or.inr ⟨q, hs, hq⟩
  · rintro (⟨q, rfl, rfl, hq⟩ | ⟨q, hs, hq⟩)
    · exact ⟨q, List.suffix_rfl, hq⟩
    · exact ⟨q, hs.trans (List.suffix_cons c s), hq⟩

/-- A block comment is on one side of a character, or it opens before it and is closed behind. -/
theorem holdsBlock_append {e : Char} (hslash : e ≠ '/') (hstar : e ≠ '*') :
    HoldsBlock (s ++ e :: t) ↔
      HoldsBlock s ∨ HoldsBlock t ∨ ['/', '*'] <:+: s ∧ ['*', '/'] <:+: t := by
  induction s with
  | nil =>
    rw [List.nil_append, holdsBlock_cons]
    simp [hslash, not_holdsBlock_nil]
  | cons f s ih =>
    have hfront : (∃ u, f = '/' ∧ s ++ e :: t = '*' :: u ∧ ['*', '/'] <:+: u) ↔
        (∃ u, f = '/' ∧ s = '*' :: u ∧ ['*', '/'] <:+: u) ∨
          ['/', '*'] <+: f :: s ∧ ['*', '/'] <:+: t := by
      cases s with
      | nil => simp [hstar]
      | cons g s => simp [infix_pair_append hstar hslash]; tauto
    rw [List.cons_append, holdsBlock_cons, holdsBlock_cons, ih, hfront, List.infix_cons_iff, or_and_right]
    exact Iff.of_eq (by ac_rfl)

/-- A comment is on one side of a character, or it is a block comment over it. -/
theorem holdsComment_append {e : Char} (hslash : e ≠ '/') (hstar : e ≠ '*') :
    HoldsComment (s ++ e :: t) ↔
      HoldsComment s ∨ HoldsComment t ∨ ['/', '*'] <:+: s ∧ ['*', '/'] <:+: t := by
  unfold HoldsComment
  rw [infix_pair_append hslash hslash, holdsBlock_append hslash hstar]
  tauto

theorem not_holdsComment_of_no_slash (h : '/' ∉ s) : ¬HoldsComment s := by
  rintro (hin | ⟨q, hq, _⟩)
  · exact h (hin.subset List.mem_cons_self)
  · exact h (hq.subset List.mem_cons_self)

theorem count_dropLineComments_le (i : Bool) (s : List Char) :
    (dropLineComments i s).count '/' ≤ s.count '/' := by
  fun_induction dropLineComments i s <;> simp_all [List.count_cons] <;> omega

theorem count_dropBlockComments_le (i : Bool) (s : List Char) :
    (dropBlockComments i s).count '/' ≤ s.count '/' := by
  fun_induction dropBlockComments i s <;> simp_all [List.count_cons] <;> omega

/-- A line comment takes its slashes with it. -/
theorem count_dropLineComments_lt (h : ['/', '/'] <:+: s) :
    (dropLineComments false s).count '/' < s.count '/' := by
  induction s with
  | nil => simp at h
  | cons c s ih =>
    by_cases hslashes : ['/', '/'] <+: c :: s
    · obtain ⟨u, hu⟩ := eq_of_prefix_pair hslashes
      have hle := count_dropLineComments_le true ('/' :: u)
      rw [hu, dropLineComments_slashes, List.count_cons_self]
      exact Nat.lt_succ_of_le hle
    · have hlt := ih ((List.infix_cons_iff.1 h).resolve_left hslashes)
      rw [dropLineComments_false_cons hslashes, List.count_cons, List.count_cons]
      exact Nat.add_lt_add_right hlt _

/-- Whatever is closed in a text that opens a block comment closes that one. -/
theorem HoldsBlock.closes (h : HoldsBlock ('/' :: '*' :: s)) : ['*', '/'] <:+: s := by
  obtain ⟨q, hs, hq⟩ := h
  have hlength : q.length ≤ s.length := Nat.le_of_add_le_add_right (b := 2) hs.length_le
  have hall : q <:+ '/' :: '*' :: s := (List.suffix_append ['/', '*'] q).trans hs
  exact hq.trans (List.suffix_of_suffix_length_le hall (List.suffix_append ['/', '*'] s) hlength).isInfix

/-- A block comment that is closed takes its slashes with it. -/
theorem count_dropBlockComments_lt (h : HoldsBlock s) :
    (dropBlockComments false s).count '/' < s.count '/' := by
  induction s with
  | nil => exact absurd h not_holdsBlock_nil
  | cons c s ih =>
    by_cases hfront : ['/', '*'] <+: c :: s
    · obtain ⟨u, hu⟩ := eq_of_prefix_pair hfront
      have hle := count_dropBlockComments_le true u
      rw [hu] at h ⊢
      rw [dropBlockComments, if_pos (closesComment_iff.2 h.closes), List.count_cons_self]
      exact Nat.lt_succ_of_le (hle.trans (List.count_le_count_cons ..))
    · have hlt := ih ((holdsBlock_cons.1 h).resolve_left fun ⟨u, hc, hs, _⟩ =>
        hfront ⟨u, by rw [hc, hs]; rfl⟩)
      rw [dropBlockComments_false_cons hfront, List.count_cons, List.count_cons]
      exact Nat.add_lt_add_right hlt _

/-- A text loses a slash with every comment. -/
theorem count_stripComments_lt (h : HoldsComment s) : (stripComments s).count '/' < s.count '/' := by
  have hle := count_dropBlockComments_le false (dropLineComments false s)
  by_cases hline : ['/', '/'] <:+: s
  · exact hle.trans_lt (count_dropLineComments_lt hline)
  · have hlt := count_dropBlockComments_lt (h.resolve_left hline)
    rw [stripComments, dropLineComments_eq hline]
    exact hlt

theorem dropBlockComments_of_not_holdsBlock (h : ¬HoldsBlock s) : dropBlockComments false s = s := by
  induction s with
  | nil => rfl
  | cons c s ih =>
    by_cases hfront : ['/', '*'] <+: c :: s
    · obtain ⟨u, hu⟩ := eq_of_prefix_pair hfront
      rw [hu] at h ⊢
      exact dropBlockComments_unclosed fun hclose => h ⟨u, List.suffix_rfl, hclose⟩
    · rw [dropBlockComments_false_cons hfront, ih fun hs => h (holdsBlock_cons.2 (Or.inr hs))]

/-- A text is left as it is exactly if there is no comment in it. -/
theorem stripComments_eq_iff : stripComments s = s ↔ ¬HoldsComment s := by
  constructor
  · intro heq h
    have hlt := count_stripComments_lt h
    rw [heq] at hlt
    exact Nat.lt_irrefl _ hlt
  · intro h
    rw [stripComments, dropLineComments_eq fun hline => h (Or.inl hline),
      dropBlockComments_of_not_holdsBlock fun hblock => h (Or.inr hblock)]

end Bindery.Idl
