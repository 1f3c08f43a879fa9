/-
  WHAT READERS TAKE.

  A reader is told by what it takes off the front of a text: each lemma says exactly with which value
  it succeeds, what it took, and how the text has to go on.  A reader of a run takes all of it, so
  the text behind must not go on with the run (`Stops`).
-/
import Mathlib.Data.List.Induction
import Bindery.Idl.Reading
import Bindery.Proofs.Idl.Grammar

namespace Bindery.Idl

open Text

variable {α β : Type} {s r : List Char}

namespace Reader

/-! ## Combinations -/

theorem run_bind_iff {p : Reader α} {f : α → Reader β} {b : β} :
    (p >>= f).run s = some (b, r) ↔ ∃ a t, p.run s = some (a, t) ∧ (f a).run t = some (b, r) := by
  rw [run_bind, Option.bind_eq_some_iff]
  constructor
  · rintro ⟨⟨a, t⟩, h⟩
    exact ⟨a, t, h⟩
  · rintro ⟨a, t, h⟩
    exact ⟨(a, t), h⟩

theorem run_pure_iff {a b : α} : (pure a : Reader α).run s = some (b, r) ↔ a = b ∧ s = r := by
  rw [run_pure, Option.some.injEq, Prod.mk.injEq]

theorem run_map_iff {p : Reader α} {g : α → β} {b : β} :
    (g <$> p).run s = some (b, r) ↔ ∃ a, p.run s = some (a, r) ∧ g a = b := by
  show (p >>= fun a => pure (g a)).run s = _ ↔ _
  rw [run_bind_iff]
  constructor
  · rintro ⟨a, t, hp, h⟩
    obtain ⟨rfl, rfl⟩ := run_pure_iff.1 h
    exact ⟨a, hp, rfl⟩
  · rintro ⟨a, hp, rfl⟩
    exact ⟨a, r, hp, rfl⟩

theorem run_orElse_iff {p q : Reader α} {a : α} :
    (p.orElse q).run s = some (a, r) ↔
      p.run s = some (a, r) ∨ p.run s = none ∧ q.run s = some (a, r) := by
  show (p.run s).or (q.run s) = _ ↔ _
  cases p.run s with
  | none => simp
  | some x => simp

theorem run_opt_iff {p : Reader α} {o : Option α} :
    (opt p).run s = some (o, r) ↔
      (∃ a, p.run s = some (a, r) ∧ some a = o) ∨ p.run s = none ∧ o = none ∧ s = r := by
  unfold opt
  rw [run_orElse_iff, run_map_iff, run_pure_iff]
  have hnone : (some <$> p).run s = none ↔ p.run s = none := by
    show ((p.run s).bind fun x => some (some x.1, x.2)) = none ↔ _
    cases p.run s <;> simp
  rw [hnone, eq_comm (a := none)]

/-! ## Single readers -/

theorem run_exactly_iff {t : List Char} {u : Unit} :
    (exactly t).run s = some (u, r) ↔ s = t ++ r := by
  show (if t <+: s then some ((), s.drop t.length) else none) = _ ↔ _
  constructor
  · intro h
    split at h
    · rename_i hpre
      obtain ⟨rest, rfl⟩ := hpre
      rw [List.drop_left] at h
      rw [(Prod.mk.inj (Option.some.inj h)).2]
    · nomatch h
  · rintro rfl
    rw [if_pos (List.prefix_append t r), List.drop_left]

theorem run_char_iff {c : Char} {u : Unit} : (char c).run s = some (u, r) ↔ s = c :: r :=
  run_exactly_iff

theorem run_run1_iff {p : Char → Bool} {a : List Char} :
    (run1 p).run s = some (a, r) ↔ a ≠ [] ∧ (∀ c ∈ a, p c = true) ∧ Stops p r ∧ s = a ++ r := by
  show (if (s.takeWhile p).isEmpty then none else some (s.takeWhile p, s.dropWhile p)) = _ ↔ _
  rw [← span_iff]
  constructor
  · intro h
    split at h
    · nomatch h
    · rename_i hne
      obtain ⟨rfl, rfl⟩ := Prod.mk.inj (Option.some.inj h)
      exact ⟨fun hnil => hne (List.isEmpty_iff.2 hnil), rfl, rfl⟩
  · rintro ⟨hne, rfl, rfl⟩
    rw [if_neg fun hempty => hne (List.isEmpty_iff.1 hempty)]

theorem run_through_iff {c : Char} {a : List Char} :
    (through c).run s = some (a, r) ↔ c ∉ a ∧ s = a ++ c :: r := by
  have hfree : (∀ d ∈ a, (d != c) = true) ↔ c ∉ a := by
    constructor
    · exact fun h hmem => absurd (h c hmem) (by simp)
    · exact fun h d hd => bne_iff_ne.2 fun heq => h (heq ▸ hd)
  unfold through
  dsimp only
  constructor
  · intro h
    cases hd : s.dropWhile (· != c) with
    | nil =>
      rw [hd] at h
      cases h
    | cons d t =>
      rw [hd] at h
      obtain ⟨ha, rfl⟩ := Prod.mk.inj (Option.some.inj h)
      obtain ⟨ha, hstop, hs⟩ := span_iff.1 ⟨ha, hd⟩
      obtain rfl : d = c := by simpa using stops_cons.1 hstop
      exact ⟨hfree.1 ha, hs⟩
  · rintro ⟨hnot, hs⟩
    obtain ⟨ha, hd⟩ := span_iff.2 ⟨hfree.2 hnot, stops_cons.2 (by simp), hs⟩
    rw [ha, hd]

theorem run_atEnd_iff {u : Unit} : atEnd.run s = some (u, r) ↔ s = [] ∧ r = [] := by
  show (if s.isEmpty then some ((), s) else none) = _ ↔ _
  cases s with
  | nil =>
    constructor
    · intro h
      exact ⟨rfl, (Prod.mk.inj (Option.some.inj h)).2.symm⟩
    · rintro ⟨_, rfl⟩
      rfl
  | cons c s => exact ⟨fun h => (nomatch h), fun h => (nomatch h.1)⟩

/-! ## The lexical classes -/

theorem run_blanks_iff {u : Unit} : blanks.run s = some (u, r) ↔ trimLeft s = r := by
  show some ((), trimLeft s) = some (u, r) ↔ _
  rw [Option.some.injEq, Prod.mk.injEq]
  exact and_iff_right rfl

theorem run_gap_iff {u : Unit} :
    gap.run s = some (u, r) ↔ ∃ g, Spells.Gap g ∧ Stops isBlank r ∧ s = g ++ r := by
  unfold gap
  rw [run_bind_iff]
  constructor
  · rintro ⟨g, t, hg, h⟩
    obtain ⟨_, rfl⟩ := run_pure_iff.1 h
    obtain ⟨hne, hblank, hstop, hs⟩ := run_run1_iff.1 hg
    exact ⟨g, ⟨hne, hblank⟩, hstop, hs⟩
  · rintro ⟨g, ⟨hne, hblank⟩, hstop, hs⟩
    exact ⟨g, r, run_run1_iff.2 ⟨hne, hblank, hstop, hs⟩, rfl⟩

theorem run_word_iff {w : String} :
    word.run s = some (w, r) ↔ IsWord w ∧ Stops isWord r ∧ s = w.toList ++ r := by
  unfold word
  rw [run_map_iff]
  constructor
  · rintro ⟨cs, hcs, rfl⟩
    obtain ⟨hne, hchars, hstop, hs⟩ := run_run1_iff.1 hcs
    rw [String.toList_ofList]
    exact ⟨⟨by rwa [String.toList_ofList], by rwa [String.toList_ofList]⟩, hstop, hs⟩
  · rintro ⟨hw, hstop, hs⟩
    exact ⟨w.toList, run_run1_iff.2 ⟨hw.ne_nil, hw.chars, hstop, hs⟩, String.ofList_toList⟩

theorem run_punctuation_iff {c : Char} {u : Unit} (hc : isBlank c = false) :
    (punctuation c).run s = some (u, r) ↔ ∃ b, Blank b ∧ s = b ++ c :: r := by
  unfold punctuation
  rw [run_bind_iff]
  constructor
  · rintro ⟨_, t, ht, h⟩
    obtain ⟨_, b, hb, hs⟩ := trimLeft_eq_iff.1 (run_blanks_iff.1 ht)
    rw [run_char_iff.1 h] at hs
    exact ⟨b, hb, hs⟩
  · rintro ⟨b, hb, hs⟩
    exact ⟨(), c :: r, run_blanks_iff.2 (trimLeft_eq_iff.2 ⟨stops_cons.2 hc, b, hb, hs⟩),
      run_char_iff.2 rfl⟩

end Reader

open Reader

/-! ## What follows a token -/

theorem IsWord.stops {w : String} (h : IsWord w) : Stops isBlank (w.toList ++ r) := by
  have hne := h.ne_nil
  have hsolid := h.solid
  cases hw : w.toList with
  | nil => exact absurd hw hne
  | cons c cs => exact stops_cons.2 (hsolid c (by rw [hw]; exact List.mem_cons_self))

/-- `Ahead c s` — behind blanks the text goes on with this character. -/
def Ahead (c : Char) (s : List Char) : Prop := ∃ b r, Blank b ∧ s = b ++ c :: r

theorem ahead_append {b : List Char} {c : Char} (hb : Blank b) : Ahead c (b ++ c :: r) :=
  ⟨b, r, hb, rfl⟩

theorem Ahead.trimLeft {c : Char} (h : Ahead c s) (hc : isBlank c = false) :
    (Text.trimLeft s).head? = some c := by
  obtain ⟨b, r, hb, rfl⟩ := h
  rw [trimLeft_append hb, trimLeft_of_stops (stops_cons.2 hc)]
  rfl

/-- What ends a run of characters without blanks in it. -/
theorem Ahead.stops {c : Char} {p : Char → Bool} (h : Ahead c s) (hc : p c = false)
    (hblank : ∀ {d}, isBlank d = true → p d = false) : Stops p s := by
  obtain ⟨b, r, hb, rfl⟩ := h
  cases b with
  | nil => exact stops_cons.2 hc
  | cons d b => exact stops_cons.2 (hblank (hb d List.mem_cons_self))

theorem Ahead.stops_word {c : Char} (h : Ahead c s) (hc : isWord c = false) : Stops isWord s :=
  h.stops hc isWord_of_isBlank

theorem Spells.Gap.stops {g : List Char} (hg : Spells.Gap g) : Stops isWord (g ++ r) := by
  obtain ⟨hne, hblank⟩ := hg
  cases g with
  | nil => exact absurd rfl hne
  | cons c g => exact stops_cons.2 (isWord_of_isBlank (hblank c List.mem_cons_self))

/-! ## Texts -/

theorem literalBody_char {c : Char} (hquote : c ≠ '"') (hback : c ≠ '\\') :
    literalBody (c :: s) = (literalBody s).map fun x => (c :: x.1, x.2) := by
  rw [literalBody.eq_def]
  split
  · rename_i heq
    nomatch heq
  · rename_i heq
    exact absurd (List.cons.inj heq).1 hquote
  · rename_i heq
    exact absurd (List.cons.inj heq).1 hback
  · rename_i heq
    obtain ⟨rfl, rfl⟩ := List.cons.inj heq
    rw [if_neg (by simpa using hback)]

theorem literalBody_escaped {c : Char} (hline : c ≠ '\n') :
    literalBody ('\\' :: c :: s) = (literalBody s).map fun x => (unescape c :: x.1, x.2) := by
  show (if c == '\n' then none else _) = _
  rw [if_neg (by simpa using hline)]

theorem literalBody_iff {v : List Char} :
    literalBody s = some (v, r) ↔ ∃ l, Spells.Literal l v ∧ s = l ++ '"' :: r := by
  constructor
  · intro h
    fun_induction literalBody s generalizing v r with
    | case1 => cases h
    | case2 s =>
      obtain ⟨rfl, rfl⟩ := Prod.mk.inj (Option.some.inj h)
      exact ⟨[], .nil, rfl⟩
    | case3 => cases h
    | case4 c s hline ih =>
      obtain ⟨⟨v', t⟩, hrest, heq⟩ := Option.map_eq_some_iff.1 h
      obtain ⟨rfl, rfl⟩ := Prod.mk.inj heq
      obtain ⟨l, hl, rfl⟩ := ih hrest
      refine ⟨'\\' :: c :: l, ?_, rfl⟩
      unfold unescape
      by_cases hn : c = 'n'
      · rw [hn]
        exact .newline hl
      · by_cases ht : c = 't'
        · rw [ht]
          exact .tabulator hl
        · rw [if_neg (by simpa using hn), if_neg (by simpa using ht)]
          exact .escaped (by simpa using hline) hn ht hl
    | case5 => cases h
    | case6 c s hquote _ hback ih =>
      obtain ⟨⟨v', t⟩, hrest, heq⟩ := Option.map_eq_some_iff.1 h
      obtain ⟨rfl, rfl⟩ := Prod.mk.inj heq
      obtain ⟨l, hl, rfl⟩ := ih hrest
      exact ⟨c :: l, .char (fun hc => hquote hc) (by simpa using hback) hl, rfl⟩
  · rintro ⟨l, hl, rfl⟩
    induction hl with
    | nil => rfl
    | char hquote hback _ ih =>
      rw [List.cons_append, literalBody_char hquote hback, ih]
      rfl
    | newline _ ih =>
      rw [List.cons_append, List.cons_append, literalBody_escaped (by decide), ih]
      rfl
    | tabulator _ ih =>
      rw [List.cons_append, List.cons_append, literalBody_escaped (by decide), ih]
      rfl
    | escaped hline hn ht _ ih =>
      rw [List.cons_append, List.cons_append, literalBody_escaped hline, ih, unescape,
        if_neg (by simpa using hn), if_neg (by simpa using ht)]
      rfl

theorem run_literal_iff {v : String} :
    literal.run s = some (v, r) ↔ ∃ l, Spells.Literal l v.toList ∧ s = l ++ '"' :: r := by
  unfold literal
  rw [run_map_iff, ← literalBody_iff]
  constructor
  · rintro ⟨cs, hcs, rfl⟩
    rw [String.toList_ofList]
    exact hcs
  · exact fun h => ⟨v.toList, h, String.ofList_toList⟩

/-! ## Numbers -/

theorem naturalOf_concat (s : List Char) (c : Char) :
    naturalOf (s ++ [c]) = 10 * naturalOf s + (digitValue? c).getD 0 := by
  unfold naturalOf
  rw [List.foldl_append]
  rfl

theorem numeral_iff {n : Nat} :
    Spells.Numeral s n ↔ s ≠ [] ∧ (∀ c ∈ s, isDigit c = true) ∧ naturalOf s = n := by
  constructor
  · intro h
    induction h with
    | digit hc =>
      refine ⟨List.cons_ne_nil _ _, fun d hd => ?_, ?_⟩
      · rw [List.mem_singleton.1 hd, isDigit, hc]
        rfl
      · rw [← List.nil_append [_], naturalOf_concat, hc]
        exact Nat.zero_add _
    | next _ hc ih =>
      obtain ⟨_, hdigits, rfl⟩ := ih
      refine ⟨List.append_ne_nil_of_right_ne_nil _ (List.cons_ne_nil _ _),
        List.forall_mem_append.2 ⟨hdigits, fun d hd => ?_⟩, ?_⟩
      · rw [List.mem_singleton.1 hd, isDigit, hc]
        rfl
      · rw [naturalOf_concat, hc]
        rfl
  · rintro ⟨hne, hdigits, rfl⟩
    induction s using List.reverseRecOn with
    | nil => exact absurd rfl hne
    | append_singleton s c ih =>
      obtain ⟨hs, hc⟩ := List.forall_mem_append.1 hdigits
      obtain ⟨v, hv⟩ := Option.isSome_iff_exists.1 (hc c (List.mem_singleton_self c))
      rw [naturalOf_concat, hv]
      cases s with
      | nil =>
        have hzero : 10 * naturalOf [] + (some v).getD 0 = v := Nat.zero_add v
        rw [hzero]
        exact .digit hv
      | cons d s => exact .next (ih (List.cons_ne_nil _ _) hs) hv

/-- `IsInteger s` — digits, perhaps behind a minus. -/
def IsInteger (s : List Char) : Prop :=
  ∃ digits, digits ≠ [] ∧ (∀ c ∈ digits, isDigit c = true) ∧ (s = digits ∨ s = '-' :: digits)

theorem run_integer_iff {a : List Char} :
    integer.run s = some (a, r) ↔ IsInteger a ∧ Stops isDigit r ∧ s = a ++ r := by
  unfold integer
  rw [run_bind_iff]
  constructor
  · rintro ⟨sign, t, hsign, hrest⟩
    obtain ⟨digits, t', hdigits, hpure⟩ := run_bind_iff.1 hrest
    obtain ⟨hne, hall, hstop, rfl⟩ := run_run1_iff.1 hdigits
    obtain ⟨rfl, rfl⟩ := run_pure_iff.1 hpure
    rcases run_opt_iff.1 hsign with ⟨_, hchar, rfl⟩ | ⟨_, rfl, rfl⟩
    · exact ⟨⟨digits, hne, hall, Or.inr rfl⟩, hstop, run_char_iff.1 hchar⟩
    · exact ⟨⟨digits, hne, hall, Or.inl rfl⟩, hstop, rfl⟩
  · rintro ⟨⟨digits, hne, hall, rfl | rfl⟩, hstop, rfl⟩
    · refine ⟨none, a ++ r, run_opt_iff.2 (Or.inr ⟨?_, rfl, rfl⟩), run_bind_iff.2
        ⟨a, r, run_run1_iff.2 ⟨hne, hall, hstop, rfl⟩, rfl⟩⟩
      -- A digit is no minus.
      cases hchar : (char '-').run (a ++ r) with
      | none => rfl
      | some x =>
        exfalso
        have hs := run_char_iff.1 (show (char '-').run (a ++ r) = some ((), x.2) from hchar)
        cases a with
        | nil => exact hne rfl
        | cons c a =>
          obtain ⟨rfl, _⟩ := List.cons.inj hs
          exact absurd (hall '-' List.mem_cons_self) (by decide)
    · exact ⟨some (), digits ++ r, run_opt_iff.2 (Or.inl ⟨(), run_char_iff.2 rfl, rfl⟩),
        run_bind_iff.2 ⟨digits, r, run_run1_iff.2 ⟨hne, hall, hstop, rfl⟩, rfl⟩⟩

theorem integerOf_plain (h : ∀ c ∈ s, isDigit c = true) :
    integerOf s = if s.length > Decimal.maxDigits then .error .numeralTooLong
      else .ok (naturalOf s : Int) := by
  cases s with
  | nil => rfl
  | cons c s =>
    have hc : c ≠ '-' := by
      rintro rfl
      exact absurd (h '-' List.mem_cons_self) (by decide)
    unfold integerOf
    split
    rename_i heq
    split at heq
    · rename_i hminus
      exact absurd (List.cons.inj hminus).1 hc
    · obtain ⟨rfl, rfl⟩ := Prod.mk.inj heq
      rfl

theorem integerOf_minus (s : List Char) :
    integerOf ('-' :: s) = if s.length > Decimal.maxDigits then .error .numeralTooLong
      else .ok (-(naturalOf s : Int)) := rfl

/-- What an integer stands for. -/
theorem integer_iff {n : Int} :
    Spells.Integer s n ↔ IsInteger s ∧ integerOf s = .ok n := by
  constructor
  · rintro (⟨h, hlength⟩ | ⟨h, hlength⟩)
    · obtain ⟨hne, hall, rfl⟩ := numeral_iff.1 h
      refine ⟨⟨s, hne, hall, Or.inl rfl⟩, ?_⟩
      rw [integerOf_plain hall, if_neg (Nat.not_lt.2 hlength)]
    · obtain ⟨hne, hall, rfl⟩ := numeral_iff.1 h
      refine ⟨⟨_, hne, hall, Or.inr rfl⟩, ?_⟩
      rw [integerOf_minus, if_neg (Nat.not_lt.2 hlength)]
  · rintro ⟨⟨digits, hne, hall, rfl | rfl⟩, h⟩
    · rw [integerOf_plain hall] at h
      split at h
      · nomatch h
      · rename_i hlength
        cases h
        exact .plain (numeral_iff.2 ⟨hne, hall, rfl⟩) (Nat.not_lt.1 hlength)
    · rw [integerOf_minus] at h
      split at h
      · nomatch h
      · rename_i hlength
        cases h
        exact .minus (numeral_iff.2 ⟨hne, hall, rfl⟩) (Nat.not_lt.1 hlength)

/-! ## Pieces of statements -/

theorem run_headed_iff {keyword : List Char} {w : String} :
    (headed keyword).run s = some (w, r) ↔
      ∃ g, Spells.Gap g ∧ IsWord w ∧ Stops isWord r ∧ s = keyword ++ g ++ w.toList ++ r := by
  unfold headed
  rw [run_bind_iff]
  constructor
  · rintro ⟨_, t, hkey, h⟩
    obtain ⟨_, t', hgap, h⟩ := run_bind_iff.1 h
    obtain ⟨hw, hstop, rfl⟩ := run_word_iff.1 h
    obtain ⟨g, hg, _, rfl⟩ := run_gap_iff.1 hgap
    refine ⟨g, hg, hw, hstop, ?_⟩
    rw [run_exactly_iff.1 hkey, List.append_assoc, List.append_assoc]
  · rintro ⟨g, hg, hw, hstop, rfl⟩
    refine ⟨(), g ++ (w.toList ++ r), run_exactly_iff.2 ?_, run_bind_iff.2
      ⟨(), w.toList ++ r, run_gap_iff.2 ⟨g, hg, hw.stops, rfl⟩, run_word_iff.2 ⟨hw, hstop, rfl⟩⟩⟩
    rw [List.append_assoc, List.append_assoc]

/-- A statement with another first letter is not this one. -/
theorem run_headed_none {c d : Char} {keyword : List Char} (h : c ≠ d) :
    (headed (c :: keyword)).run (d :: s) = none := by
  cases hrun : (headed (c :: keyword)).run (d :: s) with
  | none => rfl
  | some x =>
    obtain ⟨g, _, _, _, hs⟩ := run_headed_iff.1 (show _ = some (x.1, x.2) from hrun)
    exact absurd (List.cons.inj hs).1.symm h

theorem size_sound {a : List Char} {n : Int} (h : size.run s = some (a, r))
    (hn : integerOf a = .ok n) : ∃ t, Spells.Size t n ∧ s = t ++ r := by
  unfold size at h
  obtain ⟨_, t₁, hopen, hrest₁⟩ := run_bind_iff.1 h
  obtain ⟨_, t₂, hblank, hrest₂⟩ := run_bind_iff.1 hrest₁
  obtain ⟨a', t₃, ha, hrest₃⟩ := run_bind_iff.1 hrest₂
  obtain ⟨_, t₄, hclose, hpure⟩ := run_bind_iff.1 hrest₃
  obtain ⟨rfl, rfl⟩ := run_pure_iff.1 hpure
  obtain ⟨b₁, h₁, rfl⟩ := (run_punctuation_iff (by decide)).1 hopen
  obtain ⟨_, b₂, h₂, rfl⟩ := trimLeft_eq_iff.1 (run_blanks_iff.1 hblank)
  obtain ⟨hinteger, _, rfl⟩ := run_integer_iff.1 ha
  obtain ⟨b₃, h₃, rfl⟩ := (run_punctuation_iff (by decide)).1 hclose
  refine ⟨_, .bracketed h₁ h₂ (integer_iff.2 ⟨hinteger, hn⟩) h₃, ?_⟩
  simp only [List.append_assoc, List.cons_append, List.nil_append]

theorem size_complete {t : List Char} {n : Int} (h : Spells.Size t n) :
    ∃ a, size.run (t ++ r) = some (a, r) ∧ integerOf a = .ok n := by
  obtain ⟨h₁, h₂, hinteger, h₃⟩ := h
  rename_i b₁ b₂ a b₃
  obtain ⟨hform, hn⟩ := integer_iff.1 hinteger
  have hahead : Ahead ']' (b₃ ++ ']' :: r) := ahead_append h₃
  have hstart : Stops isBlank (a ++ (b₃ ++ ']' :: r)) := by
    obtain ⟨digits, hne, hall, rfl | rfl⟩ := hform
    · cases a with
      | nil => exact absurd rfl hne
      | cons c a =>
        refine stops_cons.2 ?_
        cases hc : isBlank c with
        | false => rfl
        | true =>
          have hdigit := hall c List.mem_cons_self
          rw [isDigit_of_isBlank hc] at hdigit
          nomatch hdigit
    · exact stops_cons.2 (by decide)
  refine ⟨a, ?_, hn⟩
  unfold size
  refine run_bind_iff.2 ⟨(), b₂ ++ (a ++ (b₃ ++ ']' :: r)), (run_punctuation_iff (by decide)).2
    ⟨b₁, h₁, ?_⟩, ?_⟩
  · simp only [List.append_assoc, List.cons_append, List.nil_append]
  refine run_bind_iff.2 ⟨(), a ++ (b₃ ++ ']' :: r), run_blanks_iff.2
    (trimLeft_eq_iff.2 ⟨hstart, b₂, h₂, rfl⟩), ?_⟩
  refine run_bind_iff.2 ⟨a, b₃ ++ ']' :: r, run_integer_iff.2
    ⟨hform, hahead.stops (by decide) isDigit_of_isBlank, rfl⟩, ?_⟩
  exact run_bind_iff.2 ⟨(), r, (run_punctuation_iff (by decide)).2 ⟨b₃, h₃, rfl⟩, rfl⟩

theorem Spells.Size.ahead {t : List Char} {n : Int} (h : Spells.Size t n) : Ahead '[' (t ++ r) := by
  obtain ⟨h₁, _, _, _⟩ := h
  simp only [List.append_assoc, List.cons_append]
  exact ahead_append h₁

theorem Spells.Placement.stops {t : List Char} {o : Option String} (h : Spells.Placement t o)
    (hr : Stops isWord r) : Stops isWord (t ++ r) := by
  cases h with
  | nowhere => exact hr
  | within h₁ _ _ =>
    simp only [List.append_assoc]
    exact h₁.stops

theorem placement_sound {o : Option String} (h : (opt placement).run s = some (o, r)) :
    ∃ t, Spells.Placement t o ∧ s = t ++ r := by
  rcases run_opt_iff.1 h with ⟨w, hw, rfl⟩ | ⟨_, rfl, rfl⟩
  · unfold placement at hw
    obtain ⟨_, t₁, hgap, hrest₁⟩ := run_bind_iff.1 hw
    obtain ⟨_, t₂, hin, hrest₂⟩ := run_bind_iff.1 hrest₁
    obtain ⟨_, t₃, hgap', hlast⟩ := run_bind_iff.1 hrest₂
    obtain ⟨g₁, h₁, _, rfl⟩ := run_gap_iff.1 hgap
    obtain rfl := run_exactly_iff.1 hin
    obtain ⟨g₂, h₂, _, rfl⟩ := run_gap_iff.1 hgap'
    obtain ⟨hword, _, rfl⟩ := run_word_iff.1 hlast
    refine ⟨_, .within h₁ h₂ hword, ?_⟩
    simp only [List.append_assoc]
  · exact ⟨[], .nowhere, rfl⟩

theorem placement_complete {t : List Char} {c : Char} {o : Option String}
    (h : Spells.Placement t o) (hr : Ahead c r) (hc : IsMark c) :
    (opt placement).run (t ++ r) = some (o, r) := by
  cases h with
  | within h₁ h₂ hw =>
    rename_i g₁ g₂ w
    refine run_opt_iff.2 (Or.inl ⟨w, ?_, rfl⟩)
    unfold placement
    refine run_bind_iff.2 ⟨(), ['i', 'n'] ++ (g₂ ++ (w.toList ++ r)), run_gap_iff.2
      ⟨g₁, h₁, stops_cons.2 (by decide), ?_⟩, ?_⟩
    · simp only [List.append_assoc]
    refine run_bind_iff.2 ⟨(), g₂ ++ (w.toList ++ r), run_exactly_iff.2 rfl, ?_⟩
    exact run_bind_iff.2 ⟨(), w.toList ++ r, run_gap_iff.2 ⟨g₂, h₂, hw.stops, rfl⟩,
      run_word_iff.2 ⟨hw, hr.stops_word hc.word, rfl⟩⟩
  | nowhere =>
    refine run_opt_iff.2 (Or.inr ⟨?_, rfl, rfl⟩)
    cases hrun : placement.run ([] ++ r) with
    | none => rfl
    | some x =>
      exfalso
      unfold placement at hrun
      obtain ⟨_, t₁, hgap, h⟩ := run_bind_iff.1 (show _ = some (x.1, x.2) from hrun)
      obtain ⟨_, t₂, hin, _⟩ := run_bind_iff.1 h
      obtain ⟨g, ⟨_, hg⟩, _, hs⟩ := run_gap_iff.1 hgap
      have hahead := hr.trimLeft hc.blank
      have hi : isBlank 'i' = false := by decide
      rw [show r = g ++ t₁ from hs, trimLeft_append hg, run_exactly_iff.1 hin,
        List.cons_append, trimLeft_of_stops (stops_cons.2 hi)] at hahead
      cases hahead
      exact absurd hc.word (by decide)

theorem closing_sound {o : Option Unit} (h : (opt (punctuation ';')).run s = some (o, r)) :
    ∃ t, Spells.Closing t ∧ s = t ++ r := by
  rcases run_opt_iff.1 h with ⟨_, hsemi, _⟩ | ⟨_, _, rfl⟩
  · obtain ⟨b, hb, rfl⟩ := (run_punctuation_iff (by decide)).1 hsemi
    exact ⟨b ++ [';'], .semicolon hb, by simp⟩
  · exact ⟨[], .none, rfl⟩

theorem closing_complete {t : List Char} (h : Spells.Closing t)
    (hr : (trimLeft r).head? ≠ some ';') :
    ∃ o, (opt (punctuation ';')).run (t ++ r) = some (o, r) := by
  cases h with
  | semicolon hb =>
    rename_i b
    refine ⟨some (), run_opt_iff.2 (Or.inl ⟨(), (run_punctuation_iff (by decide)).2
      ⟨b, hb, by simp⟩, rfl⟩)⟩
  | none =>
    refine ⟨none, run_opt_iff.2 (Or.inr ⟨?_, rfl, rfl⟩)⟩
    cases hrun : (punctuation ';').run ([] ++ r) with
    | none => rfl
    | some x =>
      obtain ⟨b, hb, hs⟩ := (run_punctuation_iff (by decide)).1
        (show _ = some (x.1, x.2) from hrun)
      exact absurd (Ahead.trimLeft ⟨b, x.2, hb, hs⟩ (by decide)) hr

theorem braced_sound {body behind : List Char} (h : braced.run s = some ((body, behind), r)) :
    ∃ b closing, Blank b ∧ '\x7d' ∉ body ∧ Spells.Closing closing ∧
      s = b ++ '\x7b' :: body ++ '\x7d' :: closing ++ r := by
  unfold braced at h
  obtain ⟨_, t₁, hopen, hrest₁⟩ := run_bind_iff.1 h
  obtain ⟨_, t₂, hremaining, hrest₂⟩ := run_bind_iff.1 hrest₁
  obtain ⟨body', t₃, hbody, hrest₃⟩ := run_bind_iff.1 hrest₂
  obtain ⟨_, t₄, hend, hpure⟩ := run_bind_iff.1 hrest₃
  obtain ⟨hpair, rfl⟩ := run_pure_iff.1 hpure
  obtain ⟨rfl, _⟩ := Prod.mk.inj hpair
  obtain ⟨b, hb, rfl⟩ := (run_punctuation_iff (by decide)).1 hopen
  obtain ⟨_, rfl⟩ := Prod.mk.inj (Option.some.inj (show some (t₁, t₁) = _ from hremaining))
  obtain ⟨hnot, rfl⟩ := run_through_iff.1 hbody
  obtain ⟨closing, hclosing, rfl⟩ := closing_sound hend
  refine ⟨b, closing, hb, hnot, hclosing, ?_⟩
  simp only [List.append_assoc, List.cons_append]

theorem braced_complete {b body closing : List Char} (hb : Blank b) (hbody : '\x7d' ∉ body)
    (hclosing : Spells.Closing closing) (hr : (trimLeft r).head? ≠ some ';') :
    ∃ behind, braced.run (b ++ '\x7b' :: body ++ '\x7d' :: closing ++ r) =
      some ((body, behind), r) := by
  obtain ⟨o, ho⟩ := closing_complete hclosing hr
  refine ⟨body ++ '\x7d' :: (closing ++ r), ?_⟩
  unfold braced
  refine run_bind_iff.2 ⟨(), body ++ '\x7d' :: (closing ++ r), (run_punctuation_iff (by decide)).2
    ⟨b, hb, ?_⟩, ?_⟩
  · simp only [List.append_assoc, List.cons_append]
  refine run_bind_iff.2 ⟨_, _, rfl, ?_⟩
  refine run_bind_iff.2 ⟨body, closing ++ r, run_through_iff.2 ⟨hbody, rfl⟩, ?_⟩
  exact run_bind_iff.2 ⟨o, r, ho, rfl⟩

end Bindery.Idl
