/-
  FAULTS ARE REPORTED AT THE LINE WHERE THE CONSTRUCT STARTS.

  A text is refused at one PLACE.  Statement after statement is taken off its front (`Taken`), and
  what stands there next is not a statement, sets an option again, or has a body that cannot be read
  (`Blames`): a fault of the statement itself is at the first character of the statement, a fault of
  a function at the first character of its declaration.  A text is refused exactly for what stands
  at such a place, and with the line that this place has in the text without its comments
  (`statements_eq_rejected`).

  That this is the line in the text itself needs two facts about taking comments out: what is left
  is left in its order (`stripComments_sublist`), and no line feed is lost
  (`newlines_stripComments`).  So as many line feeds stand before a character as before the place
  that it came from, wherever that is (`newlines_eq_of_left`).
-/
import Bindery.Proofs.Idl.Acceptance

namespace Bindery.Idl

open Text Reader

variable {s r t body behind decl place : List Char} {d : Idl.Document}

/-! ## Lines -/

theorem newlines_append (s t : List Char) : newlines (s ++ t) = newlines s + newlines t :=
  List.count_append

theorem newlines_le_of_suffix (h : s <:+ t) : newlines s ≤ newlines t := h.sublist.count_le _

/-- The line feeds of pieces, each with a semicolon behind it, are those of the pieces. -/
theorem newlines_closed (p : List Char) : newlines (p ++ [';']) = newlines p := by
  rw [newlines_append]
  rfl

/-! ## Trimming again -/

theorem trim_between {b b' : List Char} (hb : Blank b) (hb' : Blank b') :
    trim (b ++ (s ++ b')) = trim s := by
  rw [trim, trimLeft_append hb, trim, trimRight, trimRight]
  by_cases hs : Blank s
  · rw [trimLeft_append hs, trimLeft_eq_iff.2 ⟨stops_nil, b', hb', (List.append_nil b').symm⟩,
      trimLeft_eq_iff.2 ⟨stops_nil, s, hs, (List.append_nil s).symm⟩]
  · obtain ⟨hstop, front, hfront, hs'⟩ := trimLeft_eq_iff.1 (rfl : trimLeft s = _)
    have hne : trimLeft s ≠ [] := by
      intro hnil
      rw [hnil, List.append_nil] at hs'
      exact hs (hs' ▸ hfront)
    have hstop' : Stops isBlank (trimLeft s ++ b') := by
      intro c hc
      rw [List.head?_append_of_ne_nil _ hne] at hc
      exact hstop c hc
    have htrim : trimLeft (s ++ b') = trimLeft s ++ b' :=
      trimLeft_eq_iff.2 ⟨hstop', front, hfront, by rw [← List.append_assoc, ← hs']⟩
    rw [htrim, dropTail_append hb']

theorem trim_trim (s : List Char) : trim (trim s) = trim s := by
  obtain ⟨b, b', hb, hb', hs⟩ := exists_trim s
  have hsame := trim_between (s := trim s) hb hb'
  rw [← List.append_assoc, ← hs] at hsame
  exact hsame.symm

theorem stops_of_trim_eq (h : trim s = s) : Stops isBlank s := by
  obtain ⟨b', _, hs⟩ := exists_dropTail (p := isBlank) (trimLeft s)
  intro c hc
  refine stops_trimLeft (s := s) c ?_
  have htrim : dropTail isBlank (trimLeft s) = s := h
  rw [hs, htrim, List.head?_append]
  rw [Option.mem_def] at hc ⊢
  rw [hc]
  rfl

/-- The blanks in front of a trimmed text. -/
theorem takeWhile_blanks {b : List Char} (hb : Blank b) (hne : s ≠ []) (hs : trim s = s) :
    (b ++ (s ++ r)).takeWhile isBlank = b := by
  refine takeWhile_append_stops hb fun c hc => ?_
  rw [List.head?_append_of_ne_nil _ hne] at hc
  exact stops_of_trim_eq hs c hc

/-! ## Declarations -/

/-- `DeclarationAt s decl place` — in front of the place stand declarations, each with its
semicolon, and blanks; and what stands there is this one, which a semicolon or the end of the body
ends. -/
inductive DeclarationAt : List Char → List Char → List Char → Prop
  | behind {before : List (List Char)} {b decl b' t : List Char} {e : Char}
    (hbefore : ∀ p ∈ before, ∃ f, Spells.Declaration p f) (hb : Blank b) (hne : decl ≠ [])
    (htrim : trim decl = decl) (hfree : ';' ∉ decl ∧ '\x7d' ∉ decl) (hb' : Blank b')
    (hend : e = ';' ∨ e = '\x7d') :
    DeclarationAt (before.flatMap (· ++ [';']) ++ (b ++ (decl ++ (b' ++ e :: t)))) decl
      (decl ++ (b' ++ e :: t))

/-- A text up to one of its pieces. -/
theorem exists_of_splitOn {c : Char} {before after : List (List Char)} {piece : List Char}
    (h : splitOn c s = before ++ piece :: after) :
    ∃ t, s = before.flatMap (· ++ [c]) ++ (piece ++ t) ∧ c ∉ piece ∧
      (t = [] ∨ ∃ t', t = c :: t') := by
  induction before generalizing s with
  | nil =>
    rcases free_or_append (· == c) s with hs | ⟨front, e, t, rfl, hfront, he⟩
    · rw [splitOn, splitWhere_free hs] at h
      obtain ⟨rfl, -⟩ := List.cons.inj h
      exact ⟨[], (List.append_nil s).symm, fun hc => by simpa using hs c hc, Or.inl rfl⟩
    · obtain rfl := eq_of_beq he
      rw [splitOn, splitWhere_append hfront he] at h
      obtain ⟨rfl, -⟩ := List.cons.inj h
      exact ⟨e :: t, rfl, fun hc => by simpa using hfront e hc, Or.inr ⟨t, rfl⟩⟩
  | cons p before ih =>
    rcases free_or_append (· == c) s with hs | ⟨front, e, t, rfl, hfront, he⟩
    · rw [splitOn, splitWhere_free hs] at h
      obtain ⟨-, hnil⟩ := List.cons.inj h
      exact absurd hnil.symm (List.append_ne_nil_of_right_ne_nil _ (List.cons_ne_nil _ _))
    · obtain rfl := eq_of_beq he
      rw [splitOn, splitWhere_append hfront he] at h
      obtain ⟨rfl, hrest⟩ := List.cons.inj h
      obtain ⟨u, rfl, hpiece, hu⟩ := ih hrest
      exact ⟨u, by simp, hpiece, hu⟩

theorem splitOn_flatMap {c : Char} {before : List (List Char)} (h : ∀ p ∈ before, c ∉ p) :
    splitOn c (before.flatMap (· ++ [c]) ++ s) = before ++ splitOn c s := by
  induction before with
  | nil => rfl
  | cons p before ih =>
    obtain ⟨hp, hbefore⟩ := List.forall_mem_cons.1 h
    rw [List.flatMap_cons, List.append_assoc, List.append_assoc, List.singleton_append,
      splitOn_append, splitOn_free hp, ih hbefore]
    rfl

/-- A place in a list is its front or in its tail. -/
theorem exists_cons_eq_append {α : Type} {a : α} {as : List α} {P : List α → α → Prop} :
    (∃ before b after, a :: as = before ++ b :: after ∧ P before b) ↔
      P [] a ∨ ∃ before b after, as = before ++ b :: after ∧ P (a :: before) b := by
  constructor
  · rintro ⟨before, b, after, h, hP⟩
    cases before with
    | nil =>
      obtain ⟨rfl, -⟩ := List.cons.inj h
      exact Or.inl hP
    | cons c before =>
      obtain ⟨rfl, htail⟩ := List.cons.inj h
      exact Or.inr ⟨before, b, after, htail, hP⟩
  · rintro (hP | ⟨before, b, after, rfl, hP⟩)
    · exact ⟨[], a, as, rfl, hP⟩
    · exact ⟨a :: before, b, after, rfl, hP⟩

/-- What is wrong with a piece behind others, and the line where it starts. -/
def FailsBehind (line l : Nat) (fault : Fault) (before : List (List Char)) (piece : List Char) :
    Prop :=
  (∀ p ∈ before, ∃ f, Spells.Declaration p f) ∧ trim piece ≠ [] ∧
    function (trim piece) = .error fault ∧
    l = line + newlines (before.flatMap (· ++ [';'])) + newlines (piece.takeWhile isBlank)

theorem failsBehind_cons {line l : Nat} {fault : Fault} {before : List (List Char)}
    {p piece : List Char} {o : Option FunctionDecl} (hp : Spells.Declaration p o) :
    FailsBehind line l fault (p :: before) piece ↔
      FailsBehind (line + newlines p) l fault before piece := by
  unfold FailsBehind
  simp only [List.forall_mem_cons, List.flatMap_cons, newlines_append (p ++ [';']),
    newlines_closed, Nat.add_assoc]
  exact and_congr_left fun _ => and_iff_right ⟨o, hp⟩

/-- The declarations of a module fail at the first piece that spells none. -/
theorem declarations_eq_error {line l : Nat} {fault : Fault} {pieces : List (List Char)} :
    declarations line pieces = .error (l, fault) ↔
      ∃ before piece after, pieces = before ++ piece :: after ∧
        FailsBehind line l fault before piece := by
  induction pieces generalizing line with
  | nil =>
    constructor
    · exact fun h => nomatch h
    · rintro ⟨before, piece, after, h, -⟩
      cases before <;> nomatch h
  | cons p pieces ih =>
    rw [exists_cons_eq_append, declarations]
    dsimp only
    by_cases hblank : trim p = []
    · have hlater : ¬ FailsBehind line l fault [] p := fun h => h.2.1 hblank
      simp only [or_iff_right hlater, failsBehind_cons (declaration_none.2 hblank)]
      rw [if_pos (List.isEmpty_iff.2 hblank), ih]
    · rw [if_neg fun h => hblank (List.isEmpty_iff.1 h)]
      cases hfunction : function (trim p) with
      | error fault' =>
        have hlater : ¬ ∃ before piece after, pieces = before ++ piece :: after ∧
            FailsBehind line l fault (p :: before) piece := by
          rintro ⟨before, piece, after, -, h⟩
          obtain ⟨f, hf⟩ := h.1 p List.mem_cons_self
          cases f with
          | none => exact hblank (declaration_none.1 hf)
          | some f =>
            rw [(declaration_some.1 hf).2] at hfunction
            nomatch hfunction
        rw [or_iff_left hlater]
        constructor
        · intro h
          cases h
          exact ⟨fun _ h => (nomatch h), hblank, hfunction, rfl⟩
        · rintro ⟨-, -, h, rfl⟩
          rw [hfunction] at h
          cases h
          rfl
      | ok f =>
        have hnow : ¬ FailsBehind line l fault [] p := by
          rintro ⟨-, -, h, -⟩
          rw [hfunction] at h
          nomatch h
        simp only [or_iff_right hnow, failsBehind_cons (declaration_some.2 ⟨hblank, hfunction⟩)]
        rw [← ih]
        exact bind_ok_eq_error

/-- What the end of a body stands behind is the body, or the front of it up to a semicolon. -/
theorem body_eq_of_append {u x : List Char} {e : Char} (hbody : '\x7d' ∉ body) (hu : '\x7d' ∉ u)
    (hend : e = ';' ∨ e = '\x7d') (h : body ++ '\x7d' :: x = u ++ e :: t) :
    body = u ∨ ∃ w, body = u ++ ';' :: w := by
  rcases List.append_eq_append_iff.1 h with ⟨w, rfl, hw⟩ | ⟨w, rfl, hw⟩
  · cases w with
    | nil => exact Or.inl (List.append_nil _).symm
    | cons c w =>
      obtain ⟨rfl, -⟩ := List.cons.inj hw
      simp at hu
  · cases w with
    | nil => exact Or.inl (List.append_nil _)
    | cons c w =>
      obtain ⟨rfl, -⟩ := List.cons.inj hw
      obtain rfl := hend.resolve_right fun he => hbody (by simp [he])
      exact Or.inr ⟨w, rfl⟩

/-- A piece of the body, with declarations before it, stands at a place of the text that the body
is the front of: behind the lines of those declarations and of its blanks. -/
theorem exists_declarationAt {before after : List (List Char)} {piece : List Char} (x : List Char)
    (hbody : '\x7d' ∉ body) (hsplit : splitOn ';' body = before ++ piece :: after)
    (hbefore : ∀ p ∈ before, ∃ f, Spells.Declaration p f) (hne : trim piece ≠ []) :
    ∃ place, DeclarationAt (body ++ '\x7d' :: x) (trim piece) place ∧
      newlines (body ++ '\x7d' :: x) = newlines (before.flatMap (· ++ [';'])) +
        newlines (piece.takeWhile isBlank) + newlines place := by
  obtain ⟨t, rfl, hpiece, ht⟩ := exists_of_splitOn hsplit
  obtain ⟨b, b', hb, hb', hs⟩ := exists_trim piece
  have hblanks : piece.takeWhile isBlank = b := by
    rw [hs, List.append_assoc]
    exact takeWhile_blanks hb hne (trim_trim piece)
  have hfree : ';' ∉ trim piece ∧ '\x7d' ∉ trim piece := by
    refine ⟨fun h => hpiece ?_, fun h => hbody ?_⟩
    · rw [hs]
      simp [h]
    · rw [hs]
      simp [h]
  -- What ends the declaration is the next semicolon, or else the end of the body.
  obtain ⟨e, u, hend, htext⟩ : ∃ e u, (e = ';' ∨ e = '\x7d') ∧ t ++ '\x7d' :: x = e :: u := by
    rcases ht with rfl | ⟨t', rfl⟩
    · exact ⟨_, _, Or.inr rfl, rfl⟩
    · exact ⟨_, _, Or.inl rfl, rfl⟩
  have hwhole : before.flatMap (· ++ [';']) ++ (piece ++ t) ++ '\x7d' :: x =
      before.flatMap (· ++ [';']) ++ (b ++ (trim piece ++ (b' ++ e :: u))) := by
    rw [← htext]
    conv_lhs => rw [hs]
    simp only [List.append_assoc]
  rw [hwhole]
  refine ⟨_, .behind hbefore hb hne (trim_trim piece) hfree hb' hend, ?_⟩
  rw [hblanks, newlines_append (before.flatMap _), newlines_append b, Nat.add_assoc]

/-- What is declared at a place of the text is a piece of the body, and stands behind the lines of
the declarations before it and of its blanks. -/
theorem DeclarationAt.exists_piece {x : List Char} (hbody : '\x7d' ∉ body)
    (h : DeclarationAt (body ++ '\x7d' :: x) decl place) :
    ∃ before piece after, splitOn ';' body = before ++ piece :: after ∧
      (∀ p ∈ before, ∃ f, Spells.Declaration p f) ∧ trim piece ≠ [] ∧ trim piece = decl ∧
      newlines (body ++ '\x7d' :: x) = newlines (before.flatMap (· ++ [';'])) +
        newlines (piece.takeWhile isBlank) + newlines place := by
  generalize hwhole : body ++ '\x7d' :: x = whole at h ⊢
  cases h with
  | @behind before b decl b' t e hbefore hb hne htrim hfree hb' hend =>
    have hmarks : ∀ {c : Char}, IsMark c → c ∉ ['(', ',', ')', '-', '>'] → ∀ p ∈ before, c ∉ p := by
      intro c hc hother p hp
      obtain ⟨f, hf⟩ := hbefore p hp
      exact hf.not_mem hc hother
    have hpiece : ∀ {c : Char}, IsMark c → c ∉ decl → c ∉ b ++ (decl ++ b') := by
      intro c hc hdecl
      simp only [List.mem_append, not_or]
      exact ⟨hc.not_mem_blank hb, hdecl, hc.not_mem_blank hb'⟩
    have hfront : '\x7d' ∉ before.flatMap (· ++ [';']) ++ (b ++ (decl ++ b')) := by
      rw [List.mem_append, not_or]
      refine ⟨fun hmem => ?_, hpiece (by decide) hfree.2⟩
      obtain ⟨p, hp, hmem⟩ := List.mem_flatMap.1 hmem
      exact (List.mem_append.1 hmem).elim (hmarks (by decide) (by decide) p hp) (by decide)
    have heq : body ++ '\x7d' :: x =
        before.flatMap (· ++ [';']) ++ (b ++ (decl ++ b')) ++ e :: t := by
      rw [hwhole]
      simp only [List.append_assoc]
    obtain ⟨after, hsplit⟩ : ∃ after,
        splitOn ';' body = before ++ (b ++ (decl ++ b')) :: after := by
      rcases body_eq_of_append hbody hfront hend heq with rfl | ⟨w, rfl⟩
      · exact ⟨[], by
          rw [splitOn_flatMap (hmarks (by decide) (by decide)),
            splitOn_free (hpiece (by decide) hfree.1)]⟩
      · exact ⟨splitOn ';' w, by
          rw [List.append_assoc, splitOn_flatMap (hmarks (by decide) (by decide)), splitOn_append,
            splitOn_free (hpiece (by decide) hfree.1)]
          rfl⟩
    have hpiecetrim : trim (b ++ (decl ++ b')) = decl := (trim_between hb hb').trans htrim
    refine ⟨before, b ++ (decl ++ b'), after, hsplit, hbefore, by rwa [hpiecetrim], hpiecetrim, ?_⟩
    rw [takeWhile_blanks hb hne htrim, newlines_append (before.flatMap _), newlines_append b,
      Nat.add_assoc]

/-- The functions of a body fail at the place of a declaration, in the line of which they do. -/
theorem functions_eq_error {line l : Nat} {fault : Fault} {x : List Char} (hbody : '\x7d' ∉ body) :
    functions line body = .error (l, fault) ↔
      ∃ decl place, DeclarationAt (body ++ '\x7d' :: x) decl place ∧
        function decl = .error fault ∧
        l + newlines place = line + newlines (body ++ '\x7d' :: x) := by
  unfold functions
  rw [declarations_eq_error]
  constructor
  · rintro ⟨before, piece, after, hsplit, hbefore, hne, hbad, rfl⟩
    obtain ⟨place, hat, hlines⟩ := exists_declarationAt x hbody hsplit hbefore hne
    exact ⟨trim piece, place, hat, hbad, by omega⟩
  · rintro ⟨decl, place, hat, hbad, hline⟩
    obtain ⟨before, piece, after, hsplit, hbefore, hne, rfl, hlines⟩ := hat.exists_piece hbody
    exact ⟨before, piece, after, hsplit, hbefore, hne, hbad, by omega⟩

/-! ## Outlines -/

/-- `p.Gives P` — whatever the reader finds is of this kind. -/
def Reader.Gives {α : Type} (p : Reader α) (P : α → Prop) : Prop :=
  ∀ s a r, p.run s = some (a, r) → P a

theorem Reader.Gives.bind {α β : Type} {p : Reader α} {f : α → Reader β} {P : β → Prop}
    (h : ∀ a, (f a).Gives P) : (p >>= f).Gives P := by
  intro s b r hrun
  obtain ⟨a, t, -, hrest⟩ := run_bind_iff.1 hrun
  exact h a t b r hrest

theorem Reader.Gives.pure {α : Type} {a : α} {P : α → Prop} (h : P a) :
    (Pure.pure a : Reader α).Gives P := by
  intro s b r hrun
  exact (run_pure_iff.1 hrun).1 ▸ h

/-- What a reader never finds is found by the other one. -/
theorem Reader.Gives.orElse {α : Type} {p q : Reader α} {P : α → Prop} {a : α} (h : p.Gives P)
    (ha : ¬ P a) (hrun : (p.orElse q).run s = some (a, r)) : q.run s = some (a, r) := by
  rcases run_orElse_iff.1 hrun with hp | ⟨-, hq⟩
  · exact absurd (h s a r hp) ha
  · exact hq

/-- The statement that an outline stands for, wherever it is. -/
def Outline.Means (o : Outline) (statement : Statement) : Prop :=
  o.resolve 0 (fun _ => 0) .empty = .ok statement

section

variable {o : Outline} {statement : Statement} {line : Nat} {lineOf : List Char → Nat}

/-- What is no option is read alike wherever it stands. -/
theorem resolve_elsewhere {line' : Nat} {lineOf' : List Char → Nat} {d' : Document}
    (hne : ∀ name value, o ≠ .option name value) (h : o.resolve line lineOf d = .ok statement) :
    o.resolve line' lineOf' d' = .ok statement ∧ statement.option? = none := by
  cases o with
  | option name value => exact absurd rfl (hne name value)
  | buffer name size home =>
    obtain ⟨n, hn, h⟩ := bind_eq_ok.1 h
    cases h
    exact ⟨bind_eq_ok.2 ⟨n, hn, rfl⟩, rfl⟩
  | scalar name size =>
    obtain ⟨n, hn, h⟩ := bind_eq_ok.1 h
    cases h
    exact ⟨bind_eq_ok.2 ⟨n, hn, rfl⟩, rfl⟩
  | enum name home body =>
    obtain ⟨vs, hvs, h⟩ := bind_eq_ok.1 h
    cases h
    exact ⟨bind_eq_ok.2 ⟨vs, mapError_eq_ok.2 (mapError_eq_ok.1 hvs), rfl⟩, rfl⟩
  | module name body behind =>
    obtain ⟨fs, hfs, h⟩ := bind_eq_ok.1 h
    cases h
    have hbody := functions_iff.1 (mapError_eq_ok.1 hfs)
    exact ⟨bind_eq_ok.2 ⟨fs, mapError_eq_ok.2 (functions_iff.2 hbody), rfl⟩, rfl⟩

/-- A statement comes out where the outline stands for it and it sets no option again. -/
theorem resolve_eq_ok :
    o.resolve line lineOf d = .ok statement ↔
      o.Means statement ∧ ∀ e, statement.option? = some e → d.hasOption e.1 = false := by
  by_cases hoption : ∃ name value, o = .option name value
  · obtain ⟨name, value, rfl⟩ := hoption
    have hmeans : Outline.Means (.option name value) statement ↔
        statement = .option name value := by
      rw [Outline.Means, Outline.resolve,
        if_neg (Bool.eq_false_iff.1 (Document.hasOption_iff.2 List.not_mem_nil)),
        Except.ok.injEq, eq_comm]
    rw [hmeans, Outline.resolve]
    constructor
    · intro h
      split at h
      · nomatch h
      · rename_i hfresh
        cases h
        refine ⟨rfl, fun e he => ?_⟩
        cases he
        exact Bool.eq_false_iff.2 hfresh
    · rintro ⟨rfl, hfresh⟩
      rw [if_neg (Bool.eq_false_iff.1 (hfresh _ rfl))]
  · have hne : ∀ name value, o ≠ .option name value := fun name value h => hoption ⟨name, value, h⟩
    constructor
    · intro h
      obtain ⟨hmeans, hnone⟩ := resolve_elsewhere hne h
      refine ⟨hmeans, fun e he => ?_⟩
      rw [hnone] at he
      nomatch he
    · rintro ⟨h, -⟩
      exact (resolve_elsewhere hne h).1

/-- The outline of a module is read by the rule of modules. -/
theorem run_moduleOutline {name : String} (h : outline.run s = some (.module name body behind, r)) :
    moduleOutline.run s = some (.module name body behind, r) := by
  have hoption : optionOutline.Gives fun o => ∃ n v, o = .option n v :=
    .bind fun _ => .bind fun _ => .bind fun _ => .bind fun _ => .bind fun _ => .pure ⟨_, _, rfl⟩
  have hbuffer : bufferOutline.Gives fun o => ∃ n size home, o = .buffer n size home :=
    .bind fun _ => .bind fun _ => .bind fun _ => .bind fun _ => .pure ⟨_, _, _, rfl⟩
  have hscalar : scalarOutline.Gives fun o => ∃ n size, o = .scalar n size :=
    .bind fun _ => .bind fun _ => .bind fun _ => .pure ⟨_, _, rfl⟩
  have henum : enumOutline.Gives fun o => ∃ n home b, o = .enum n home b :=
    .bind fun _ => .bind fun _ => .bind fun _ => .pure ⟨_, _, _, rfl⟩
  have hbehindOption := hoption.orElse (by rintro ⟨_, _, ⟨⟩⟩) h
  have hbehindBuffer := hbuffer.orElse (by rintro ⟨_, _, _, ⟨⟩⟩) hbehindOption
  have hbehindScalar := hscalar.orElse (by rintro ⟨_, _, ⟨⟩⟩) hbehindBuffer
  exact henum.orElse (by rintro ⟨_, _, _, ⟨⟩⟩) hbehindScalar

/-- What stands behind the opening brace of a module is its body, up to the closing brace. -/
theorem behind_of_run {name : String} (h : outline.run s = some (.module name body behind, r)) :
    behind <:+ s ∧ '\x7d' ∉ body ∧ ∃ x, behind = body ++ '\x7d' :: x := by
  obtain ⟨_, t₁, hname, hrest₁⟩ := run_bind_iff.1 (run_moduleOutline h)
  obtain ⟨⟨body', behind'⟩, t₂, hbraced, hpure⟩ := run_bind_iff.1 hrest₁
  obtain ⟨hsame, -⟩ := run_pure_iff.1 hpure
  cases hsame
  obtain ⟨_, t₃, hopen, hrest₂⟩ := run_bind_iff.1 hbraced
  obtain ⟨_, t₄, hremaining, hrest₃⟩ := run_bind_iff.1 hrest₂
  obtain ⟨_, t₅, hbody, hrest₄⟩ := run_bind_iff.1 hrest₃
  obtain ⟨_, _, -, hpure⟩ := run_bind_iff.1 hrest₄
  obtain ⟨hpair, -⟩ := run_pure_iff.1 hpure
  cases hpair
  obtain ⟨rfl, rfl⟩ := Prod.mk.inj (Option.some.inj (show some (t₃, t₃) = _ from hremaining))
  obtain ⟨hfree, hs⟩ := run_through_iff.1 hbody
  exact ⟨((punctuation _).suffix _ _ _ hopen).trans ((headed _).suffix _ _ _ hname), hfree, t₅, hs⟩

end

/-! ## Places of faults -/

/-- `Blames d s place fault` — behind statements that declare `d`, a text is refused for what stands
at the place: at its own front, or in the body of the module that it starts with. -/
inductive Blames (d : Document) : List Char → List Char → Fault → Prop
  | unexpected {s : List Char} (hne : s ≠ []) (hrun : outline.run s = none) :
    Blames d s s (.unexpected (String.ofList (firstLine s)))
  | repeatedOption {s r : List Char} {name value : String}
    (hrun : outline.run s = some (.option name value, r)) (hname : d.hasOption name = true) :
    Blames d s s (.repeatedOption name)
  | badVariant {s body r : List Char} {name v : String} {home : Option String}
    (hrun : outline.run s = some (.enum name home body, r))
    (hbad : variants body = .error (.badVariant v)) : Blames d s s (.badVariant v)
  | badFunction {s body behind r decl place : List Char} {name text : String}
    (hrun : outline.run s = some (.module name body behind, r))
    (hplace : DeclarationAt behind decl place)
    (hbad : function decl = .error (.badFunction text)) : Blames d s place (.badFunction text)
  | badParameter {s body behind r decl place : List Char} {name text : String}
    (hrun : outline.run s = some (.module name body behind, r))
    (hplace : DeclarationAt behind decl place)
    (hbad : function decl = .error (.badParameter text)) : Blames d s place (.badParameter text)

/-! ### Kinds of faults -/

theorem exists_of_mapM_eq_error {α β ε : Type} {f : α → Except ε β} {as : List α} {e : ε}
    (h : as.mapM f = .error e) : ∃ a ∈ as, f a = .error e := by
  induction as with
  | nil => nomatch h
  | cons a as ih =>
    rw [List.mapM_cons] at h
    rcases bind_eq_error.1 h with ha | ⟨b, -, h⟩
    · exact ⟨a, List.mem_cons_self, ha⟩
    · have h := bind_ok_eq_error.1 h
      obtain ⟨c, hc, hce⟩ := ih h
      exact ⟨c, List.mem_cons_of_mem _ hc, hce⟩

/-- Variants fail for a variant. -/
theorem variants_eq_error {fault : Fault} (h : variants body = .error fault) :
    ∃ text, fault = .badVariant text := by
  obtain ⟨v, -, hv⟩ := exists_of_mapM_eq_error h
  split at hv
  · nomatch hv
  · cases hv
    exact ⟨_, rfl⟩

theorem parameter_eq_error {piece : List Char} {fault : Fault}
    (h : parameter piece = .error fault) : ∃ text, fault = .badParameter text := by
  unfold parameter at h
  dsimp only at h
  split at h
  · split at h
    · nomatch h
    · exact ⟨_, (Except.error.inj h).symm⟩
  · split at h
    · split at h
      · nomatch h
      · exact ⟨_, (Except.error.inj h).symm⟩
    · exact ⟨_, (Except.error.inj h).symm⟩
  · exact ⟨_, (Except.error.inj h).symm⟩

/-- A declaration fails as a whole or for a parameter. -/
theorem function_eq_error {fault : Fault} (h : function decl = .error fault) :
    (∃ text, fault = .badFunction text) ∨ ∃ text, fault = .badParameter text := by
  unfold function at h
  dsimp only at h
  split at h
  · rename_i name list returns fallible _
    have h := bind_ok_eq_error.1 h
    unfold parameters at h
    split at h
    · nomatch h
    · obtain ⟨piece, -, hpiece⟩ := exists_of_mapM_eq_error h
      exact Or.inr (parameter_eq_error hpiece)
  · exact Or.inl ⟨_, (Except.error.inj h).symm⟩

/-! ### The place in the text -/

theorem DeclarationAt.suffix (h : DeclarationAt s decl place) : place <:+ s := by
  cases h with
  | behind => exact (List.suffix_append _ _).trans (List.suffix_append _ _)

theorem DeclarationAt.ne_nil (h : DeclarationAt s decl place) : place ≠ [] := by
  cases h with
  | behind _ _ hne => exact List.append_ne_nil_of_left_ne_nil hne _

variable {fault : Fault}

theorem Blames.suffix (h : Blames d s place fault) : place <:+ s := by
  cases h with
  | unexpected => exact List.suffix_refl _
  | repeatedOption => exact List.suffix_refl _
  | badVariant => exact List.suffix_refl _
  | badFunction hrun hplace => exact hplace.suffix.trans (behind_of_run hrun).1
  | badParameter hrun hplace => exact hplace.suffix.trans (behind_of_run hrun).1

theorem Blames.ne_nil (h : Blames d s place fault) : place ≠ [] := by
  have hadvances : ∀ {s o r}, outline.run s = some (o, r) → s ≠ [] := by
    rintro s o r hrun rfl
    exact absurd (outline_advances _ _ _ hrun) (Nat.not_lt_zero _)
  cases h with
  | unexpected hne => exact hne
  | repeatedOption hrun => exact hadvances hrun
  | badVariant hrun => exact hadvances hrun
  | badFunction _ hplace => exact hplace.ne_nil
  | badParameter _ hplace => exact hplace.ne_nil

/-! ### Lines of places -/

section

variable {o : Outline} {lines line : Nat}

/-- A declaration that is no function is blamed where it stands. -/
theorem Blames.of_declaration {name : String} (h : DeclarationAt behind decl place)
    (hrun : outline.run s = some (.module name body behind, r))
    (hbad : function decl = .error fault) : Blames d s place fault := by
  rcases function_eq_error hbad with ⟨text, rfl⟩ | ⟨text, rfl⟩
  · exact .badFunction hrun h hbad
  · exact .badParameter hrun h hbad

/-- The functions of a module fail in the line of the place. -/
theorem functions_eq_rejected {name : String} (hlines : newlines s ≤ lines)
    (hrun : outline.run s = some (.module name body behind, r)) :
    functions (lines - newlines behind) body = .error (line, fault) ↔
      ∃ decl place, DeclarationAt behind decl place ∧ function decl = .error fault ∧
        line = lines - newlines place := by
  obtain ⟨hsuffix, hfree, x, hbehind⟩ := behind_of_run hrun
  have hle : newlines behind ≤ lines := (newlines_le_of_suffix hsuffix).trans hlines
  rw [functions_eq_error hfree (x := x), ← hbehind]
  refine exists_congr fun decl => exists_congr fun place => and_congr_right fun hplace =>
    and_congr_right fun _ => ?_
  have hle' := newlines_le_of_suffix hplace.suffix
  omega

/-- Only the length of a numeral is wrong with it, and that is no fault of the language. -/
theorem integerOf_ne_rejected (s : List Char) : integerOf s ≠ .error (.rejected line fault) := by
  unfold integerOf
  split
  split <;> exact fun h => nomatch h

/-- An outline is refused for what stands at a place of its statement. -/
theorem resolve_eq_rejected (hlines : newlines s ≤ lines) (hrun : outline.run s = some (o, r)) :
    o.resolve (lines - newlines s) (fun rest => lines - newlines rest) d =
        .error (.rejected line fault) ↔
      ∃ place, Blames d s place fault ∧ line = lines - newlines place := by
  constructor
  · intro h
    cases o with
    | option name value =>
      unfold Outline.resolve at h
      dsimp only at h
      split at h
      · rename_i hname
        cases h
        exact ⟨s, .repeatedOption hrun hname, rfl⟩
      · nomatch h
    | buffer name size home =>
      have h := bind_ok_eq_error.1 h
      exact absurd h (integerOf_ne_rejected size)
    | scalar name size =>
      have h := bind_ok_eq_error.1 h
      exact absurd h (integerOf_ne_rejected size)
    | enum name home body =>
      have h := bind_ok_eq_error.1 h
      obtain ⟨cause, hcause, hsame⟩ := mapError_eq_error.1 h
      cases hsame
      obtain ⟨v, rfl⟩ := variants_eq_error hcause
      exact ⟨s, .badVariant hrun hcause, rfl⟩
    | module name body behind =>
      have h := bind_ok_eq_error.1 h
      obtain ⟨⟨l, cause⟩, hcause, hsame⟩ := mapError_eq_error.1 h
      cases hsame
      obtain ⟨decl, place, hplace, hbad, hl⟩ := (functions_eq_rejected hlines hrun).1 hcause
      exact ⟨place, .of_declaration hplace hrun hbad, hl⟩
  · rintro ⟨place, hblames, rfl⟩
    have hmodule : ∀ {name body behind r' decl},
        outline.run s = some (.module name body behind, r') →
        DeclarationAt behind decl place → function decl = .error fault →
        o.resolve (lines - newlines s) (fun rest => lines - newlines rest) d =
          .error (.rejected (lines - newlines place) fault) := by
      intro name body behind r' decl hrun' hplace hbad
      obtain ⟨rfl, rfl⟩ := Prod.mk.inj (Option.some.inj (hrun.symm.trans hrun'))
      have hfunctions := (functions_eq_rejected hlines hrun).2 ⟨decl, place, hplace, hbad, rfl⟩
      exact bind_eq_error.2 (Or.inl (mapError_eq_error.2 ⟨_, hfunctions, rfl⟩))
    cases hblames with
    | unexpected _ hnone =>
      rw [hnone] at hrun
      nomatch hrun
    | repeatedOption hrun' hname =>
      obtain ⟨rfl, -⟩ := Prod.mk.inj (Option.some.inj (hrun.symm.trans hrun'))
      exact if_pos hname
    | badVariant hrun' hbad =>
      obtain ⟨rfl, -⟩ := Prod.mk.inj (Option.some.inj (hrun.symm.trans hrun'))
      exact bind_eq_error.2 (Or.inl (mapError_eq_error.2 ⟨_, hbad, rfl⟩))
    | badFunction hrun' hplace hbad => exact hmodule hrun' hplace hbad
    | badParameter hrun' hplace hbad => exact hmodule hrun' hplace hbad

end

/-! ## Statement after statement -/

/-- `Taken s all r` — statement after statement is taken off the front of the text, and the next one
should start with `r`. -/
inductive Taken : List Char → List Statement → List Char → Prop
  | nothing {s : List Char} : Taken s [] s
  | statement {s r t : List Char} {o : Outline} {statement : Statement} {all : List Statement}
    (hrun : outline.run s = some (o, r)) (hmeans : o.Means statement)
    (hrest : Taken (trimLeft r) all t) : Taken s (statement :: all) t

/-- What is taken off a text spells the statements. -/
theorem Taken.spells {all : List Statement} (h : Taken s all r) :
    ∃ front, s = front ++ r ∧ Spells.Statements front all := by
  induction h with
  | nothing => exact ⟨[], rfl, .nil blank_nil⟩
  | @statement s r t o statement all hrun hmeans hrest ih =>
    obtain ⟨front, hfront, hall⟩ := ih
    obtain ⟨u, hu, rfl, -⟩ := outline_sound hrun hmeans
    obtain ⟨-, b, hb, hr⟩ := trimLeft_eq_iff.1 (rfl : trimLeft r = _)
    refine ⟨u ++ (b ++ front), ?_, ?_⟩
    · rw [hr, hfront]
      simp only [List.append_assoc]
    · rw [← List.nil_append (u ++ (b ++ front)), ← List.append_assoc]
      exact .cons blank_nil hu (hall.prepend hb)

theorem newlines_trimLeft_le {lines : Nat} {o : Outline} (hlines : newlines s ≤ lines)
    (hrun : outline.run s = some (o, r)) : newlines (trimLeft r) ≤ lines :=
  (newlines_le_of_suffix ((List.dropWhile_suffix isBlank).trans (outline.suffix _ _ _ hrun))).trans
    hlines

section

variable {lines line : Nat} {fault : Fault} {all : List Statement}

/-- A text is refused for what stands behind the statements that can be taken. -/
theorem Taken.statements_eq (h : Taken s all r)
    (hnodup : ((all.foldl Document.add d).options.map Prod.fst).Nodup) :
    statements lines d s = statements lines (all.foldl Document.add d) r := by
  induction h generalizing d with
  | nothing => rfl
  | @statement s r t o statement all hrun hmeans hrest ih =>
    have hfresh := fresh_of_nodup hnodup
    rw [List.foldl_cons, ← ih hnodup]
    cases s with
    | nil => exact absurd (outline_advances _ _ _ hrun) (Nat.not_lt_zero _)
    | cons c s =>
      rw [statements]
      split
      · rename_i hnone
        rw [hrun] at hnone
        cases hnone
      · rename_i found rest hrun'
        obtain ⟨rfl, rfl⟩ := Prod.mk.inj (Option.some.inj (hrun.symm.trans hrun'))
        rw [resolve_eq_ok.2 ⟨hmeans, hfresh⟩]

theorem Taken.suffix (h : Taken s all r) : r <:+ s := by
  obtain ⟨front, hs, -⟩ := h.spells
  exact ⟨front, hs.symm⟩

/-- What is blamed stands behind an outline, or where there is none. -/
theorem Blames.run (h : Blames d s place fault) :
    (outline.run s = none ∧ place = s ∧ fault = .unexpected (String.ofList (firstLine s))) ∨
      ∃ o r, outline.run s = some (o, r) := by
  cases h with
  | unexpected _ hrun => exact Or.inl ⟨hrun, rfl, rfl⟩
  | repeatedOption hrun => exact Or.inr ⟨_, _, hrun⟩
  | badVariant hrun => exact Or.inr ⟨_, _, hrun⟩
  | badFunction hrun => exact Or.inr ⟨_, _, hrun⟩
  | badParameter hrun => exact Or.inr ⟨_, _, hrun⟩

theorem Blames.statements_eq (h : Blames d s place fault) (hlines : newlines s ≤ lines) :
    statements lines d s = .error (.rejected (lines - newlines place) fault) := by
  cases s with
  | nil => exact absurd (List.suffix_nil.1 h.suffix) h.ne_nil
  | cons c s =>
    rw [statements]
    rcases h.run with ⟨hrun, rfl, rfl⟩ | ⟨o, r, hrun⟩
    · split
      · rfl
      · rename_i hsome
        rw [hrun] at hsome
        cases hsome
    · split
      · rename_i hnone
        rw [hrun] at hnone
        cases hnone
      · rename_i found rest hrun'
        rw [(resolve_eq_rejected hlines hrun').2 ⟨place, h, rfl⟩]

/-- A text is refused exactly for what stands at a place behind the statements that are taken. -/
theorem statements_eq_rejected (hlines : newlines s ≤ lines)
    (hd : (d.options.map Prod.fst).Nodup) :
    statements lines d s = .error (.rejected line fault) ↔
      ∃ all r place, Taken s all r ∧
        ((all.foldl Document.add d).options.map Prod.fst).Nodup ∧
        Blames (all.foldl Document.add d) r place fault ∧ line = lines - newlines place := by
  constructor
  · intro h
    fun_induction statements lines d s with
    | case1 => cases h
    | case2 d lineOf c t hrun =>
      cases h
      exact ⟨[], c :: t, c :: t, .nothing, hd, .unexpected (List.cons_ne_nil c t) hrun, rfl⟩
    | case3 d lineOf c t found rest hrun e hresolve =>
      cases h
      obtain ⟨place, hblames, hline⟩ := (resolve_eq_rejected hlines hrun).1 hresolve
      exact ⟨[], c :: t, place, .nothing, hd, hblames, hline⟩
    -- What is let through is taken, and its option is one more that may not be set again.
    | case4 d lineOf c t found rest hrun statement hresolve ih =>
      obtain ⟨hmeans, hfresh⟩ := resolve_eq_ok.1 hresolve
      obtain ⟨all, r, place, htaken, hnodup, hblames, hline⟩ :=
        ih (newlines_trimLeft_le hlines hrun) ((nodup_add hd).1 hfresh) h
      exact ⟨statement :: all, r, place, .statement hrun hmeans htaken, hnodup, hblames, hline⟩
  · rintro ⟨all, r, place, htaken, hnodup, hblames, rfl⟩
    rw [htaken.statements_eq hnodup]
    exact hblames.statements_eq ((newlines_le_of_suffix htaken.suffix).trans hlines)

end

/-! ## Texts with their comments -/

theorem dropLineComments_sublist (inside : Bool) (s : List Char) :
    (dropLineComments inside s).Sublist s := by
  fun_induction dropLineComments inside s with
  | case1 => exact .slnil
  | case2 _ ih => exact ih.cons _
  | case3 _ _ _ ih => exact (ih.cons _).cons _
  | case4 _ _ _ _ _ ih => exact ih.cons_cons _
  | case5 _ _ _ _ ih => exact ih.cons _
  | case6 _ _ _ _ _ _ ih => exact ih.cons_cons _

theorem dropBlockComments_sublist (inside : Bool) (s : List Char) :
    (dropBlockComments inside s).Sublist s := by
  fun_induction dropBlockComments inside s with
  | case1 => exact .slnil
  | case2 _ ih => exact (ih.cons _).cons _
  | case3 _ _ _ _ ih => exact ih.cons_cons _
  | case4 _ _ _ _ ih => exact ih.cons _
  | case5 _ _ ih => exact (ih.cons _).cons _
  | case6 => exact .refl _
  | case7 _ _ _ ih => exact ih.cons_cons _

/-- Taking comments out leaves what is left in its order. -/
theorem stripComments_sublist (s : List Char) : (stripComments s).Sublist s :=
  (dropBlockComments_sublist false _).trans (dropLineComments_sublist false s)

/-- `LeftAt text a b front c rest` — the character between `a` and `b` is left over from the text,
with `front` from what is before it and `rest` from what is behind it. -/
structure LeftAt (text a b front : List Char) (c : Char) (rest : List Char) : Prop where
  here : text = a ++ c :: b
  before : front.Sublist a
  behind : rest.Sublist b

section

variable {text front rest : List Char} {c : Char} {line : Nat} {fault : Fault}

/-- Every character that is left stood somewhere. -/
theorem exists_leftAt (h : stripComments text = front ++ c :: rest) :
    ∃ a b, LeftAt text a b front c rest := by
  have hsub := stripComments_sublist text
  rw [h] at hsub
  obtain ⟨a, behind, htext, ha, hbehind⟩ := List.append_sublist_iff.1 hsub
  obtain ⟨x, b, rfl, hc, hb⟩ := List.cons_sublist_iff.1 hbehind
  obtain ⟨y, z, rfl⟩ := List.append_of_mem hc
  refine ⟨a ++ y, z ++ b, ?_, ha.trans (List.sublist_append_left a y),
    hb.trans (List.sublist_append_right z b)⟩
  rw [htext]
  simp only [List.append_assoc, List.cons_append]

/-- Before a character that is left there are as many line feeds as before the place that it came
from: neither part of the text has lost one. -/
theorem newlines_eq_of_left {a b : List Char} (h : stripComments text = front ++ c :: rest)
    (hleft : LeftAt text a b front c rest) : newlines front = newlines a := by
  have hall := newlines_stripComments text
  rw [h, hleft.here, newlines_append, newlines_append, ← List.singleton_append,
    ← List.singleton_append (l := b), newlines_append [c], newlines_append [c]] at hall
  have hfront : newlines front ≤ newlines a := hleft.before.count_le _
  have hrest : newlines rest ≤ newlines b := hleft.behind.count_le _
  omega

/-- `Offends s place fault` — the text without comments is refused for what stands at the place. -/
def Offends (s place : List Char) (fault : Fault) : Prop :=
  ∃ all r, Taken (trimLeft s) all r ∧
    ((Document.ofStatements all).options.map Prod.fst).Nodup ∧
    Blames (.ofStatements all) r place fault

theorem Offends.suffix (h : Offends s place fault) : place <:+ s := by
  obtain ⟨all, r, htaken, -, hblames⟩ := h
  exact hblames.suffix.trans (htaken.suffix.trans (List.dropWhile_suffix isBlank))

theorem read_eq_rejected :
    Document.read text = .error (.rejected line fault) ↔
      ∃ place, Offends (stripComments text) place fault ∧
        line + newlines place = newlines (stripComments text) + 1 := by
  have hlines : newlines (trimLeft (stripComments text)) ≤ newlines (stripComments text) + 1 :=
    (newlines_le_of_suffix (List.dropWhile_suffix isBlank)).trans (Nat.le_succ _)
  have hempty : (Document.empty.options.map Prod.fst).Nodup := List.nodup_nil
  unfold Document.read Offends
  dsimp only
  rw [statements_eq_rejected hlines hempty]
  simp only [Document.foldl_add_empty]
  constructor
  · rintro ⟨all, r, place, htaken, hnodup, hblames, rfl⟩
    have hplace := newlines_le_of_suffix (Offends.suffix ⟨all, r, htaken, hnodup, hblames⟩)
    exact ⟨place, ⟨all, r, htaken, hnodup, hblames⟩, by omega⟩
  · rintro ⟨place, ⟨all, r, htaken, hnodup, hblames⟩, hline⟩
    exact ⟨all, r, place, htaken, hnodup, hblames, by omega⟩

/-- **Faults are reported at the line where the construct starts.**  A text is refused with a line
and a fault exactly when it offends by this fault at a character of what is left of it without
comments, and the line is that of this character in the text itself, comments and all: one more than
the line feeds before it, wherever in the text it was left over from. -/
theorem read_rejected_at (text : List Char) (line : Nat) (fault : Fault) :
    Document.read text = .error (.rejected line fault) ↔
      ∃ front c rest, stripComments text = front ++ c :: rest ∧
        Offends (stripComments text) (c :: rest) fault ∧
        (∃ a b, LeftAt text a b front c rest) ∧
        ∀ a b, LeftAt text a b front c rest → line = newlines a + 1 := by
  rw [read_eq_rejected]
  have hline : ∀ {front c rest}, stripComments text = front ++ c :: rest →
      (line + newlines (c :: rest) = newlines (stripComments text) + 1 ↔
        line = newlines front + 1) := by
    intro front c rest h
    rw [h, newlines_append]
    omega
  constructor
  · rintro ⟨place, hoffends, hl⟩
    obtain ⟨front, hfront⟩ := hoffends.suffix
    have hne : place ≠ [] := by
      obtain ⟨_, _, _, _, hblames⟩ := hoffends
      exact hblames.ne_nil
    obtain ⟨c, rest, rfl⟩ := List.exists_cons_of_ne_nil hne
    refine ⟨front, c, rest, hfront.symm, hoffends, exists_leftAt hfront.symm, fun a b hleft => ?_⟩
    rw [(hline hfront.symm).1 hl, newlines_eq_of_left hfront.symm hleft]
  · rintro ⟨front, c, rest, hstrip, hoffends, ⟨a, b, hleft⟩, hl⟩
    refine ⟨c :: rest, hoffends, (hline hstrip).2 ?_⟩
    rw [hl a b hleft, newlines_eq_of_left hstrip hleft]

/-- A parameter without a type, behind comments and another declaration: its function starts on the
fifth line. -/
example :
    Document.read "// keys\nmodule auth \x7b /* two\nlines */ f(Key k);\n\n g(x); \x7d".toList =
      .error (.rejected 5 (.badParameter "x")) := by
  decide +kernel

end

end Bindery.Idl
