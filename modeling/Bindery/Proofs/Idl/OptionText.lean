/-
  OPTIONS WRITTEN OUT AND READ AGAIN.

  Between quotes a text is written with a backslash before each backslash and each quote, and the
  grammar reads it back from that, whatever it holds (`literal_escape`).  Comments are taken out
  before there is a grammar, and literals are no shelter from that: options come back exactly if no
  comment is seen in what is written (`read_optionText`).  That is so if no value holds one, and no
  value opens a block comment that a later one closes.

  That nothing less will do is told by the slashes.  All slashes of the text stand in the values
  (`count_optionText`), a text that spells the values has as many (`count_options_le`), and a comment
  takes some away.
-/
import Bindery.Proofs.Idl.Printing
import Bindery.Proofs.Idl.Passes

namespace Bindery.Idl

open Text

variable {v s t r : List Char} {c d : Char} {o : String × String} {os : List (String × String)}

/-! ## Texts between quotes -/

/-- A character as it is written between quotes. -/
def escapeChar (c : Char) : List Char := if c = '\\' ∨ c = '"' then ['\\', c] else [c]

/-- A text as it is written between quotes. -/
def escape (v : List Char) : List Char := v.flatMap escapeChar

/-- `IsPlain c` — a character that is written as it is. -/
def IsPlain (c : Char) : Prop := ¬(c = '\\' ∨ c = '"')

instance (c : Char) : Decidable (IsPlain c) := inferInstanceAs (Decidable (¬_))

theorem escape_cons_plain (hc : IsPlain c) : escape (c :: v) = c :: escape v := by
  rw [escape, List.flatMap_cons, escapeChar, if_neg hc]
  rfl

theorem escape_cons_special (hc : ¬IsPlain c) : escape (c :: v) = '\\' :: c :: escape v := by
  rw [escape, List.flatMap_cons, escapeChar, if_pos (Decidable.not_not.1 hc)]
  rfl

/-- What is written between quotes stands for the text. -/
theorem literal_escape (v : List Char) : Spells.Literal (escape v) v := by
  induction v with
  | nil => exact .nil
  | cons c v ih =>
    by_cases hc : IsPlain c
    · rw [escape_cons_plain hc]
      exact .char (fun h => hc (Or.inr h)) (fun h => hc (Or.inl h)) ih
    · rw [escape_cons_special hc]
      rcases Decidable.not_not.1 hc with rfl | rfl
      · exact .escaped (by decide) (by decide) (by decide) ih
      · exact .escaped (by decide) (by decide) (by decide) ih

theorem ne_of_isPlain (hd : IsPlain d) (hc : ¬IsPlain c) : c ≠ d := fun h => hc (h ▸ hd)

/-- A plain character is written first exactly if it comes first. -/
theorem escape_eq_cons (hd : IsPlain d) {u : List Char} :
    escape v = d :: u ↔ ∃ w, v = d :: w ∧ escape w = u := by
  have hback : ('\\' : Char) ≠ d := fun h => hd (Or.inl h.symm)
  cases v with
  | nil => simp [escape]
  | cons c v =>
    by_cases hc : IsPlain c
    · simp [escape_cons_plain hc]
    · simp [escape_cons_special hc, hback, ne_of_isPlain hd hc]

/-- Two plain characters stand in a row in what is written exactly where they do in the text. -/
theorem infix_escape (hc : IsPlain c) (hd : IsPlain d) : [c, d] <:+: escape v ↔ [c, d] <:+: v := by
  induction v with
  | nil => rfl
  | cons e v ih =>
    by_cases he : IsPlain e
    · have hfront : [c, d] <+: e :: escape v ↔ [c, d] <+: e :: v := by
        rw [prefix_pair_iff, prefix_pair_iff]
        simp [escape_eq_cons hd]
      rw [escape_cons_plain he, List.infix_cons_iff, List.infix_cons_iff, hfront, ih]
    · rw [escape_cons_special he, infix_pair_cons fun h => hc (Or.inl h.symm),
        infix_pair_cons (ne_of_isPlain hc he), infix_pair_cons (ne_of_isPlain hc he), ih]

theorem holdsBlock_escape : HoldsBlock (escape v) ↔ HoldsBlock v := by
  have hslash : IsPlain '/' := by decide
  have hstar : IsPlain '*' := by decide
  have hend : ∀ {w}, ['*', '/'] <:+: escape w ↔ ['*', '/'] <:+: w := infix_escape hstar hslash
  induction v with
  | nil => rfl
  | cons e v ih =>
    by_cases he : IsPlain e
    · have hfront : (∃ u, e = '/' ∧ escape v = '*' :: u ∧ ['*', '/'] <:+: u) ↔
          ∃ w, e = '/' ∧ v = '*' :: w ∧ ['*', '/'] <:+: w := by
        constructor
        · rintro ⟨u, he, hv, hu⟩
          obtain ⟨w, hw, rfl⟩ := (escape_eq_cons hstar).1 hv
          exact ⟨w, he, hw, hend.1 hu⟩
        · rintro ⟨w, he, hv, hw⟩
          exact ⟨escape w, he, (escape_eq_cons hstar).2 ⟨w, hv, rfl⟩, hend.2 hw⟩
      rw [escape_cons_plain he, holdsBlock_cons, holdsBlock_cons, hfront]
      exact or_congr_right ih
    · have hskip : ∀ {c : Char} {s : List Char}, c ≠ '/' → (HoldsBlock (c :: s) ↔ HoldsBlock s) :=
        fun hc => holdsBlock_cons.trans (or_iff_right fun ⟨_, h, _⟩ => hc h)
      rw [escape_cons_special he, hskip (by decide), hskip (ne_of_isPlain hslash he),
        hskip (ne_of_isPlain hslash he)]
      exact ih

/-- A text holds a comment as it is written exactly if it does as it is. -/
theorem holdsComment_escape : HoldsComment (escape v) ↔ HoldsComment v :=
  or_congr (infix_escape (by decide) (by decide)) holdsBlock_escape

theorem count_escape (v : List Char) : (escape v).count '/' = v.count '/' := by
  induction v with
  | nil => rfl
  | cons c v ih =>
    by_cases hc : IsPlain c
    · rw [escape_cons_plain hc, List.count_cons, List.count_cons, ih]
    · rw [escape_cons_special hc, List.count_cons_of_ne (by decide), List.count_cons, List.count_cons,
        ih]

/-! ## Options -/

/-- An option on a line of its own. -/
def optionLine (o : String × String) : List Char :=
  "option ".toList ++ o.1.toList ++ " = ".toList ++ '"' :: escape o.2.toList ++ ['"', ';', '\n']

/-- Options, one after the other. -/
def optionText (os : List (String × String)) : List Char := os.flatMap optionLine

theorem optionText_cons :
    optionText (o :: os) = ("option ".toList ++ o.1.toList ++ " = ".toList) ++
      '"' :: (escape o.2.toList ++ '"' :: ([';'] ++ '\n' :: optionText os)) := by
  have hline : optionText (o :: os) = optionLine o ++ optionText os := List.flatMap_cons
  rw [hline]
  unfold optionLine
  simp only [List.append_assoc, List.cons_append, List.nil_append]

/-- A statement of a line. -/
theorem spells_option (hname : IsWord o.1) :
    Spells.Statement ("option ".toList ++ o.1.toList ++ " = ".toList ++ '"' :: escape o.2.toList ++
      ['"', ';']) (.option o.1 o.2) := by
  have hspelled := Spells.Statement.option gap_space hname blank_space blank_space
    (literal_escape o.2.toList) blank_nil
  have hkeyword : "option ".toList = ['o', 'p', 't', 'i', 'o', 'n', ' '] := by decide
  have hequals : " = ".toList = [' ', '=', ' '] := by decide
  rw [hkeyword, hequals]
  simp only [List.append_assoc, List.cons_append, List.nil_append] at hspelled ⊢
  exact hspelled

theorem spells_optionText (h : ∀ o ∈ os, IsWord o.1) :
    Spells.Statements (optionText os) (os.map fun o => .option o.1 o.2) := by
  induction os with
  | nil => exact .nil blank_nil
  | cons o os ih =>
    obtain ⟨hname, hrest⟩ := List.forall_mem_cons.1 h
    have hspelled := Spells.Statements.cons blank_nil (spells_option hname)
      ((ih hrest).prepend blank_line)
    rw [optionText_cons]
    simp only [List.append_assoc, List.cons_append, List.nil_append] at hspelled ⊢
    exact hspelled

theorem ofStatements_options (os : List (String × String)) :
    Document.ofStatements (os.map fun o => .option o.1 o.2) = ⟨os, [], []⟩ := by
  induction os with
  | nil => rfl
  | cons o os ih =>
    obtain ⟨hoptions, htypes, hmodules⟩ := Document.mk.inj ih
    refine Document.mk.injEq .. ▸ ⟨?_, htypes, hmodules⟩
    exact congrArg (o :: ·) hoptions

/-! ## Comments in options -/

/-- The name and the signs of a line hold no slash and no star. -/
theorem not_mem_optionHead (hname : IsWord o.1) (hc : c = '/' ∨ c = '*') :
    c ∉ "option ".toList ++ o.1.toList ++ " = ".toList := by
  have hmark : IsMark c := by rcases hc with rfl | rfl <;> decide
  have hsigns : c ∉ "option ".toList ∧ c ∉ " = ".toList := by rcases hc with rfl | rfl <;> decide
  simp only [List.mem_append]
  rintro ((h | h) | h)
  · exact hsigns.1 h
  · exact hmark.not_mem_word hname h
  · exact hsigns.2 h

/-- Two slashes or stars in a row in a line are in its value. -/
theorem infix_optionText_cons (hname : IsWord o.1) (hc : c = '/' ∨ c = '*') (hd : d = '/' ∨ d = '*') :
    [c, d] <:+: optionText (o :: os) ↔ [c, d] <:+: o.2.toList ∨ [c, d] <:+: optionText os := by
  have hhead : ¬[c, d] <:+: "option ".toList ++ o.1.toList ++ " = ".toList := fun h =>
    not_mem_optionHead hname hc (h.subset List.mem_cons_self)
  have hother : (IsPlain c ∧ IsPlain d) ∧ ('"' ≠ c ∧ '"' ≠ d) ∧ '\n' ≠ c ∧ '\n' ≠ d := by
    rcases hc with rfl | rfl <;> rcases hd with rfl | rfl <;> decide
  obtain ⟨⟨hplain, hplain'⟩, ⟨hc', hd'⟩, hc'', hd''⟩ := hother
  have hend : ¬[c, d] <:+: [';'] := fun h => absurd h.length_le (Nat.not_succ_le_self 1)
  rw [optionText_cons, infix_pair_append hc' hd', infix_pair_append hc' hd',
    infix_pair_append hc'' hd'', infix_escape hplain hplain', or_iff_right hhead, or_iff_right hend]

/-- A comment in options is in one value, or in the rest, or it is a block comment over both. -/
theorem holdsComment_optionText_cons (hname : IsWord o.1) :
    HoldsComment (optionText (o :: os)) ↔ HoldsComment o.2.toList ∨ HoldsComment (optionText os) ∨
      ['/', '*'] <:+: o.2.toList ∧ ['*', '/'] <:+: optionText os := by
  have hhead : '/' ∉ "option ".toList ++ o.1.toList ++ " = ".toList :=
    not_mem_optionHead hname (Or.inl rfl)
  have hopens : ¬['/', '*'] <:+: "option ".toList ++ o.1.toList ++ " = ".toList := fun h =>
    hhead (h.subset List.mem_cons_self)
  have hend : ¬['*', '/'] <:+: [';'] := by decide
  have hend' : ¬HoldsComment [';'] := not_holdsComment_of_no_slash (by decide)
  have hend'' : ¬['/', '*'] <:+: [';'] := by decide
  rw [optionText_cons, holdsComment_append (by decide) (by decide),
    holdsComment_append (by decide) (by decide), holdsComment_append (by decide) (by decide),
    infix_pair_append (by decide) (by decide), infix_pair_append (by decide) (by decide),
    holdsComment_escape, infix_escape (by decide) (by decide)]
  have hhead' := not_holdsComment_of_no_slash hhead
  tauto

/-- Options hold a comment exactly if one of their values does, or one opens a block comment that a
later one closes. -/
theorem holdsComment_optionText (hnames : ∀ o ∈ os, IsWord o.1) : ¬HoldsComment (optionText os) ↔
    (∀ o ∈ os, ¬HoldsComment o.2.toList) ∧
      os.Pairwise fun o o' => ['/', '*'] <:+: o.2.toList → ¬['*', '/'] <:+: o'.2.toList := by
  -- A comment that one value opens ends in whichever later value closes it first.
  have hcloses : ∀ {os : List (String × String)}, (∀ o ∈ os, IsWord o.1) →
      (['*', '/'] <:+: optionText os ↔ ∃ o ∈ os, ['*', '/'] <:+: o.2.toList) := by
    intro os hnames
    induction os with
    | nil => simp [optionText]
    | cons o os ih =>
      obtain ⟨hname, hrest⟩ := List.forall_mem_cons.1 hnames
      rw [infix_optionText_cons hname (Or.inr rfl) (Or.inl rfl), ih hrest, List.exists_mem_cons_iff]
  induction os with
  | nil =>
    exact iff_of_true (not_holdsComment_of_no_slash List.not_mem_nil)
      ⟨fun _ h => (nomatch h), .nil⟩
  | cons o os ih =>
    obtain ⟨hname, hrest⟩ := List.forall_mem_cons.1 hnames
    rw [holdsComment_optionText_cons hname, hcloses hrest, List.forall_mem_cons, List.pairwise_cons]
    have hopens : (¬(['/', '*'] <:+: o.2.toList ∧ ∃ o' ∈ os, ['*', '/'] <:+: o'.2.toList)) ↔
        ∀ o' ∈ os, ['/', '*'] <:+: o.2.toList → ¬['*', '/'] <:+: o'.2.toList := by
      push Not
      exact ⟨fun h o' ho hopen => h hopen o' ho, fun h hopen o' ho => h o' ho hopen⟩
    rw [not_or, not_or, hopens, and_assoc]
    constructor
    · rintro ⟨hvalue, hnone, hover⟩
      obtain ⟨hvalues, hpairs⟩ := (ih hrest).1 hnone
      exact ⟨hvalue, hvalues, hover, hpairs⟩
    · rintro ⟨hvalue, hvalues, hover, hpairs⟩
      exact ⟨hvalue, (ih hrest).2 ⟨hvalues, hpairs⟩, hover⟩

/-! ## Slashes -/

/-- The slashes of options are those of their values. -/
theorem count_optionText (hnames : ∀ o ∈ os, IsWord o.1) :
    (optionText os).count '/' = (os.flatMap (·.2.toList)).count '/' := by
  induction os with
  | nil => rfl
  | cons o os ih =>
    obtain ⟨hname, hrest⟩ := List.forall_mem_cons.1 hnames
    have hhead := List.count_eq_zero.2 (not_mem_optionHead hname (Or.inl rfl))
    rw [optionText_cons, List.count_append, hhead, List.flatMap_cons, List.count_append]
    simp [count_escape, ih hrest]

/-- A literal has the slashes of its text, and may have more. -/
theorem Spells.Literal.count_le {l : List Char} (h : Spells.Literal l v) : v.count '/' ≤ l.count '/' := by
  induction h with
  | nil => exact Nat.le_refl _
  | char _ _ _ ih =>
    rw [List.count_cons, List.count_cons]
    exact Nat.add_le_add_right ih _
  | newline _ ih => exact ih
  | tabulator _ ih => exact ih
  | escaped _ _ _ _ ih =>
    rw [List.count_cons, List.count_cons_of_ne (by decide), List.count_cons]
    exact Nat.add_le_add_right ih _

/-- A statement has the slashes of the value that it sets, and may have more. -/
theorem Spells.Statement.count_le {statement : Idl.Statement} (h : Spells.Statement t statement) :
    (statement.option?.elim 0 fun o => o.2.toList.count '/') ≤ t.count '/' := by
  cases h with
  | option hg hname h₁ h₂ hvalue h₃ =>
    rename_i g b₁ b₂ literal b₃ name value
    have hin : literal <:+: ['o', 'p', 't', 'i', 'o', 'n'] ++ g ++ name.toList ++ b₁ ++ '=' :: b₂ ++
        '"' :: literal ++ '"' :: b₃ ++ [';'] :=
      ⟨['o', 'p', 't', 'i', 'o', 'n'] ++ g ++ name.toList ++ b₁ ++ '=' :: b₂ ++ ['"'],
        '"' :: b₃ ++ [';'], by simp only [List.append_assoc, List.cons_append, List.nil_append]⟩
    exact hvalue.count_le.trans (hin.sublist.count_le _)
  | _ => exact Nat.zero_le _

/-- What spells options has the slashes of their values, and may have more. -/
theorem count_options_le {all : List Statement} (h : Spells.Statements s all) :
    ((Document.ofStatements all).options.flatMap (·.2.toList)).count '/' ≤ s.count '/' := by
  induction h with
  | nil hb => exact Nat.zero_le _
  | cons hb ht hs ih =>
    rename_i b t s statement rest
    have hle := ht.count_le
    have hcount : ((Document.ofStatements (statement :: rest)).options.flatMap
        (·.2.toList)).count '/' = (statement.option?.elim 0 fun o => o.2.toList.count '/') +
          ((Document.ofStatements rest).options.flatMap (·.2.toList)).count '/' := by
      unfold Document.ofStatements
      cases statement <;> simp [List.filterMap_cons, Statement.option?]
    rw [hcount, List.count_append, List.count_append]
    omega

/-! ## Reading -/

/-- **Options are read again exactly if nothing in them looks like a comment**: no value holds two
slashes or a whole block comment, and no value opens a block comment that a later one closes.  Their
values may hold whatever else, quotes, backslashes and line feeds too. -/
theorem read_optionText (hnames : ∀ o ∈ os, IsWord o.1) (hnodup : (os.map Prod.fst).Nodup) :
    Document.read (optionText os) = .ok ⟨os, [], []⟩ ↔
      (∀ o ∈ os, ¬HoldsComment o.2.toList) ∧
        os.Pairwise fun o o' => ['/', '*'] <:+: o.2.toList → ¬['*', '/'] <:+: o'.2.toList := by
  rw [← holdsComment_optionText hnames, read_iff]
  constructor
  · intro hread hcomment
    have hlt := count_stripComments_lt hcomment
    have hspelled : ∃ all, Spells.Statements (stripComments (optionText os)) all ∧
        (Document.ofStatements all).options = os := by
      generalize hd : (⟨os, [], []⟩ : Idl.Document) = d at hread
      obtain ⟨hall, _⟩ := hread
      exact ⟨_, hall, by rw [← hd]⟩
    obtain ⟨all, hall, hoptions⟩ := hspelled
    have hle := count_options_le hall
    rw [hoptions, ← count_optionText hnames] at hle
    exact absurd hlt (Nat.not_lt.2 hle)
  · intro hcomment
    rw [stripComments_eq_iff.2 hcomment, ← ofStatements_options]
    refine .declared (spells_optionText hnames) ?_
    rw [ofStatements_options]
    exact hnodup

/-- Values with a quote, a backslash at the end, a line feed, a slash and a sign that opens a comment,
and one that closes it before. -/
def oddOptions : List (String × String) := [("close", "a*/ \"b\" \\"), ("open", "n\\n/\n/*")]

/-- The address of a page. -/
def addressOption : List (String × String) := [("url", "http://a")]

theorem read_optionText_odd :
    (∀ o ∈ oddOptions ++ addressOption, IsWord o.1) ∧ (oddOptions.map Prod.fst).Nodup ∧
      Document.read (optionText oddOptions) = .ok ⟨oddOptions, [], []⟩ ∧
      Document.read (optionText addressOption) ≠ .ok ⟨addressOption, [], []⟩ := by
  have hwords : ∀ o ∈ oddOptions ++ addressOption, IsWord o.1 := by
    have hchars : ∀ o ∈ oddOptions ++ addressOption, o.1.toList ≠ [] ∧ o.1.toList.all isWord = true := by
      decide +kernel
    exact fun o ho => ⟨(hchars o ho).1, List.all_eq_true.1 (hchars o ho).2⟩
  have hodd : ∀ o ∈ oddOptions, IsWord o.1 := fun o ho => hwords o (List.mem_append_left _ ho)
  have haddress : ∀ o ∈ addressOption, IsWord o.1 := fun o ho => hwords o (List.mem_append_right _ ho)
  have hnodup : (oddOptions.map Prod.fst).Nodup := by decide +kernel
  have hnone : ∀ o ∈ oddOptions, stripComments o.2.toList = o.2.toList := by decide +kernel
  have hsome : ∃ o ∈ addressOption, ¬stripComments o.2.toList = o.2.toList := by decide +kernel
  refine ⟨hwords, hnodup, (read_optionText hodd hnodup).2 ⟨?_, by decide +kernel⟩, fun hread => ?_⟩
  · exact fun o ho => stripComments_eq_iff.1 (hnone o ho)
  · obtain ⟨o, ho, hchanged⟩ := hsome
    have hclean := ((read_optionText haddress (by decide +kernel)).1 hread).1 o ho
    exact hchanged (stripComments_eq_iff.2 hclean)

end Bindery.Idl
