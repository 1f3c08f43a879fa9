/-
  WHAT IS PRINTED IS READ.

  A statement whose names are words is printed as a derivation of itself (`spells_print`), whatever
  the words are: a name may be a keyword too.  Printed statements hold no slash, so nothing in them
  is taken for a comment, and reading them comes back to what was printed (`read_printAll`).
-/
import Bindery.Proofs.Idl.Acceptance

namespace Bindery.Idl

open Text

/-! ## Printing -/

/-- Texts one after the other, with a comma and a space between two of them. -/
def commaList : List (List Char) → List Char
  | [] => []
  | [t] => t
  | t :: ts => t ++ ',' :: ' ' :: commaList ts

/-- A size in brackets. -/
def printSize (n : Int) : List Char := '[' :: (Decimal.integer n).toList ++ [']']

/-- The module of a type that is placed. -/
def printPlacement : Option String → List Char
  | none => []
  | some home => [' ', 'i', 'n', ' '] ++ home.toList

/-- The statement of a type. -/
def TypeDecl.print (t : TypeDecl) : List Char :=
  match t.body with
  | .buffer n =>
    "buffer ".toList ++ t.name.toList ++ printSize n ++ printPlacement t.placement ++ [';']
  | .scalar n => "scalar ".toList ++ t.name.toList ++ printSize n ++ [';']
  | .enum vs => "enum ".toList ++ t.name.toList ++ printPlacement t.placement ++ [' ', '\x7b'] ++
      commaList (vs.map String.toList) ++ ['\x7d', ';']

/-- A parameter with its direction. -/
def ParameterDecl.print (p : ParameterDecl) : List Char :=
  (directionName p.direction).toList ++ [' '] ++ p.type.toList ++ [' '] ++ p.name.toList

/-- The type of a result, if there is one. -/
def printReturns : Option String → List Char
  | none => []
  | some type => [' ', '-', '>', ' '] ++ type.toList

/-- A function without its mark. -/
def FunctionDecl.printForm (f : FunctionDecl) : List Char :=
  f.name.toList ++ ['('] ++ commaList (f.parameters.map ParameterDecl.print) ++ [')'] ++
    printReturns f.returns

/-- A function. -/
def FunctionDecl.print (f : FunctionDecl) : List Char :=
  if f.fallible then "fallible ".toList ++ f.printForm else f.printForm

/-- The functions of a module, each on a line of its own. -/
def printFunctions (fs : List FunctionDecl) : List Char :=
  fs.flatMap fun f => ['\n', ' ', ' '] ++ f.print ++ [';']

/-- The statement of a module. -/
def ModuleDecl.print (m : ModuleDecl) : List Char :=
  "module ".toList ++ m.name.toList ++ [' ', '\x7b'] ++ printFunctions m.functions ++
    ['\n', '\x7d', ';']

/-- The statement that declares a type or a module. -/
def Statement.print : Statement → List Char
  | .option _ _ => []
  | .type t => t.print
  | .module m => m.print

/-- Statements, each on a line of its own. -/
def printAll (all : List Statement) : List Char := all.flatMap fun s => s.print ++ ['\n']

/-! ## Numbers -/

theorem digitValue_digitChar {d : Nat} (h : d < 10) : digitValue? d.digitChar = some d := by
  have hall : ∀ d < 10, digitValue? (Nat.digitChar d) = some d := by decide
  exact hall d h

theorem spells_digits (n : Nat) : Spells.Numeral (Nat.toDigits 10 n) n := by
  induction n using Nat.strongRecOn with
  | ind n ih =>
    rw [Nat.toDigits_eq_if (by decide)]
    by_cases hlt : n < 10
    · rw [if_pos hlt]
      exact .digit (digitValue_digitChar hlt)
    · rw [if_neg hlt]
      have hspelled : Spells.Numeral _ (10 * (n / 10) + n % 10) :=
        .next (ih (n / 10) (by omega)) (digitValue_digitChar (Nat.mod_lt n (by decide)))
      rwa [Nat.div_add_mod] at hspelled

/-- The digits of a number below a power of ten are at most as many as its exponent. -/
theorem length_digits {n k : Nat} (hk : 0 < k) (h : n < Nat.pow 10 k) :
    (Nat.toDigits 10 n).length ≤ k :=
  (Nat.length_toDigits_le_iff (by decide) hk).2 h

theorem spells_integer {n : Int} (h : Decimal.isShort n = true) :
    Spells.Integer (Decimal.integer n).toList n := by
  have hlt : n.natAbs < Nat.pow 10 Decimal.maxDigits := of_decide_eq_true h
  have hpos : 0 < Decimal.maxDigits := by decide
  unfold Decimal.integer
  cases n with
  | ofNat n =>
    rw [String.toList_ofList]
    exact .plain (spells_digits n) (length_digits hpos hlt)
  | negSucc n =>
    rw [String.toList_ofList]
    exact .minus (spells_digits (n + 1)) (length_digits hpos hlt)

theorem spells_size {n : Int} (h : Decimal.isShort n = true) : Spells.Size (printSize n) n := by
  have hspelled := Spells.Size.bracketed blank_nil blank_nil (spells_integer h) blank_nil
  simp only [List.nil_append, List.append_nil, List.cons_append] at hspelled
  exact hspelled

/-! ## Pieces of statements -/

theorem blank_cons {c : Char} {b : List Char} (hc : isBlank c = true) (hb : Blank b) :
    Blank (c :: b) := List.forall_mem_cons.2 ⟨hc, hb⟩

theorem blank_space : Blank [' '] := blank_cons (by decide) blank_nil

theorem blank_line : Blank ['\n'] := blank_cons (by decide) blank_nil

theorem blank_indent : Blank ['\n', ' ', ' '] :=
  blank_cons (by decide) (blank_cons (by decide) blank_space)

theorem gap_space : Spells.Gap [' '] := ⟨List.cons_ne_nil _ _, blank_space⟩

/-- A list with commas is made of its items; a blank may stand before any of them. -/
theorem separated_commaList {α : Type} {L : List Char → α → Prop} {print : α → List Char}
    {as : List α} (hne : as ≠ [])
    (h : ∀ a ∈ as, ∀ b, Blank b → L (b ++ print a) a) {b : List Char} (hb : Blank b) :
    Separated ',' L (b ++ commaList (as.map print)) as := by
  -- The blank in front is left open: behind a comma it is the space.
  induction as generalizing b with
  | nil => exact absurd rfl hne
  | cons a as ih =>
    obtain ⟨ha, has⟩ := List.forall_mem_cons.1 h
    cases as with
    | nil => exact .one (ha b hb)
    | cons a' as =>
      have hrest := Separated.cons (ha b hb) (ih (List.cons_ne_nil _ _) has blank_space)
      rw [List.append_assoc] at hrest
      exact hrest

theorem spells_placement {home : Option String} (h : ∀ m ∈ home, IsWord m) :
    Spells.Placement (printPlacement home) home := by
  cases home with
  | none => exact .nowhere
  | some m => exact .within gap_space gap_space (h m rfl)

theorem spells_variants {vs : List String} (h : ∀ v ∈ vs, IsWord v) :
    Spells.Variants (commaList (vs.map String.toList)) vs := by
  by_cases hne : vs = []
  · subst hne
    exact .none blank_nil
  · refine .list (separated_commaList hne (fun v hv b hb => ?_) blank_nil)
    have hspelled := Spells.Variant.word hb (h v hv) blank_nil
    rwa [List.append_nil] at hspelled

/-- A function with names that are words. -/
structure FunctionDecl.Printable (f : FunctionDecl) : Prop where
  name : IsWord f.name
  parameters : ∀ p ∈ f.parameters, IsWord p.type ∧ IsWord p.name
  returns : ∀ type ∈ f.returns, IsWord type

/-- A statement with names that are words, and with a size that can be written. -/
inductive Statement.Printable : Statement → Prop
  | buffer {name : String} {n : Int} {home : Option String} (hname : IsWord name)
    (hsize : Decimal.isShort n = true) (hhome : ∀ m ∈ home, IsWord m) :
    Printable (.type ⟨name, .buffer n, home⟩)
  | scalar {name : String} {n : Int} (hname : IsWord name) (hsize : Decimal.isShort n = true) :
    Printable (.type ⟨name, .scalar n, none⟩)
  | enum {name : String} {vs : List String} {home : Option String} (hname : IsWord name)
    (hvariants : ∀ v ∈ vs, IsWord v) (hhome : ∀ m ∈ home, IsWord m) :
    Printable (.type ⟨name, .enum vs, home⟩)
  | module {name : String} {fs : List FunctionDecl} (hname : IsWord name)
    (hfunctions : ∀ f ∈ fs, f.Printable) : Printable (.module ⟨name, fs⟩)

theorem spells_parameters {ps : List ParameterDecl} (h : ∀ p ∈ ps, IsWord p.type ∧ IsWord p.name) :
    Spells.Parameters (commaList (ps.map ParameterDecl.print)) ps := by
  by_cases hne : ps = []
  · subst hne
    exact .none blank_nil
  · refine .list (separated_commaList hne (fun p hp b hb => ?_) blank_nil)
    obtain ⟨htype, hname⟩ := h p hp
    have hspelled := Spells.Parameter.directed (d := p.direction) hb gap_space htype gap_space hname
      blank_nil
    unfold ParameterDecl.print
    simp only [List.append_assoc, List.append_nil] at hspelled ⊢
    exact hspelled

theorem spells_returns {o : Option String} (h : ∀ type ∈ o, IsWord type) :
    Spells.Returns (printReturns o) o := by
  cases o with
  | none => exact .nothing
  | some type => exact .arrow blank_space blank_space (h type rfl)

theorem spells_function {f : FunctionDecl} (h : f.Printable) : Spells.Function f.print f := by
  have hform : Spells.Signature f.printForm f := by
    have hspelled := Spells.Signature.form h.name blank_nil (spells_parameters h.parameters)
      (spells_returns h.returns)
    unfold FunctionDecl.printForm
    simp only [List.append_assoc, List.append_nil, List.cons_append, List.nil_append] at hspelled ⊢
    exact hspelled
  unfold FunctionDecl.print
  split
  · rename_i hmark
    exact .fallible gap_space hform hmark
  · rename_i hmark
    exact .plain hform (Bool.eq_false_iff.2 hmark)

/-- Functions are printed as declarations, with a blank one behind the last semicolon. -/
theorem separated_functions {fs : List FunctionDecl} (h : ∀ f ∈ fs, f.Printable) :
    Separated ';' Spells.Declaration (printFunctions fs ++ ['\n']) (fs.map some ++ [none]) := by
  induction fs with
  | nil => exact .one (.blank blank_line)
  | cons f fs ih =>
    obtain ⟨hf, hfs⟩ := List.forall_mem_cons.1 h
    have hspelled := Separated.cons (c := ';')
      (.function blank_indent (spells_function hf) blank_nil) (ih hfs)
    unfold printFunctions at hspelled ⊢
    simp only [List.flatMap_cons, List.append_assoc, List.nil_append, List.cons_append]
      at hspelled ⊢
    exact hspelled

theorem spells_functions {fs : List FunctionDecl} (h : ∀ f ∈ fs, f.Printable) :
    Spells.Functions (printFunctions fs ++ ['\n']) fs := by
  have hall : (fs.map some ++ [none]).reduceOption = fs := by
    rw [List.reduceOption_append, show [(none : Option FunctionDecl)].reduceOption = [] from rfl,
      List.append_nil]
    exact List.filterMap_map.trans List.filterMap_some
  have hspelled := Spells.Functions.declared (separated_functions h)
  rwa [hall] at hspelled

/-! ## Statements -/

/-- A statement is printed as a derivation of itself. -/
theorem spells_print {statement : Statement} (h : statement.Printable) :
    Spells.Statement statement.print statement := by
  cases h with
  | buffer hname hsize hhome =>
    have hspelled := Spells.Statement.buffer gap_space hname (spells_size hsize)
      (spells_placement hhome) blank_nil
    rwa [List.append_nil] at hspelled
  | scalar hname hsize =>
    have hspelled := Spells.Statement.scalar gap_space hname (spells_size hsize) blank_nil
    rwa [List.append_nil] at hspelled
  | enum hname hvariants hhome =>
    have hspelled := Spells.Statement.enum gap_space hname (spells_placement hhome) blank_space
      (spells_variants hvariants) (.semicolon blank_nil)
    simp only [List.append_assoc, List.cons_append, List.nil_append] at hspelled
    show Spells.Statement (_ ++ _ ++ _ ++ _ ++ _ ++ _) _
    simp only [List.append_assoc, List.cons_append, List.nil_append]
    exact hspelled
  | module hname hfunctions =>
    have hspelled := Spells.Statement.module gap_space hname blank_space
      (spells_functions hfunctions) (.semicolon blank_nil)
    simp only [List.append_assoc, List.cons_append, List.nil_append] at hspelled
    show Spells.Statement (_ ++ _ ++ _ ++ _ ++ _) _
    simp only [List.append_assoc, List.cons_append, List.nil_append]
    exact hspelled

theorem spells_printAll {all : List Statement} (h : ∀ statement ∈ all, statement.Printable) :
    Spells.Statements (printAll all) all := by
  induction all with
  | nil => exact .nil blank_nil
  | cons statement all ih =>
    obtain ⟨hfirst, hrest⟩ := List.forall_mem_cons.1 h
    have hspelled := Spells.Statements.cons blank_nil (spells_print hfirst)
      ((ih hrest).prepend blank_line)
    rwa [List.nil_append, ← List.append_assoc] at hspelled

/-! ## Reading what is printed -/

theorem Spells.Integer.no_slash {t : List Char} {n : Int} (h : Spells.Integer t n) : '/' ∉ t := by
  have hnumeral : ∀ {s n}, Spells.Numeral s n → '/' ∉ s := by
    intro s n hs hmem
    exact absurd ((numeral_iff.1 hs).2.1 '/' hmem) (by decide)
  cases h with
  | plain h _ => exact hnumeral h
  | minus h _ => exact List.not_mem_cons_of_ne_of_not_mem (by decide) (hnumeral h)

theorem Spells.Size.no_slash {t : List Char} {n : Int} (h : Spells.Size t n) : '/' ∉ t := by
  have hslash : IsMark '/' := by decide
  obtain ⟨h₁, h₂, hinteger, h₃⟩ := h
  simp [hslash.not_mem_blank h₁, hslash.not_mem_blank h₂, hslash.not_mem_blank h₃,
    hinteger.no_slash]

theorem Spells.Placement.no_slash {t : List Char} {home : Option String}
    (h : Spells.Placement t home) : '/' ∉ t := by
  have hslash : IsMark '/' := by decide
  cases h with
  | nowhere => exact List.not_mem_nil
  | within h₁ h₂ hw =>
    simp [hslash.not_mem_blank h₁.2, hslash.not_mem_blank h₂.2, hslash.not_mem_word hw]

/-- Only a text literal can hold a slash. -/
theorem Spells.Statement.no_slash {t : List Char} {statement : Idl.Statement}
    (h : Spells.Statement t statement) (hoption : statement.option? = none) : '/' ∉ t := by
  have hslash : IsMark '/' := by decide
  have hclosing : ∀ {s}, Spells.Closing s → '/' ∉ s := by
    rintro s (_ | ⟨hb⟩)
    · exact List.not_mem_nil
    · simp [hslash.not_mem_blank hb]
  cases h with
  | option => nomatch hoption
  | buffer hg hname hsize hhome hb =>
    simp [hslash.not_mem_blank hg.2, hslash.not_mem_word hname, hsize.no_slash, hhome.no_slash,
      hslash.not_mem_blank hb]
  | scalar hg hname hsize hb =>
    simp [hslash.not_mem_blank hg.2, hslash.not_mem_word hname, hsize.no_slash,
      hslash.not_mem_blank hb]
  | enum hg hname hhome hb hbody hclose =>
    simp [hslash.not_mem_blank hg.2, hslash.not_mem_word hname, hhome.no_slash,
      hslash.not_mem_blank hb, hbody.not_mem hslash (by decide), hclosing hclose]
  | module hg hname hb hbody hclose =>
    simp [hslash.not_mem_blank hg.2, hslash.not_mem_word hname, hslash.not_mem_blank hb,
      hbody.not_mem hslash (by decide), hclosing hclose]

theorem Statement.Printable.option? {statement : Statement} (h : statement.Printable) :
    statement.option? = none := by
  cases h <;> rfl

/-- Statements that are printed are read again. -/
theorem read_printAll {all : List Statement} (h : ∀ statement ∈ all, statement.Printable) :
    Document.read (printAll all) = .ok (.ofStatements all) := by
  have hslash : '/' ∉ printAll all := by
    intro hmem
    obtain ⟨statement, hin, hmem⟩ := List.mem_flatMap.1 hmem
    rcases List.mem_append.1 hmem with hmem | hmem
    · exact (spells_print (h statement hin)).no_slash (h statement hin).option? hmem
    · exact absurd hmem (by decide)
  have hfree : ∀ c, ¬['/', c] <:+: printAll all :=
    fun c hin => hslash (hin.subset List.mem_cons_self)
  rw [read_iff, stripComments_eq (hfree '/') (hfree '*')]
  refine .declared (spells_printAll h) ?_
  have hnone : (Document.ofStatements all).options = [] :=
    List.filterMap_eq_nil_iff.2 fun statement hin => (h statement hin).option?
  rw [hnone]
  exact List.nodup_nil

end Bindery.Idl
