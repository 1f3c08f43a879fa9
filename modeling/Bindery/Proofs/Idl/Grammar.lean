/-
  THE GRAMMAR of the description language.

  `Spells.Document s d` says that the text `s` is a derivation of the document `d`: statement follows
  statement, each in the form of its keyword, and no option has two values.  Nothing here says how a
  text is read.  Blanks may stand between any two tokens, and have to stand between two that would
  otherwise run together.
-/
import Bindery.Idl.Statement
import Bindery.Proofs.Text.Cutting

namespace Bindery.Idl

open Text

/-! ## Words, gaps, texts and numbers -/

/-- `IsWord w` — one or more word characters. -/
structure IsWord (w : String) : Prop where
  ne_nil : w.toList ≠ []
  chars : ∀ c ∈ w.toList, isWord c = true

namespace Spells

/-- `Gap s` — at least one blank. -/
def Gap (s : List Char) : Prop := s ≠ [] ∧ Blank s

/-- `Literal s v` — what stands between the quotes of a text, and the text.  A backslash may stand
before any character but a line feed: before `n` for a line feed, before `t` for a tabulator, and
else for the character itself. -/
inductive Literal : List Char → List Char → Prop
  | nil : Literal [] []
  | char {c : Char} {s v : List Char} (hquote : c ≠ '"') (hback : c ≠ '\\') (h : Literal s v) :
    Literal (c :: s) (c :: v)
  | newline {s v : List Char} (h : Literal s v) : Literal ('\\' :: 'n' :: s) ('\n' :: v)
  | tabulator {s v : List Char} (h : Literal s v) : Literal ('\\' :: 't' :: s) ('\t' :: v)
  | escaped {c : Char} {s v : List Char} (hline : c ≠ '\n') (hn : c ≠ 'n') (ht : c ≠ 't')
    (h : Literal s v) : Literal ('\\' :: c :: s) (c :: v)

/-- `Numeral s n` — digits, of any script, and their number. -/
inductive Numeral : List Char → Nat → Prop
  | digit {c : Char} {v : Nat} (hc : digitValue? c = some v) : Numeral [c] v
  | next {s : List Char} {n : Nat} {c : Char} {v : Nat} (h : Numeral s n)
    (hc : digitValue? c = some v) : Numeral (s ++ [c]) (10 * n + v)

/-- `Integer s n` — a numeral, no longer than numbers are read, perhaps behind a minus. -/
inductive Integer : List Char → Int → Prop
  | plain {s : List Char} {n : Nat} (h : Numeral s n) (hlength : s.length ≤ Decimal.maxDigits) :
    Integer s n
  | minus {s : List Char} {n : Nat} (h : Numeral s n) (hlength : s.length ≤ Decimal.maxDigits) :
    Integer ('-' :: s) (-n)

/-! ## Types -/

/-- A size in brackets. -/
inductive Size : List Char → Int → Prop
  | bracketed {b₁ b₂ s b₃ : List Char} {n : Int} (h₁ : Blank b₁) (h₂ : Blank b₂)
    (h : Integer s n) (h₃ : Blank b₃) : Size (b₁ ++ '[' :: b₂ ++ s ++ b₃ ++ [']']) n

/-- The module in which a type is placed, if it is. -/
inductive Placement : List Char → Option String → Prop
  | nowhere : Placement [] none
  | within {g₁ g₂ : List Char} {w : String} (h₁ : Gap g₁) (h₂ : Gap g₂) (hw : IsWord w) :
    Placement (g₁ ++ ['i', 'n'] ++ g₂ ++ w.toList) (some w)

/-- A variant, with blanks around it. -/
inductive Variant : List Char → String → Prop
  | word {b b' : List Char} {w : String} (hb : Blank b) (hw : IsWord w) (hb' : Blank b') :
    Variant (b ++ w.toList ++ b') w

/-- The variants of an enumeration; a comma may close their list. -/
inductive Variants : List Char → List String → Prop
  | none {b : List Char} (hb : Blank b) : Variants b []
  | list {s : List Char} {vs : List String} (h : Separated ',' Variant s vs) : Variants s vs
  | closed {s b : List Char} {vs : List String} (h : Separated ',' Variant s vs) (hb : Blank b) :
    Variants (s ++ ',' :: b) vs

/-! ## Functions -/

/-- A parameter: type and name, perhaps behind a direction. -/
inductive Parameter : List Char → ParameterDecl → Prop
  | plain {b g b' : List Char} {type name : String} (hb : Blank b) (htype : IsWord type)
    (hg : Gap g) (hname : IsWord name) (hb' : Blank b') :
    Parameter (b ++ type.toList ++ g ++ name.toList ++ b') ⟨name, type, .input⟩
  | directed {b g₁ g₂ b' : List Char} {type name : String} {d : Direction} (hb : Blank b)
    (h₁ : Gap g₁) (htype : IsWord type) (h₂ : Gap g₂) (hname : IsWord name) (hb' : Blank b') :
    Parameter (b ++ (directionName d).toList ++ g₁ ++ type.toList ++ g₂ ++ name.toList ++ b')
      ⟨name, type, d⟩

/-- A parameter list. -/
inductive Parameters : List Char → List ParameterDecl → Prop
  | none {b : List Char} (hb : Blank b) : Parameters b []
  | list {s : List Char} {ps : List ParameterDecl} (h : Separated ',' Parameter s ps) :
    Parameters s ps

/-- The type of a result, if there is one. -/
inductive Returns : List Char → Option String → Prop
  | nothing : Returns [] none
  | arrow {b₁ b₂ : List Char} {w : String} (h₁ : Blank b₁) (h₂ : Blank b₂) (hw : IsWord w) :
    Returns (b₁ ++ '-' :: '>' :: b₂ ++ w.toList) (some w)

/-- A function behind its mark: its name, its parameters and its result. -/
inductive Signature : List Char → FunctionDecl → Prop
  | form {b list result : List Char} {f : FunctionDecl} (hname : IsWord f.name) (hb : Blank b)
    (hlist : Parameters list f.parameters) (hresult : Returns result f.returns) :
    Signature (f.name.toList ++ b ++ '(' :: list ++ ')' :: result) f

/-- A function, perhaps with the mark of those whose failures are reported. -/
inductive Function : List Char → FunctionDecl → Prop
  | plain {s : List Char} {f : FunctionDecl} (h : Signature s f) (hmark : f.fallible = false) :
    Function s f
  | fallible {g s : List Char} {f : FunctionDecl} (hg : Gap g) (h : Signature s f)
    (hmark : f.fallible = true) :
    Function (['f', 'a', 'l', 'l', 'i', 'b', 'l', 'e'] ++ g ++ s) f

/-- A declaration of a module, which may be blank. -/
inductive Declaration : List Char → Option FunctionDecl → Prop
  | blank {b : List Char} (hb : Blank b) : Declaration b none
  | function {b s b' : List Char} {f : FunctionDecl} (hb : Blank b) (h : Function s f)
    (hb' : Blank b') : Declaration (b ++ s ++ b') (some f)

/-- The functions of a module. -/
inductive Functions : List Char → List FunctionDecl → Prop
  | declared {s : List Char} {ds : List (Option FunctionDecl)} (h : Separated ';' Declaration s ds) :
    Functions s ds.reduceOption

/-! ## Statements -/

/-- What may stand behind a closing brace. -/
inductive Closing : List Char → Prop
  | none : Closing []
  | semicolon {b : List Char} (hb : Blank b) : Closing (b ++ [';'])

/-- A statement. -/
inductive Statement : List Char → Idl.Statement → Prop
  | option {g b₁ b₂ literal b₃ : List Char} {name value : String} (hg : Gap g)
    (hname : IsWord name) (h₁ : Blank b₁) (h₂ : Blank b₂) (hvalue : Literal literal value.toList)
    (h₃ : Blank b₃) :
    Statement (['o', 'p', 't', 'i', 'o', 'n'] ++ g ++ name.toList ++ b₁ ++ '=' :: b₂ ++
      '"' :: literal ++ '"' :: b₃ ++ [';']) (.option name value)
  | buffer {g size placement b : List Char} {name : String} {n : Int} {home : Option String}
    (hg : Gap g) (hname : IsWord name) (hsize : Size size n) (hhome : Placement placement home)
    (hb : Blank b) :
    Statement (['b', 'u', 'f', 'f', 'e', 'r'] ++ g ++ name.toList ++ size ++ placement ++ b ++ [';'])
      (.type ⟨name, .buffer n, home⟩)
  | scalar {g size b : List Char} {name : String} {n : Int} (hg : Gap g) (hname : IsWord name)
    (hsize : Size size n) (hb : Blank b) :
    Statement (['s', 'c', 'a', 'l', 'a', 'r'] ++ g ++ name.toList ++ size ++ b ++ [';'])
      (.type ⟨name, .scalar n, none⟩)
  | enum {g placement b body closing : List Char} {name : String} {home : Option String}
    {vs : List String} (hg : Gap g) (hname : IsWord name) (hhome : Placement placement home)
    (hb : Blank b) (hbody : Variants body vs) (hclosing : Closing closing) :
    Statement (['e', 'n', 'u', 'm'] ++ g ++ name.toList ++ placement ++ b ++ '\x7b' :: body ++
      '\x7d' :: closing) (.type ⟨name, .enum vs, home⟩)
  | module {g b body closing : List Char} {name : String} {fs : List FunctionDecl} (hg : Gap g)
    (hname : IsWord name) (hb : Blank b) (hbody : Functions body fs) (hclosing : Closing closing) :
    Statement (['m', 'o', 'd', 'u', 'l', 'e'] ++ g ++ name.toList ++ b ++ '\x7b' :: body ++
      '\x7d' :: closing) (.module ⟨name, fs⟩)

/-- Statements, with blanks around them. -/
inductive Statements : List Char → List Idl.Statement → Prop
  | nil {b : List Char} (hb : Blank b) : Statements b []
  | cons {b t s : List Char} {statement : Idl.Statement} {rest : List Idl.Statement} (hb : Blank b)
    (ht : Statement t statement) (hs : Statements s rest) :
    Statements (b ++ t ++ s) (statement :: rest)

end Spells

/-! ## Documents -/

namespace Statement

/-- The option that a statement sets. -/
def option? : Statement → Option (String × String)
  | .option name value => some (name, value)
  | _ => none

/-- The type that a statement declares. -/
def type? : Statement → Option TypeDecl
  | .type t => some t
  | _ => none

/-- The module that a statement declares. -/
def module? : Statement → Option ModuleDecl
  | .module m => some m
  | _ => none

end Statement

/-- What statements declare, each kind in its own order. -/
def Document.ofStatements (statements : List Statement) : Document where
  options := statements.filterMap Statement.option?
  types := statements.filterMap Statement.type?
  modules := statements.filterMap Statement.module?

/-- `Spells.Document s d` — the text is a derivation of the document. -/
inductive Spells.Document : List Char → Idl.Document → Prop
  | declared {s : List Char} {statements : List Idl.Statement} (h : Spells.Statements s statements)
    (hoptions : ((Document.ofStatements statements).options.map Prod.fst).Nodup) :
    Document s (.ofStatements statements)

/-! ## Characters of tokens -/

theorem isWord_of_isBlank {c : Char} (hc : isBlank c = true) : isWord c = false :=
  holds_of_isBlank (by decide +kernel) hc

theorem isDigit_of_isBlank {c : Char} (hc : isBlank c = true) : isDigit c = false :=
  holds_of_isBlank (by decide +kernel) hc

/-- `IsMark c` — a character that is in no word and no gap. -/
structure IsMark (c : Char) : Prop where
  blank : isBlank c = false
  word : isWord c = false

instance (c : Char) : Decidable (IsMark c) :=
  decidable_of_iff (isBlank c = false ∧ isWord c = false) ⟨fun ⟨h, h'⟩ => ⟨h, h'⟩, fun h => ⟨h.1, h.2⟩⟩

theorem IsWord.solid {w : String} (h : IsWord w) : Solid w.toList := by
  intro c hc
  cases hb : isBlank c with
  | false => rfl
  | true =>
    have hword := h.chars c hc
    rw [isWord_of_isBlank hb] at hword
    nomatch hword

theorem IsMark.not_mem_blank {c : Char} {s : List Char} (hc : IsMark c) (hs : Blank s) : c ∉ s := by
  intro hmem
  have h := hs c hmem
  rw [hc.blank] at h
  nomatch h

theorem IsMark.not_mem_word {c : Char} {w : String} (hc : IsMark c) (hw : IsWord w) :
    c ∉ w.toList := by
  intro hmem
  have h := hw.chars c hmem
  rw [hc.word] at h
  nomatch h

end Bindery.Idl
