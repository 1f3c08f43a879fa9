/-
  A TEXT IS READ EXACTLY WHERE THE GRAMMAR DERIVES IT, and as what it derives.

  Reading takes statement after statement off the text.  Each keyword starts with a letter of its
  own, so a statement is read by its keyword's rule or by none (`outline_sound`,
  `outline_complete`), and what follows it starts neither with a blank nor with a semicolon that
  would still belong to it.  So a text without its comments is read as the document that it spells
  and as no other (`read_iff`).
-/
import Bindery.Proofs.Idl.Bodies

namespace Bindery.Idl

open Text Reader

variable {s r t : List Char} {d d' : Idl.Document} {statement : Idl.Statement}

/-! ## Statements -/

/-- A statement with another first letter is not read by the rule of this one. -/
theorem run_rule_none {α : Type} {c e : Char} {keyword : List Char} {rule : String → Reader α}
    (h : c ≠ e) : (headed (c :: keyword) >>= rule).run (e :: s) = none := by
  rw [run_bind, run_headed_none h]
  rfl

/-- `Starts d s statement r` — the text starts with a statement that may follow the document, and
goes on with `r`. -/
def Starts (d : Document) (s : List Char) (statement : Statement) (r : List Char) : Prop :=
  ∃ t, Spells.Statement t statement ∧ s = t ++ r ∧
    ∀ e, statement.option? = some e → d.hasOption e.1 = false

/-- Only an option has to be a new one. -/
theorem starts_of_spells (h : Spells.Statement t statement) (hs : s = t ++ r)
    (hoption : statement.option? = none) : Starts d s statement r := by
  refine ⟨t, h, hs, fun e he => ?_⟩
  rw [hoption] at he
  nomatch he

section Rules

variable {line : Nat} {lineOf : List Char → Nat} {o : Outline} {g b : List Char} {name : String}
  {home : Option String} {n : Int}

/-! ### Options -/

theorem optionOutline_sound (h : optionOutline.run s = some (o, r))
    (hresolve : o.resolve line lineOf d = .ok statement) : Starts d s statement r := by
  obtain ⟨name, t₁, hname, hrest₁⟩ := run_bind_iff.1 h
  obtain ⟨_, t₂, hequals, hrest₂⟩ := run_bind_iff.1 hrest₁
  obtain ⟨_, t₃, hquote, hrest₃⟩ := run_bind_iff.1 hrest₂
  obtain ⟨value, t₄, hvalue, hrest₄⟩ := run_bind_iff.1 hrest₃
  obtain ⟨_, t₅, hend, hpure⟩ := run_bind_iff.1 hrest₄
  obtain ⟨rfl, rfl⟩ := run_pure_iff.1 hpure
  obtain ⟨g, hg, hword, _, rfl⟩ := run_headed_iff.1 hname
  obtain ⟨b₁, h₁, rfl⟩ := (run_punctuation_iff (by decide)).1 hequals
  obtain ⟨b₂, h₂, rfl⟩ := (run_punctuation_iff (by decide)).1 hquote
  obtain ⟨literal, hliteral, rfl⟩ := run_literal_iff.1 hvalue
  obtain ⟨b₃, h₃, rfl⟩ := (run_punctuation_iff (by decide)).1 hend
  unfold Outline.resolve at hresolve
  dsimp only at hresolve
  split at hresolve
  · nomatch hresolve
  · rename_i hfresh
    cases hresolve
    refine ⟨_, .option hg hword h₁ h₂ hliteral h₃, ?_, fun e he => ?_⟩
    · simp only [List.append_assoc, List.cons_append, List.nil_append]
    · cases he
      exact Bool.eq_false_iff.2 hfresh

theorem optionOutline_complete {b₁ b₂ literal b₃ : List Char} {value : String}
    (hg : Spells.Gap g) (hname : IsWord name) (h₁ : Blank b₁) (h₂ : Blank b₂)
    (hvalue : Spells.Literal literal value.toList) (h₃ : Blank b₃)
    (hfresh : d.hasOption name = false) :
    ∃ o, optionOutline.run (['o', 'p', 't', 'i', 'o', 'n'] ++ g ++ name.toList ++ b₁ ++ '=' :: b₂ ++
        '"' :: literal ++ '"' :: b₃ ++ [';'] ++ r) = some (o, r) ∧
      o.resolve line lineOf d = .ok (.option name value) := by
  have hahead : Ahead '=' (b₁ ++ '=' :: (b₂ ++ '"' :: (literal ++ '"' :: (b₃ ++ ';' :: r)))) :=
    ahead_append h₁
  refine ⟨.option name value, ?_, if_neg (Bool.eq_false_iff.1 hfresh)⟩
  refine run_bind_iff.2 ⟨name, _, run_headed_iff.2 ⟨g, hg, hname,
    hahead.stops_word (by decide), ?_⟩, ?_⟩
  · simp only [List.append_assoc, List.cons_append, List.nil_append]
  refine run_bind_iff.2 ⟨(), _, (run_punctuation_iff (by decide)).2 ⟨b₁, h₁, rfl⟩, ?_⟩
  refine run_bind_iff.2 ⟨(), _, (run_punctuation_iff (by decide)).2 ⟨b₂, h₂, rfl⟩, ?_⟩
  refine run_bind_iff.2 ⟨value, _, run_literal_iff.2 ⟨literal, hvalue, rfl⟩, ?_⟩
  exact run_bind_iff.2 ⟨(), r, (run_punctuation_iff (by decide)).2 ⟨b₃, h₃, rfl⟩, rfl⟩

/-! ### Buffers -/

theorem bufferOutline_sound (h : bufferOutline.run s = some (o, r))
    (hresolve : o.resolve line lineOf d = .ok statement) : Starts d s statement r := by
  obtain ⟨name, t₁, hname, hrest₁⟩ := run_bind_iff.1 h
  obtain ⟨size, t₂, hsize, hrest₂⟩ := run_bind_iff.1 hrest₁
  obtain ⟨home, t₃, hhome, hrest₃⟩ := run_bind_iff.1 hrest₂
  obtain ⟨_, t₄, hend, hpure⟩ := run_bind_iff.1 hrest₃
  obtain ⟨rfl, rfl⟩ := run_pure_iff.1 hpure
  obtain ⟨n, hn, hstatement⟩ := bind_eq_ok.1 hresolve
  cases hstatement
  obtain ⟨g, hg, hword, _, rfl⟩ := run_headed_iff.1 hname
  obtain ⟨bracketed, hbracketed, rfl⟩ := size_sound hsize hn
  obtain ⟨placement, hplacement, rfl⟩ := placement_sound hhome
  obtain ⟨b, hb, rfl⟩ := (run_punctuation_iff (by decide)).1 hend
  refine starts_of_spells (.buffer hg hword hbracketed hplacement hb) ?_ rfl
  simp only [List.append_assoc, List.cons_append, List.nil_append]

theorem bufferOutline_complete {bracketed placement : List Char} (hg : Spells.Gap g)
    (hname : IsWord name) (hsize : Spells.Size bracketed n) (hhome : Spells.Placement placement home)
    (hb : Blank b) :
    ∃ o, bufferOutline.run (['b', 'u', 'f', 'f', 'e', 'r'] ++ g ++ name.toList ++ bracketed ++
        placement ++ b ++ [';'] ++ r) = some (o, r) ∧
      o.resolve line lineOf d = .ok (.type ⟨name, .buffer n, home⟩) := by
  obtain ⟨size, hrun, hn⟩ := size_complete (r := placement ++ (b ++ ';' :: r)) hsize
  have hahead : Ahead ';' (b ++ ';' :: r) := ahead_append hb
  refine ⟨.buffer name size home, ?_, bind_eq_ok.2 ⟨n, hn, rfl⟩⟩
  refine run_bind_iff.2 ⟨name, bracketed ++ (placement ++ (b ++ ';' :: r)), run_headed_iff.2
    ⟨g, hg, hname, hsize.ahead.stops_word (by decide), ?_⟩, ?_⟩
  · simp only [List.append_assoc, List.cons_append, List.nil_append]
  refine run_bind_iff.2 ⟨size, _, hrun, ?_⟩
  refine run_bind_iff.2 ⟨home, _, placement_complete hhome hahead (by decide), ?_⟩
  exact run_bind_iff.2 ⟨(), r, (run_punctuation_iff (by decide)).2 ⟨b, hb, rfl⟩, rfl⟩

/-! ### Scalars -/

theorem scalarOutline_sound (h : scalarOutline.run s = some (o, r))
    (hresolve : o.resolve line lineOf d = .ok statement) : Starts d s statement r := by
  obtain ⟨name, t₁, hname, hrest₁⟩ := run_bind_iff.1 h
  obtain ⟨size, t₂, hsize, hrest₂⟩ := run_bind_iff.1 hrest₁
  obtain ⟨_, t₃, hend, hpure⟩ := run_bind_iff.1 hrest₂
  obtain ⟨rfl, rfl⟩ := run_pure_iff.1 hpure
  obtain ⟨n, hn, hstatement⟩ := bind_eq_ok.1 hresolve
  cases hstatement
  obtain ⟨g, hg, hword, _, rfl⟩ := run_headed_iff.1 hname
  obtain ⟨bracketed, hbracketed, rfl⟩ := size_sound hsize hn
  obtain ⟨b, hb, rfl⟩ := (run_punctuation_iff (by decide)).1 hend
  refine starts_of_spells (.scalar hg hword hbracketed hb) ?_ rfl
  simp only [List.append_assoc, List.cons_append, List.nil_append]

theorem scalarOutline_complete {bracketed : List Char} (hg : Spells.Gap g) (hname : IsWord name)
    (hsize : Spells.Size bracketed n) (hb : Blank b) :
    ∃ o, scalarOutline.run (['s', 'c', 'a', 'l', 'a', 'r'] ++ g ++ name.toList ++ bracketed ++ b ++
        [';'] ++ r) = some (o, r) ∧
      o.resolve line lineOf d = .ok (.type ⟨name, .scalar n, none⟩) := by
  obtain ⟨size, hrun, hn⟩ := size_complete (r := b ++ ';' :: r) hsize
  refine ⟨.scalar name size, ?_, bind_eq_ok.2 ⟨n, hn, rfl⟩⟩
  refine run_bind_iff.2 ⟨name, bracketed ++ (b ++ ';' :: r), run_headed_iff.2
    ⟨g, hg, hname, hsize.ahead.stops_word (by decide), ?_⟩, ?_⟩
  · simp only [List.append_assoc, List.cons_append, List.nil_append]
  refine run_bind_iff.2 ⟨size, _, hrun, ?_⟩
  exact run_bind_iff.2 ⟨(), r, (run_punctuation_iff (by decide)).2 ⟨b, hb, rfl⟩, rfl⟩

/-! ### Enumerations -/

theorem enumOutline_sound (h : enumOutline.run s = some (o, r))
    (hresolve : o.resolve line lineOf d = .ok statement) : Starts d s statement r := by
  obtain ⟨name, t₁, hname, hrest₁⟩ := run_bind_iff.1 h
  obtain ⟨home, t₂, hhome, hrest₂⟩ := run_bind_iff.1 hrest₁
  obtain ⟨⟨body, behind⟩, t₃, hbraced, hpure⟩ := run_bind_iff.1 hrest₂
  obtain ⟨rfl, rfl⟩ := run_pure_iff.1 hpure
  obtain ⟨vs, hvs, hstatement⟩ := bind_eq_ok.1 hresolve
  cases hstatement
  obtain ⟨g, hg, hword, _, rfl⟩ := run_headed_iff.1 hname
  obtain ⟨placement, hplacement, rfl⟩ := placement_sound hhome
  obtain ⟨b, closing, hb, _, hclosing, rfl⟩ := braced_sound hbraced
  have hbody : Spells.Variants body vs := variants_iff.1 (mapError_eq_ok.1 hvs)
  refine starts_of_spells (.enum hg hword hplacement hb hbody hclosing) ?_ rfl
  simp only [List.append_assoc, List.cons_append]

theorem enumOutline_complete {placement body closing : List Char} {vs : List String}
    (hg : Spells.Gap g) (hname : IsWord name) (hhome : Spells.Placement placement home)
    (hb : Blank b) (hbody : Spells.Variants body vs) (hclosing : Spells.Closing closing)
    (hr : (trimLeft r).head? ≠ some ';') :
    ∃ o, enumOutline.run (['e', 'n', 'u', 'm'] ++ g ++ name.toList ++ placement ++ b ++
        '\x7b' :: body ++ '\x7d' :: closing ++ r) = some (o, r) ∧
      o.resolve line lineOf d = .ok (.type ⟨name, .enum vs, home⟩) := by
  obtain ⟨behind, hrun⟩ := braced_complete hb (hbody.not_mem (by decide) (by decide)) hclosing hr
  have hahead : Ahead '\x7b' (b ++ '\x7b' :: body ++ '\x7d' :: closing ++ r) := by
    simp only [List.append_assoc, List.cons_append]
    exact ahead_append hb
  refine ⟨.enum name home body, ?_, bind_eq_ok.2 ⟨vs, mapError_eq_ok.2 (variants_iff.2 hbody), rfl⟩⟩
  refine run_bind_iff.2 ⟨name, placement ++ (b ++ '\x7b' :: body ++ '\x7d' :: closing ++ r),
    run_headed_iff.2 ⟨g, hg, hname, hhome.stops (hahead.stops_word (by decide)), ?_⟩, ?_⟩
  · simp only [List.append_assoc, List.cons_append]
  refine run_bind_iff.2 ⟨home, _, placement_complete hhome hahead (by decide), ?_⟩
  exact run_bind_iff.2 ⟨(body, behind), r, hrun, rfl⟩

/-! ### Modules -/

theorem moduleOutline_sound (h : moduleOutline.run s = some (o, r))
    (hresolve : o.resolve line lineOf d = .ok statement) : Starts d s statement r := by
  obtain ⟨name, t₁, hname, hrest₁⟩ := run_bind_iff.1 h
  obtain ⟨⟨body, behind⟩, t₂, hbraced, hpure⟩ := run_bind_iff.1 hrest₁
  obtain ⟨rfl, rfl⟩ := run_pure_iff.1 hpure
  obtain ⟨fs, hfs, hstatement⟩ := bind_eq_ok.1 hresolve
  cases hstatement
  obtain ⟨g, hg, hword, _, rfl⟩ := run_headed_iff.1 hname
  obtain ⟨b, closing, hb, _, hclosing, rfl⟩ := braced_sound hbraced
  have hbody : Spells.Functions body fs := functions_iff.1 (mapError_eq_ok.1 hfs)
  refine starts_of_spells (.module hg hword hb hbody hclosing) ?_ rfl
  simp only [List.append_assoc, List.cons_append]

theorem moduleOutline_complete {body closing : List Char} {fs : List FunctionDecl}
    (hg : Spells.Gap g) (hname : IsWord name) (hb : Blank b) (hbody : Spells.Functions body fs)
    (hclosing : Spells.Closing closing) (hr : (trimLeft r).head? ≠ some ';') :
    ∃ o, moduleOutline.run (['m', 'o', 'd', 'u', 'l', 'e'] ++ g ++ name.toList ++ b ++
        '\x7b' :: body ++ '\x7d' :: closing ++ r) = some (o, r) ∧
      o.resolve line lineOf d = .ok (.module ⟨name, fs⟩) := by
  obtain ⟨behind, hrun⟩ := braced_complete hb (hbody.not_mem (by decide) (by decide)) hclosing hr
  have hahead : Ahead '\x7b' (b ++ '\x7b' :: body ++ '\x7d' :: closing ++ r) := by
    simp only [List.append_assoc, List.cons_append]
    exact ahead_append hb
  refine ⟨.module name body behind, ?_,
    bind_eq_ok.2 ⟨fs, mapError_eq_ok.2 (functions_iff.2 hbody), rfl⟩⟩
  refine run_bind_iff.2 ⟨name, b ++ '\x7b' :: body ++ '\x7d' :: closing ++ r,
    run_headed_iff.2 ⟨g, hg, hname, hahead.stops_word (by decide), ?_⟩, ?_⟩
  · simp only [List.append_assoc, List.cons_append]
  exact run_bind_iff.2 ⟨(body, behind), r, hrun, rfl⟩

/-! ### Any statement -/

/-- The statement of an outline is spelled by what the outline was read from. -/
theorem outline_sound (h : outline.run s = some (o, r))
    (hresolve : o.resolve line lineOf d = .ok statement) : Starts d s statement r := by
  rcases run_orElse_iff.1 h with h | ⟨_, h⟩
  · exact optionOutline_sound h hresolve
  rcases run_orElse_iff.1 h with h | ⟨_, h⟩
  · exact bufferOutline_sound h hresolve
  rcases run_orElse_iff.1 h with h | ⟨_, h⟩
  · exact scalarOutline_sound h hresolve
  rcases run_orElse_iff.1 h with h | ⟨_, h⟩
  · exact enumOutline_sound h hresolve
  · exact moduleOutline_sound h hresolve

/-- What spells a statement is read as an outline of it, up to its end. -/
theorem outline_complete (line : Nat) (lineOf : List Char → Nat) (h : Spells.Statement t statement)
    (hfresh : ∀ e, statement.option? = some e → d.hasOption e.1 = false)
    (hr : (trimLeft r).head? ≠ some ';') :
    ∃ o, outline.run (t ++ r) = some (o, r) ∧ o.resolve line lineOf d = .ok statement := by
  -- The rules that are tried before the right one stop at the first letter.
  cases h with
  | option hg hname h₁ h₂ hvalue h₃ =>
    obtain ⟨o, hrun, ho⟩ := optionOutline_complete hg hname h₁ h₂ hvalue h₃ (hfresh _ rfl)
    exact ⟨o, run_orElse_iff.2 (Or.inl hrun), ho⟩
  | buffer hg hname hsize hhome hb =>
    obtain ⟨o, hrun, ho⟩ := bufferOutline_complete hg hname hsize hhome hb
    refine ⟨o, run_orElse_iff.2 (Or.inr ⟨run_rule_none (by decide), ?_⟩), ho⟩
    exact run_orElse_iff.2 (Or.inl hrun)
  | scalar hg hname hsize hb =>
    obtain ⟨o, hrun, ho⟩ := scalarOutline_complete hg hname hsize hb
    refine ⟨o, run_orElse_iff.2 (Or.inr ⟨run_rule_none (by decide), ?_⟩), ho⟩
    refine run_orElse_iff.2 (Or.inr ⟨run_rule_none (by decide), ?_⟩)
    exact run_orElse_iff.2 (Or.inl hrun)
  | enum hg hname hhome hb hbody hclosing =>
    obtain ⟨o, hrun, ho⟩ := enumOutline_complete hg hname hhome hb hbody hclosing hr
    refine ⟨o, run_orElse_iff.2 (Or.inr ⟨run_rule_none (by decide), ?_⟩), ho⟩
    refine run_orElse_iff.2 (Or.inr ⟨run_rule_none (by decide), ?_⟩)
    refine run_orElse_iff.2 (Or.inr ⟨run_rule_none (by decide), ?_⟩)
    exact run_orElse_iff.2 (Or.inl hrun)
  | module hg hname hb hbody hclosing =>
    obtain ⟨o, hrun, ho⟩ := moduleOutline_complete hg hname hb hbody hclosing hr
    refine ⟨o, run_orElse_iff.2 (Or.inr ⟨run_rule_none (by decide), ?_⟩), ho⟩
    refine run_orElse_iff.2 (Or.inr ⟨run_rule_none (by decide), ?_⟩)
    refine run_orElse_iff.2 (Or.inr ⟨run_rule_none (by decide), ?_⟩)
    exact run_orElse_iff.2 (Or.inr ⟨run_rule_none (by decide), hrun⟩)

/-- No statement starts with another letter. -/
theorem outline_none {c : Char} (hc : c ∉ ['o', 'b', 's', 'e', 'm']) : outline.run (c :: s) = none := by
  have hne : ∀ e ∈ ['o', 'b', 's', 'e', 'm'], e ≠ c := fun e he heq => hc (heq ▸ he)
  refine Option.eq_none_iff_forall_ne_some.2 fun ⟨o, r⟩ hrun => ?_
  have hoption : optionOutline.run (c :: s) = none := run_rule_none (hne _ (by decide))
  have hbuffer : bufferOutline.run (c :: s) = none := run_rule_none (hne _ (by decide))
  have hscalar : scalarOutline.run (c :: s) = none := run_rule_none (hne _ (by decide))
  have henum : enumOutline.run (c :: s) = none := run_rule_none (hne _ (by decide))
  have hmodule : moduleOutline.run (c :: s) = none := run_rule_none (hne _ (by decide))
  unfold outline at hrun
  simp [run_orElse_iff, hoption, hbuffer, hscalar, henum, hmodule] at hrun

end Rules

/-- A statement starts with a letter of its keyword. -/
theorem Spells.Statement.head_word (h : Spells.Statement t statement) :
    ∃ c t', t = c :: t' ∧ isWord c = true := by
  cases h with
  | option => exact ⟨'o', _, rfl, by decide⟩
  | buffer => exact ⟨'b', _, rfl, by decide⟩
  | scalar => exact ⟨'s', _, rfl, by decide⟩
  | enum => exact ⟨'e', _, rfl, by decide⟩
  | module => exact ⟨'m', _, rfl, by decide⟩

theorem Spells.Statement.head (h : Spells.Statement t statement) :
    ∃ c t', t = c :: t' ∧ isBlank c = false ∧ c ≠ ';' := by
  obtain ⟨c, t', rfl, hc⟩ := h.head_word
  refine ⟨c, t', rfl, ?_, ?_⟩
  · cases hblank : isBlank c with
    | false => rfl
    | true =>
      rw [isWord_of_isBlank hblank] at hc
      nomatch hc
  · rintro rfl
    exact absurd hc (by decide)

/-! ## Documents -/

theorem Spells.Statements.prepend {b : List Char} {rest : List Idl.Statement} (hb : Blank b)
    (h : Spells.Statements s rest) : Spells.Statements (b ++ s) rest := by
  cases h with
  | nil hs => exact .nil (hb.append hs)
  | cons hs ht hrest =>
    rw [← List.append_assoc, ← List.append_assoc]
    exact .cons (hb.append hs) ht hrest

/-- A statement stands at the front of what is left behind the blanks. -/
theorem Spells.Statement.trimLeft {b : List Char} (h : Spells.Statement t statement) (hb : Blank b) :
    Text.trimLeft (b ++ (t ++ r)) = t ++ r := by
  obtain ⟨c, t', rfl, hc, _⟩ := h.head
  rw [trimLeft_append hb]
  exact trimLeft_of_stops (stops_cons.2 hc)

/-- Statements do not begin with a semicolon, whatever follows them. -/
theorem Spells.Statements.no_semicolon {all : List Idl.Statement} (h : Spells.Statements s all)
    (hr : (trimLeft r).head? ≠ some ';') : (trimLeft (s ++ r)).head? ≠ some ';' := by
  cases h with
  | nil hb => rwa [trimLeft_append hb]
  | cons hb ht hrest =>
    rw [List.append_assoc, List.append_assoc, ht.trimLeft hb]
    obtain ⟨c, t', rfl, _, hc⟩ := ht.head
    exact fun h => hc (Option.some.inj h)

theorem Spells.Statements.append {all all' : List Idl.Statement} (h : Spells.Statements s all)
    (hr : Spells.Statements r all') : Spells.Statements (s ++ r) (all ++ all') := by
  induction h with
  | nil hb => exact hr.prepend hb
  | cons hb ht _ ih =>
    rw [List.append_assoc]
    exact .cons hb ht ih

theorem Document.hasOption_iff {name : String} :
    d.hasOption name = false ↔ name ∉ d.options.map Prod.fst := by
  unfold Document.hasOption
  rw [List.any_eq_false]
  constructor
  · intro h hmem
    obtain ⟨e, he, rfl⟩ := List.mem_map.1 hmem
    exact h e he (beq_self_eq_true _)
  · intro h e he heq
    exact h (List.mem_map.2 ⟨e, he, eq_of_beq heq⟩)

theorem Document.options_add (d : Document) (statement : Statement) :
    (d.add statement).options = d.options ++ statement.option?.toList := by
  cases statement with
  | option name value => rfl
  | type t => exact (List.append_nil _).symm
  | module m => exact (List.append_nil _).symm

/-- What statements add to a document. -/
theorem Document.foldl_add (d : Document) (all : List Statement) :
    all.foldl Document.add d = ⟨d.options ++ (Document.ofStatements all).options,
      d.types ++ (Document.ofStatements all).types,
      d.modules ++ (Document.ofStatements all).modules⟩ := by
  induction all generalizing d with
  | nil =>
    show d = ⟨d.options ++ [], d.types ++ [], d.modules ++ []⟩
    simp only [List.append_nil]
  | cons statement all ih =>
    rw [List.foldl_cons, ih]
    cases statement <;> simp [Document.add, Document.ofStatements, List.filterMap_cons,
      Statement.option?, Statement.type?, Statement.module?]

/-- An option is fresh exactly where its name stays unique. -/
theorem nodup_add (hd : (d.options.map Prod.fst).Nodup) :
    (∀ e, statement.option? = some e → d.hasOption e.1 = false) ↔
      ((d.add statement).options.map Prod.fst).Nodup := by
  rw [Document.options_add]
  cases hoption : statement.option? with
  | none =>
    rw [show (none : Option (String × String)).toList = [] from rfl, List.append_nil]
    exact ⟨fun _ => hd, fun _ _ h => (nomatch h)⟩
  | some e =>
    rw [show (some e).toList = [e] from rfl, List.map_append, List.map_singleton, List.nodup_append]
    constructor
    · intro h
      have hfresh := Document.hasOption_iff.1 (h e rfl)
      refine ⟨hd, List.pairwise_singleton _ _, ?_⟩
      rintro name hname _ hmem rfl
      rw [List.mem_singleton.1 hmem] at hname
      exact hfresh hname
    · rintro ⟨_, _, hapart⟩ e' he
      cases he
      exact Document.hasOption_iff.2 fun hmem =>
        hapart _ hmem _ (List.mem_singleton_self _) rfl

/-- Where the options are apart in the end, each of them was fresh when it was added. -/
theorem fresh_of_nodup {all : List Statement}
    (hnodup : (((statement :: all).foldl Document.add d).options.map Prod.fst).Nodup) :
    ∀ e, statement.option? = some e → d.hasOption e.1 = false := by
  rw [List.foldl_cons, Document.foldl_add, List.map_append] at hnodup
  have hadded : ((d.add statement).options.map Prod.fst).Nodup := (List.nodup_append.1 hnodup).1
  refine (nodup_add ?_).2 hadded
  rw [Document.options_add, List.map_append] at hadded
  exact (List.nodup_append.1 hadded).1

/-- Reading on from a document comes to the statements that the rest of the text spells. -/
theorem statements_sound {lines : Nat} (hs : Stops isBlank s) (hd : (d.options.map Prod.fst).Nodup)
    (h : statements lines d s = .ok d') :
    ∃ all, Spells.Statements s all ∧ d' = all.foldl Document.add d ∧
      (d'.options.map Prod.fst).Nodup := by
  fun_induction statements lines d s with
  | case1 d =>
    cases h
    exact ⟨[], .nil blank_nil, rfl, hd⟩
  | case2 => nomatch h
  | case3 => nomatch h
  -- Options that are apart stay apart, as the statement was let through.
  | case4 d lineOf c t found r hrun statement hresolve ih =>
    obtain ⟨front, hfront, hs', hfresh⟩ := outline_sound hrun hresolve
    obtain ⟨all, hall, hfold, hnodup⟩ := ih stops_trimLeft ((nodup_add hd).1 hfresh) h
    obtain ⟨_, b, hb, hr⟩ := trimLeft_eq_iff.1 (rfl : trimLeft r = _)
    refine ⟨statement :: all, ?_, hfold, hnodup⟩
    rw [hs', ← List.nil_append (front ++ r), ← List.append_assoc]
    refine .cons blank_nil hfront ?_
    rw [hr]
    exact hall.prepend hb

/-- The statements at the front of a text are read before the rest of it, as long as no option gets
a second value and the rest does not begin with a semicolon, which might still belong to them. -/
theorem statements_append (lines : Nat) {all : List Idl.Statement} (hall : Spells.Statements s all)
    (hnodup : ((all.foldl Document.add d).options.map Prod.fst).Nodup)
    (hr : (trimLeft r).head? ≠ some ';') :
    statements lines d (trimLeft (s ++ r)) =
      statements lines (all.foldl Document.add d) (trimLeft r) := by
  induction hall generalizing d with
  | nil hb => rw [trimLeft_append hb, List.foldl_nil]
  | cons hb ht hrest ih =>
    rename_i b t s statement rest
    have hfresh := fresh_of_nodup hnodup
    have hsemicolon := hrest.no_semicolon hr
    rw [List.append_assoc, List.append_assoc, ht.trimLeft hb]
    obtain ⟨c, t', rfl, _, _⟩ := ht.head
    rw [List.cons_append, statements]
    split
    · rename_i hrun
      obtain ⟨o, ho, _⟩ := outline_complete 0 (fun _ => 0) ht hfresh hsemicolon
      rw [List.cons_append, hrun] at ho
      cases ho
    · rename_i found rest hrun
      obtain ⟨o, ho, hresolve⟩ := outline_complete (lines - newlines (c :: (t' ++ (s ++ r))))
        (fun rest => lines - newlines rest) ht hfresh hsemicolon
      rw [List.cons_append, hrun] at ho
      obtain ⟨rfl, rfl⟩ := Prod.mk.inj (Option.some.inj ho)
      rw [hresolve]
      exact ih hnodup

/-- The statements that a text spells are read, as long as no option gets a second value. -/
theorem statements_complete (lines : Nat) {all : List Idl.Statement}
    (hall : Spells.Statements s all)
    (hnodup : ((all.foldl Document.add d).options.map Prod.fst).Nodup) :
    statements lines d (trimLeft s) = .ok (all.foldl Document.add d) := by
  have hread := statements_append (r := []) lines hall hnodup (fun h => (nomatch h))
  rw [List.append_nil] at hread
  rw [hread, show trimLeft [] = [] from rfl, statements]

/-- What begins with a statement is not blank. -/
theorem Spells.Statement.not_blank {b : List Char} (h : Spells.Statement t statement) :
    ¬Blank (b ++ t ++ s) := by
  intro hblank
  obtain ⟨c, t', rfl, hc, _⟩ := h.head
  rw [hblank c (by simp)] at hc
  nomatch hc

/-- Behind one statement there is one rest. -/
theorem Spells.Statement.unique {t' s' : List Char} {statement' : Idl.Statement}
    (h : Spells.Statement t statement) (h' : Spells.Statement t' statement')
    (hs : (Text.trimLeft s).head? ≠ some ';') (hs' : (Text.trimLeft s').head? ≠ some ';')
    (heq : t ++ s = t' ++ s') : statement = statement' ∧ s = s' := by
  have hfresh : ∀ {statement : Idl.Statement} (e), statement.option? = some e →
      Document.empty.hasOption e.1 = false := fun e _ => Document.hasOption_iff.2 List.not_mem_nil
  obtain ⟨o, hrun, hresolve⟩ := outline_complete 0 (fun _ => 0) h hfresh hs
  obtain ⟨o', hrun', hresolve'⟩ := outline_complete 0 (fun _ => 0) h' hfresh hs'
  rw [heq, hrun'] at hrun
  obtain ⟨rfl, rfl⟩ := Prod.mk.inj (Option.some.inj hrun)
  rw [hresolve'] at hresolve
  exact ⟨(Except.ok.inj hresolve).symm, rfl⟩

/-- A text spells one list of statements. -/
theorem Spells.Statements.unique {all all' : List Idl.Statement} (h : Spells.Statements s all)
    (h' : Spells.Statements s all') : all = all' := by
  have hsemicolon : ∀ {s all}, Spells.Statements s all → (Text.trimLeft s).head? ≠ some ';' := by
    intro s all h
    have hend := h.no_semicolon (r := []) (fun h => (nomatch h))
    rwa [List.append_nil] at hend
  induction h generalizing all' with
  | nil hb =>
    cases h' with
    | nil => rfl
    | cons _ ht' _ => exact absurd hb ht'.not_blank
  | cons hb ht hrest ih =>
    rename_i b t s statement rest
    generalize hu : b ++ t ++ s = u at h'
    cases h' with
    | nil hb' => exact absurd (hu ▸ hb') ht.not_blank
    | cons hb' ht' hrest' =>
      rename_i b' t' s' statement' rest'
      have htrim := congrArg Text.trimLeft hu
      rw [List.append_assoc, List.append_assoc, ht.trimLeft hb, ht'.trimLeft hb'] at htrim
      obtain ⟨rfl, rfl⟩ := ht.unique ht' (hsemicolon hrest) (hsemicolon hrest') htrim
      rw [ih hrest']

theorem Document.foldl_add_empty (all : List Statement) :
    all.foldl Document.add .empty = Document.ofStatements all := Document.foldl_add _ all

/-- What is read is what a text without its comments spells. -/
theorem read_iff {text : List Char} :
    Document.read text = .ok d ↔ Spells.Document (stripComments text) d := by
  unfold Document.read
  constructor
  · intro h
    obtain ⟨all, hall, rfl, hnodup⟩ := statements_sound stops_trimLeft
      (show (Document.empty.options.map Prod.fst).Nodup from List.nodup_nil) h
    obtain ⟨_, b, hb, hs⟩ := trimLeft_eq_iff.1 (rfl : trimLeft (stripComments text) = _)
    rw [Document.foldl_add_empty] at hnodup ⊢
    refine .declared ?_ hnodup
    rw [hs]
    exact hall.prepend hb
  · rintro ⟨hall, hnodup⟩
    rename_i all
    rw [← Document.foldl_add_empty] at hnodup ⊢
    exact statements_complete _ hall hnodup

/-! ## Texts without comments -/

theorem dropLineComments_eq (h : ¬['/', '/'] <:+: s) : dropLineComments false s = s := by
  induction s with
  | nil => rfl
  | cons c s ih =>
    have hs := ih fun hin => h (hin.trans (List.suffix_cons c s).isInfix)
    rw [dropLineComments.eq_def]
    split
    · rename_i heq
      nomatch heq
    · rename_i heq
      exact absurd (by rw [heq]; exact ⟨[], _, rfl⟩) h
    · rename_i heq
      obtain ⟨rfl, rfl⟩ := List.cons.inj heq
      rw [hs]
      split <;> rfl

theorem dropBlockComments_eq (h : ¬['/', '*'] <:+: s) : dropBlockComments false s = s := by
  induction s with
  | nil => rfl
  | cons c s ih =>
    have hs := ih fun hin => h (hin.trans (List.suffix_cons c s).isInfix)
    rw [dropBlockComments.eq_def]
    split
    · rename_i heq
      nomatch heq
    · rename_i hinside _
      nomatch hinside
    · rename_i hinside _
      nomatch hinside
    · rename_i heq
      exact absurd (by rw [heq]; exact ⟨[], _, rfl⟩) h
    · rename_i heq
      obtain ⟨rfl, rfl⟩ := List.cons.inj heq
      rw [hs]

theorem stripComments_eq (hline : ¬['/', '/'] <:+: s) (hblock : ¬['/', '*'] <:+: s) :
    stripComments s = s := by
  rw [stripComments, dropLineComments_eq hline, dropBlockComments_eq hblock]

/-- **The description language is its grammar.**  A text with nothing in it that starts a comment is
read exactly if it is a derivation, and as the document that it derives. -/
theorem read_uncommented {text : List Char} (hline : ¬['/', '/'] <:+: text)
    (hblock : ¬['/', '*'] <:+: text) :
    Document.read text = .ok d ↔ Spells.Document text d := by
  have hread : Document.read text = .ok d ↔ Spells.Document (stripComments text) d := read_iff
  rwa [stripComments_eq hline hblock] at hread

/-- A text in which keywords are names: of a type, of its parameters and of a function.  A comma closes
a list, a declaration is blank, and a brace is not followed by a semicolon. -/
def keywordText : List Char :=
  "enum out{A,B,}\nmodule in { ;fallible ( out x,in out y )->out ; }option o=\"\\n\" ;".toList

/-- What that text says. -/
def keywordDocument : Idl.Document where
  options := [("o", "\n")]
  types := [⟨"out", .enum ["A", "B"], none⟩]
  modules := [⟨"in", [⟨"fallible", [⟨"x", "out", .input⟩, ⟨"y", "out", .input⟩], some "out", false⟩]⟩]

theorem read_uncommented_keywords :
    ¬['/', '/'] <:+: keywordText ∧ ¬['/', '*'] <:+: keywordText ∧
      Document.read keywordText = .ok keywordDocument ∧
      Spells.Document keywordText keywordDocument := by
  have hline : ¬['/', '/'] <:+: keywordText := by decide +kernel
  have hblock : ¬['/', '*'] <:+: keywordText := by decide +kernel
  have hread : Document.read keywordText = .ok keywordDocument := by decide +kernel
  exact ⟨hline, hblock, hread, (read_uncommented hline hblock).1 hread⟩

end Bindery.Idl
