/-
  A BLOCK COMMENT BETWEEN STATEMENTS: where it changes nothing, and what it does elsewhere.

  Line comments are taken out first, from the whole text, so two slashes in a block comment take the
  rest of their line with them.  On any line of the comment but its last that does no harm.  On its
  last line they take the end of the comment with them (`LineOpen body`): the comment then goes on
  to the next `*/` of the text, over whatever is declared in between, and if there is none the text
  is refused.

  Three things are asked of the place besides that it lies between statements.  Next to a slash that
  ends or begins another comment the new comment makes two slashes in a row; and where an earlier text
  literal holds `/*` nothing can be closed without closing that too.
-/
import Bindery.Proofs.Idl.Passes

namespace Bindery.Idl

open Text Reader

variable {a b body gap gap' s t u v x y : List Char} {d d' : Idl.Document}

/-- A block comment. -/
def blockComment (body : List Char) : List Char := '/' :: '*' :: body ++ ['*', '/']

/-- `Between a b` — between the two pieces of a text is a place for a comment: both hold whole
statements, and no line comment goes on from one to the other. -/
structure Between (a b : List Char) : Prop where
  before : ∃ d, Document.read a = .ok d
  behind : ∃ d, Document.read b = .ok d
  outside : ¬LineOpen a

/-! ## Blanks between statements -/

theorem Spells.Statements.head_ne {c : Char} {all : List Idl.Statement} (hc : IsMark c)
    (h : Spells.Statements s all) : s.head? ≠ some c := by
  cases h with
  | nil hb =>
    intro hs
    obtain ⟨r, rfl⟩ := List.head?_eq_some_iff.1 hs
    exact hc.not_mem_blank hb List.mem_cons_self
  | cons hb ht hrest =>
    rename_i b t s statement rest
    intro hs
    cases b with
    | nil =>
      obtain ⟨e, t', rfl, he⟩ := ht.head_word
      obtain rfl := Option.some.inj hs
      rw [hc.word] at he
      nomatch he
    | cons e b =>
      obtain rfl := Option.some.inj hs
      exact hc.not_mem_blank hb List.mem_cons_self

/-- What is read holds statements. -/
theorem exists_statements (h : Document.read s = .ok d) :
    ∃ all, Spells.Statements (stripComments s) all ∧ d = .ofStatements all ∧
      ((Document.ofStatements all).options.map Prod.fst).Nodup := by
  obtain ⟨hall, hnodup⟩ := read_iff.1 h
  exact ⟨_, hall, rfl, hnodup⟩

/-- Texts that differ in blanks between statements are read as the same. -/
theorem read_of_gap {all all' : List Idl.Statement} (hs : Spells.Statements s all)
    (ht : Spells.Statements t all') (hgap : Blank gap) (hgap' : Blank gap')
    (hu : stripComments u = s ++ (gap ++ t)) (hv : stripComments v = s ++ (gap' ++ t))
    (h : Document.read u = .ok d) : Document.read v = .ok d := by
  obtain ⟨whole, hwhole, rfl, hnodup⟩ := exists_statements h
  rw [hu] at hwhole
  obtain rfl := hwhole.unique (hs.append (ht.prepend hgap))
  rw [read_iff, hv]
  exact .declared (hs.append (ht.prepend hgap')) hnodup

theorem blank_newlines (s : List Char) : Blank (s.filter (· == '\n')) := by
  intro c hc
  rw [eq_of_beq (List.mem_filter.1 hc).2]
  decide

/-! ## The passes over a comment -/

/-- The first pass leaves the sign that opens the comment, what it leaves of the body, and what it
leaves of the rest. -/
theorem dropLineComments_blockComment {o : Bool} (ho : o = true ↔ LineOpen body) (b : List Char) :
    dropLineComments false (blockComment body ++ b) =
      '/' :: '*' :: (dropLineComments false body ++ dropLineComments o ('*' :: '/' :: b)) := by
  have hbody : dropLineComments false (body ++ '*' :: '/' :: b) =
      dropLineComments false body ++ dropLineComments o ('*' :: '/' :: b) :=
    dropLineComments_append ho fun _ _ hstar => absurd (Option.some.inj hstar) (by decide)
  rw [show blockComment body ++ b = '/' :: '*' :: (body ++ '*' :: '/' :: b) by simp [blockComment],
    dropLineComments_false_cons, dropLineComments_false_cons, hbody]
  · exact not_prefix_pair fun _ hstar _ => absurd hstar (by decide)
  · exact not_prefix_pair fun _ _ hstar => absurd (List.cons.inj hstar).1 (by decide)

/-- A comment without slashes on its last line leaves line feeds. -/
theorem stripComments_blockComment (hbody : ¬['*', '/'] <:+: body) (hline : ¬LineOpen body)
    (hb : b.head? ≠ some '/') : stripComments (blockComment body ++ b) =
      (dropLineComments false body).filter (· == '\n') ++ stripComments b := by
  have hstop : dropLineComments false ('*' :: '/' :: b) = '*' :: '/' :: dropLineComments false b := by
    rw [dropLineComments_false_cons, dropLineComments_false_cons]
    · exact not_prefix_pair fun u _ h => hb (by rw [h]; rfl)
    · exact not_prefix_pair fun _ h _ => absurd h (by decide)
  have hbody' : ¬['*', '/'] <:+: dropLineComments false body := fun h =>
    hbody (infix_of_infix_dropLineComments (by decide) h)
  rw [stripComments, dropLineComments_blockComment (iff_of_false Bool.false_ne_true hline), hstop,
    dropBlockComments_comment hbody']
  rfl

/-- A comment with slashes on its last line goes on. -/
theorem dropLineComments_blockComment_open (hline : LineOpen body) (b : List Char) :
    dropLineComments false (blockComment body ++ b) =
      '/' :: '*' :: (dropLineComments false body ++ dropLineComments true b) := by
  rw [dropLineComments_blockComment (iff_of_true rfl hline)]
  exact congrArg (fun r => '/' :: '*' :: (dropLineComments false body ++ r))
    (dropLineComments_true_append (s := ['*', '/']) (by decide))

/-- In what is left of the comment and of the text behind it, up to the next end of a comment, there
is none before. -/
theorem no_end_append (hbody : ¬['*', '/'] <:+: body) (ht : t <+: dropLineComments true b)
    (hend : ¬['*', '/'] <:+: t) : ¬['*', '/'] <:+: dropLineComments false body ++ t := by
  have hbody' : ¬['*', '/'] <:+: dropLineComments false body := fun h =>
    hbody (infix_of_infix_dropLineComments (by decide) h)
  intro h
  cases t with
  | nil =>
    rw [List.append_nil] at h
    exact hbody' h
  | cons c t =>
    have hc : c = '\n' := by
      obtain ⟨r, hr⟩ := ht
      rcases dropLineComments_true_cases b with hb | ⟨_, hb⟩ <;> rw [hb] at hr
      · nomatch hr
      · exact (List.cons.inj hr).1
    subst hc
    rcases (infix_pair_append (by decide) (by decide)).1 h with h | h
    · exact hbody' h
    · exact hend (h.trans (List.suffix_cons _ _).isInfix)

/-- What begins with a line feed is on no line that begins before it. -/
theorem firstLine_append (ht : t = [] ∨ ∃ r, t = '\n' :: r) : firstLine (s ++ t) = firstLine s := by
  have hline : (s ++ t).takeWhile (· != '\n') = s.takeWhile (· != '\n') := by
    induction s with
    | nil => rcases ht with rfl | ⟨r, rfl⟩ <;> rfl
    | cons c s ih => rw [List.cons_append, List.takeWhile_cons, List.takeWhile_cons, ih]
  rw [firstLine, hline, firstLine]

/-! ## Readings -/

section

variable (hplace : Between a b) (hopen : ¬['/', '*'] <:+: stripComments a)
  (ha : a.getLast? ≠ some '/') (hbody : ¬['*', '/'] <:+: body)

include hplace hopen ha

/-- At the place a text is cut, and each piece is stripped by itself. -/
theorem Between.stripComments_append (ht : t.head? ≠ some '*') :
    stripComments (a ++ t) = stripComments a ++ stripComments t :=
  Idl.stripComments_append hplace.outside hopen (fun _ => ht) fun hlast => absurd hlast ha

include hbody

/-- A comment without slashes on its last line changes nothing. -/
theorem read_blockComment (hread : Document.read (a ++ b) = .ok d) (hline : ¬LineOpen body)
    (hb : b.head? ≠ some '/') : Document.read (a ++ (blockComment body ++ b)) = .ok d := by
  obtain ⟨_, hbefore⟩ := hplace.before
  obtain ⟨_, hbehind⟩ := hplace.behind
  obtain ⟨all, hall, _⟩ := exists_statements hbefore
  obtain ⟨all', hall', _⟩ := exists_statements hbehind
  have hstar : b.head? ≠ some '*' := by
    intro h
    obtain ⟨r, rfl⟩ := List.head?_eq_some_iff.1 h
    refine hall'.head_ne (c := '*') (by decide) ?_
    rw [stripComments, dropLineComments_false_cons, dropBlockComments_false_cons]
    · rfl
    · exact not_prefix_pair fun _ h _ => absurd h (by decide)
    · exact not_prefix_pair fun _ h _ => absurd h (by decide)
  refine read_of_gap hall hall' blank_nil (blank_newlines (dropLineComments false body)) ?_ ?_ hread
  · exact hplace.stripComments_append hopen ha hstar
  · rw [hplace.stripComments_append hopen ha (by simp [blockComment]),
      stripComments_blockComment hbody hline hb]

/-- A comment with slashes on its last line goes on to the next end of a comment. -/
theorem read_blockComment_swallows (hline : LineOpen body)
    (hrest : dropLineComments true b = x ++ '*' :: '/' :: y) (hx : ¬['*', '/'] <:+: x)
    (hy : ∃ d, Document.read y = .ok d) (hread : Document.read (a ++ '\n' :: y) = .ok d) :
    Document.read (a ++ (blockComment body ++ b)) = .ok d := by
  obtain ⟨_, hbefore⟩ := hplace.before
  obtain ⟨_, hy⟩ := hy
  obtain ⟨all, hall, _⟩ := exists_statements hbefore
  obtain ⟨all', hall', _⟩ := exists_statements hy
  have hnone : ¬['*', '/'] <:+: dropLineComments false body ++ x :=
    no_end_append hbody (b := b) (by rw [hrest]; exact List.prefix_append _ _) hx
  have hslashes : dropLineComments false y = y := by
    refine dropLineComments_eq fun h => no_slashes_dropLineComments true b (h.trans ?_)
    rw [hrest]
    exact ((List.suffix_append ['*', '/'] y).trans (List.suffix_append x _)).isInfix
  have hfeed : stripComments ('\n' :: y) = ['\n'] ++ stripComments y := by
    rw [stripComments, dropLineComments_false_cons, dropBlockComments_false_cons]
    · rfl
    · exact not_prefix_pair fun _ h _ => absurd h (by decide)
    · exact not_prefix_pair fun _ h _ => absurd h (by decide)
  have hcomment : stripComments (blockComment body ++ b) =
      (dropLineComments false body ++ x).filter (· == '\n') ++ stripComments y := by
    rw [stripComments, dropLineComments_blockComment_open hline, hrest, ← List.append_assoc,
      dropBlockComments_comment hnone, stripComments, hslashes]
  have hblank : Blank ['\n'] := blank_newlines ['\n']
  refine read_of_gap hall hall' hblank (blank_newlines (dropLineComments false body ++ x)) ?_ ?_ hread
  · rw [hplace.stripComments_append hopen ha (by simp), hfeed]
  · rw [hplace.stripComments_append hopen ha (by simp [blockComment]), hcomment]

/-- A comment with slashes on its last line is refused where no comment ends behind it. -/
theorem read_blockComment_refuses (hline : LineOpen body)
    (hrest : ¬['*', '/'] <:+: dropLineComments true b) :
    Document.read (a ++ (blockComment body ++ b)) = .error (.rejected (newlines a + 1)
      (.unexpected (String.ofList (firstLine ('/' :: '*' :: dropLineComments false body))))) := by
  obtain ⟨_, hbefore⟩ := hplace.before
  obtain ⟨all, hall, rfl, hnodup⟩ := exists_statements hbefore
  have hnone : ¬['*', '/'] <:+: dropLineComments false body ++ dropLineComments true b :=
    no_end_append hbody (List.prefix_refl _) hrest
  have hstrip : stripComments (a ++ (blockComment body ++ b)) = stripComments a ++
      '/' :: '*' :: (dropLineComments false body ++ dropLineComments true b) := by
    rw [hplace.stripComments_append hopen ha (by simp [blockComment]),
      stripComments.eq_def (blockComment body ++ b), dropLineComments_blockComment_open hline,
      dropBlockComments_unclosed hnone]
  have htrim : trimLeft ('/' :: '*' :: (dropLineComments false body ++ dropLineComments true b)) =
      '/' :: '*' :: (dropLineComments false body ++ dropLineComments true b) :=
    trimLeft_of_stops (stops_cons.2 (by decide))
  have hfirst : firstLine ('/' :: '*' :: (dropLineComments false body ++ dropLineComments true b)) =
      firstLine ('/' :: '*' :: dropLineComments false body) :=
    firstLine_append (s := '/' :: '*' :: dropLineComments false body) (dropLineComments_true_cases b)
  rw [← Document.foldl_add_empty] at hnodup
  unfold Document.read
  rw [hstrip, statements_append _ hall hnodup (by rw [htrim]; simp), htrim, statements,
    outline_none (by decide)]
  -- The line is counted from what is left, and stripping keeps the line feeds before it.
  have hlines : ∀ r, newlines (stripComments a ++ r) + 1 - newlines r = newlines a + 1 := by
    intro r
    have ha := newlines_stripComments a
    rw [newlines, List.count_append, ← newlines, ← newlines, ha]
    omega
  dsimp only
  rw [hlines, hfirst]

end

/-- **A comment between statements changes nothing, if there are no two slashes on its last line.**
With two slashes there it goes on to the next `*/`, and what the text declares in between is lost; or
there is no other `*/`, and the text is refused at the line of the comment.  The place touches no
slash, and no text literal before it holds `/*`. -/
theorem read_commented (hread : Document.read (a ++ b) = .ok d) (hplace : Between a b)
    (hopen : ¬['/', '*'] <:+: stripComments a) (ha : a.getLast? ≠ some '/') (hb : b.head? ≠ some '/')
    (hbody : ¬['*', '/'] <:+: body) :
    (¬LineOpen body → Document.read (a ++ blockComment body ++ b) = .ok d) ∧
      (LineOpen body →
        (∀ x y d', dropLineComments true b = x ++ '*' :: '/' :: y → ¬['*', '/'] <:+: x →
          (∃ d, Document.read y = .ok d) → Document.read (a ++ '\n' :: y) = .ok d' →
          Document.read (a ++ blockComment body ++ b) = .ok d') ∧
        (¬['*', '/'] <:+: dropLineComments true b →
          Document.read (a ++ blockComment body ++ b) = .error (.rejected (newlines a + 1)
            (.unexpected (String.ofList (firstLine ('/' :: '*' :: dropLineComments false body))))))) := by
  rw [List.append_assoc]
  refine ⟨fun hline => read_blockComment hplace hopen ha hbody hread hline hb, fun hline => ⟨?_, ?_⟩⟩
  · exact fun x y d' hrest hx hy hread =>
      read_blockComment_swallows hplace hopen ha hbody hline hrest hx hy hread
  · exact read_blockComment_refuses hplace hopen ha hbody hline

/-- Two declarations with a comment between them. -/
def commentedText : List Char := "\nscalar A[1];\n/* end */\nscalar B[1];".toList

/-- A comment that ends with an address. -/
def addressComment : List Char := " see http://a ".toList

theorem read_commented_address :
    Document.read commentedText =
        .ok ⟨[], [⟨"A", .scalar 1, none⟩, ⟨"B", .scalar 1, none⟩], []⟩ ∧
      Document.read (blockComment (addressComment ++ ['\n']) ++ commentedText) =
        .ok ⟨[], [⟨"A", .scalar 1, none⟩, ⟨"B", .scalar 1, none⟩], []⟩ ∧
      Document.read (blockComment addressComment ++ commentedText) =
        .ok ⟨[], [⟨"B", .scalar 1, none⟩], []⟩ ∧
      Document.read (blockComment addressComment ++ "\nscalar B[1];".toList) =
        .error (.rejected 1 (.unexpected "/* see http:")) := by
  have hempty : ∃ d, Document.read [] = .ok d := ⟨.empty, by decide +kernel⟩
  have houtside : ¬LineOpen [] := not_lineOpen_nil
  have hread : Document.read ([] ++ commentedText) =
      .ok ⟨[], [⟨"A", .scalar 1, none⟩, ⟨"B", .scalar 1, none⟩], []⟩ := by decide +kernel
  have hread' : Document.read ([] ++ "\nscalar B[1];".toList) =
      .ok ⟨[], [⟨"B", .scalar 1, none⟩], []⟩ := by decide +kernel
  have hopen : LineOpen addressComment :=
    ⟨" see http:".toList, "a ".toList, by decide +kernel, by decide +kernel⟩
  have hclosed : ¬LineOpen (addressComment ++ ['\n']) := fun h => houtside (lineOpen_behind.1 h)
  have hshown : String.ofList (firstLine ('/' :: '*' :: dropLineComments false addressComment)) =
      "/* see http:" := by decide +kernel
  have hnothing : ¬['/', '*'] <:+: stripComments [] := by decide
  have hkept := (read_commented hread ⟨hempty, ⟨_, hread⟩, houtside⟩ hnothing (by decide)
    (by decide +kernel) (by decide +kernel)).1 hclosed
  have hswallowed := ((read_commented hread ⟨hempty, ⟨_, hread⟩, houtside⟩ hnothing (by decide)
    (by decide +kernel) (by decide +kernel)).2 hopen).1 "\nscalar A[1];\n/* end ".toList
    "\nscalar B[1];".toList ⟨[], [⟨"B", .scalar 1, none⟩], []⟩ (by decide +kernel) (by decide +kernel)
    ⟨_, hread'⟩ (by decide +kernel)
  have hrefused := ((read_commented hread' ⟨hempty, ⟨_, hread'⟩, houtside⟩ hnothing (by decide)
    (by decide +kernel) (by decide +kernel)).2 hopen).2 (by decide +kernel)
  rw [hshown] at hrefused
  simp only [List.nil_append] at hread hkept hswallowed hrefused
  exact ⟨hread, hkept, hswallowed, hrefused⟩

end Bindery.Idl
