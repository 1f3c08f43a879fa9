/-
  WHAT STANDS IN FRONT OF THE MARKER: the lines of the header, as comments.

  A file starts with the items of the header, each behind the start of a comment and trimmed, and then the
  marker (`renderFile_eq`).  An item is meant to be one line.  If it holds a line feed or a carriage return
  it is several, and only the first of them is a comment for sure; so all of them are comments exactly if
  each item is `Contained` (`commented_heading`).
-/
import Bindery.Proofs.Text.Cutting
import Bindery.Source.Line

namespace Bindery.Source

/-! ## Trimmed texts -/

theorem trimEnd_trimEnd (text : String) : trimEnd (trimEnd text) = trimEnd text := by
  obtain ⟨b, hb, htext⟩ := Text.exists_dropTail (p := Text.isBlank) text.toList
  have hsame : Text.dropTail Text.isBlank (Text.dropTail Text.isBlank text.toList) =
      Text.dropTail Text.isBlank text.toList := by
    conv_rhs => rw [htext, Text.dropTail_append hb]
  unfold trimEnd Text.trimRight
  rw [String.toList_ofList, hsame]

theorem mem_of_mem_trimEnd {text : String} {c : Char} (h : c ∈ (trimEnd text).toList) :
    c ∈ text.toList := by
  obtain ⟨b, _, htext⟩ := Text.exists_dropTail (p := Text.isBlank) text.toList
  rw [trimEnd, String.toList_ofList] at h
  rw [htext]
  exact List.mem_append_left _ h

theorem trimEnd_concat (text : String) {c : Char} (hc : Text.isBlank c = false) :
    trimEnd (text ++ String.ofList [c]) = text ++ String.ofList [c] := by
  apply String.toList_inj.1
  rw [trimEnd, String.toList_ofList, String.toList_append, String.toList_ofList]
  exact Text.dropTail_concat hc

/-! ## Texts one below the other -/

/-- The texts, each with a line feed behind it. -/
def stacked (texts : List String) : String := String.join (texts.map (· ++ "\n"))

theorem stacked_cons (text : String) (texts : List String) :
    stacked (text :: texts) = text ++ "\n" ++ stacked texts := by
  unfold stacked
  rw [List.map_cons, String.join_cons]

theorem stacked_append (as bs : List String) : stacked (as ++ bs) = stacked as ++ stacked bs := by
  unfold stacked
  rw [List.map_append, String.join_append]

/-- Texts that are put between line feeds, up to one of them. -/
theorem exists_intercalate (as : List String) (x : String) (bs : List String) :
    ∃ rest, "\n".intercalate (as ++ x :: bs) ++ "\n" = stacked as ++ (x ++ "\n" ++ rest) := by
  induction as with
  | nil =>
    cases bs with
    | nil => exact ⟨"", by simp [stacked, String.intercalate_singleton]⟩
    | cons b bs =>
      refine ⟨"\n".intercalate (b :: bs) ++ "\n", ?_⟩
      rw [List.nil_append, String.intercalate_cons_cons]
      simp [stacked, String.append_assoc]
  | cons a as ih =>
    obtain ⟨rest, hrest⟩ := ih
    refine ⟨rest, ?_⟩
    obtain ⟨b, bs', hcons⟩ : ∃ b bs', as ++ x :: bs = b :: bs' := by
      cases as with
      | nil => exact ⟨_, _, rfl⟩
      | cons a as => exact ⟨_, _, rfl⟩
    rw [List.cons_append, hcons, String.intercalate_cons_cons, stacked_cons, String.append_assoc,
      String.append_assoc, ← hcons, hrest]
    simp only [String.append_assoc]

/-- What is rendered is, up to a text that is no blank, the texts one below the other. -/
theorem exists_render {x : String} (hx : trimEnd x ≠ "") (as bs : List String) :
    ∃ rest, render (as ++ x :: bs) = stacked (as.map trimEnd) ++ (trimEnd x ++ "\n" ++ rest) := by
  have hkept : (trimEnd x).isEmpty = false := by
    rw [Bool.eq_false_iff]
    exact fun h => hx (String.isEmpty_iff.1 h)
  have hlast : ∀ y ∈ (as.map trimEnd ++ [trimEnd x]).getLast?, y.isEmpty = false := by
    simpa using hkept
  unfold render
  rw [List.map_append, List.map_cons, List.append_cons, Text.dropTail_append_solid hlast,
    ← List.append_cons]
  exact exists_intercalate _ _ _

/-! ## The text in front of the marker -/

/-- The lines in front of the marker. -/
def headingLines (header : List String) : List String :=
  let head := header.map fun l => trimEnd (lineComment ++ " " ++ l)
  if head.isEmpty then [] else head ++ [lineComment]

/-- The text in front of the marker. -/
def heading (header : List String) : String := stacked (headingLines header)

/-- The line with the marker. -/
def markerLine : String := lineComment ++ " " ++ marker

theorem map_trimEnd_headingLines (header : List String) :
    (headingLines header).map trimEnd = headingLines header := by
  have hcomment : trimEnd lineComment = lineComment := by decide
  unfold headingLines
  dsimp only
  split
  · rfl
  · rw [List.map_append, List.map_map, List.map_singleton, hcomment]
    exact congrArg (· ++ [lineComment]) (List.map_congr_left fun l _ => trimEnd_trimEnd _)

theorem banner_eq (header : List String) :
    banner header lineComment = headingLines header ++ [markerLine, ""] := rfl

/-- A file up to a line that is no blank: the heading, the marker, and what stands between. -/
theorem renderFile_append {x : Line} (hx : trimEnd x.toString ≠ "") (header : List String)
    (as bs : List Line) : ∃ rest, renderFile header (as ++ x :: bs) =
      heading header ++ stacked (markerLine :: "" :: as.map fun l => trimEnd l.toString) ++
        (trimEnd x.toString ++ "\n" ++ rest) := by
  have hshort : [markerLine, ""].map trimEnd = [markerLine, ""] := by decide
  have hbefore : (banner header lineComment ++ as.map Line.toString).map trimEnd =
      headingLines header ++ (markerLine :: "" :: as.map fun l => trimEnd l.toString) := by
    rw [banner_eq, List.map_append, List.map_append, map_trimEnd_headingLines, hshort,
      List.append_assoc, List.map_map]
    rfl
  obtain ⟨rest, hrest⟩ := exists_render hx (banner header lineComment ++ as.map Line.toString)
    (bs.map Line.toString)
  refine ⟨rest, ?_⟩
  rw [hbefore, stacked_append] at hrest
  rw [renderFile, List.map_append, List.map_cons, ← List.append_assoc, hrest]
  rfl

/-- **A file** is its heading, the marker, and the rest. -/
theorem renderFile_eq (header : List String) (body : List Line) :
    ∃ rest, renderFile header body = heading header ++ (markerLine ++ "\n" ++ rest) := by
  have hmarker : trimEnd markerLine = markerLine := by decide
  have hne : trimEnd markerLine ≠ "" := by decide
  obtain ⟨rest, hrest⟩ := exists_render hne (headingLines header) ("" :: body.map Line.toString)
  refine ⟨rest, ?_⟩
  rw [renderFile, banner_eq, List.append_assoc]
  rw [hmarker, map_trimEnd_headingLines] at hrest
  exact hrest

/-! ## Comments -/

/-- Where a line ends. -/
def endsLine (c : Char) : Bool := c == '\n' || c == '\r'

/-- What stands between the ends of lines. -/
def pieces (text : String) : List (List Char) := Text.splitWhere endsLine text.toList

/-- `Commented text` — every line that ends in the text is a comment. -/
def Commented (text : String) : Prop := ∀ l ∈ (pieces text).dropLast, lineComment.toList <+: l

/-- `Contained item` — what an item of the header adds to its line is comments again. -/
def Contained (item : String) : Prop := ∀ l ∈ (pieces (trimEnd item)).tail, lineComment.toList <+: l

/-- What holds no end of a line is contained. -/
theorem contained_of_free {item : String} (h : ∀ c ∈ item.toList, endsLine c = false) :
    Contained item := by
  have hone : pieces (trimEnd item) = [(trimEnd item).toList] :=
    Text.splitWhere_free fun c hc => h c (mem_of_mem_trimEnd hc)
  unfold Contained
  rw [hone]
  exact fun l hl => nomatch hl

/-- So is an item of one character, even if that ends a line. -/
theorem contained_singleton (c : Char) : Contained (String.ofList [c]) := by
  cases hc : Text.isBlank c with
  | true =>
    have hnothing : trimEnd (String.ofList [c]) = "" := by
      unfold trimEnd Text.trimRight
      rw [String.toList_ofList, Text.dropTail, Text.dropTail]
      dsimp only
      rw [hc, if_pos rfl]
    unfold Contained
    rw [hnothing]
    exact fun l hl => absurd hl List.not_mem_nil
  | false =>
    refine contained_of_free fun d hd => ?_
    rw [String.toList_ofList, List.mem_singleton] at hd
    subst hd
    rw [Bool.eq_false_iff]
    intro hends
    have hcases : d = '\n' ∨ d = '\r' := by
      rcases (Bool.or_eq_true _ _).mp hends with h | h
      · exact Or.inl (beq_iff_eq.1 h)
      · exact Or.inr (beq_iff_eq.1 h)
    rcases hcases with rfl | rfl
    · exact absurd hc (by decide)
    · exact absurd hc (by decide)

/-- The lines that end in stacked texts. -/
theorem dropLast_pieces_stacked (texts : List String) :
    (pieces (stacked texts)).dropLast = texts.flatMap pieces := by
  have hpieces : pieces (stacked texts) = texts.flatMap pieces ++ [[]] := by
    induction texts with
    | nil => rfl
    | cons text texts ih =>
      have hcut : pieces (text ++ "\n" ++ stacked texts) = pieces text ++ pieces (stacked texts) := by
        unfold pieces
        rw [String.toList_append, String.toList_append, List.append_assoc]
        exact Text.splitWhere_append_cons (by decide)
      rw [stacked_cons, hcut, ih, List.flatMap_cons, List.append_assoc]
  rw [hpieces, List.dropLast_concat]

/-- The line of an item is comments exactly if the item is contained. -/
theorem forall_pieces_comment (item : String) :
    (∀ l ∈ pieces (trimEnd (lineComment ++ " " ++ item)), lineComment.toList <+: l) ↔ Contained item := by
  have hlist : (lineComment ++ " " ++ item).toList = ['/', '/'] ++ ' ' :: item.toList := by
    rw [String.toList_append]
    rfl
  have hline : (trimEnd (lineComment ++ " " ++ item)).toList =
      ['/', '/'] ++ Text.dropTail Text.isBlank (' ' :: item.toList) := by
    have hsolid : ∀ c ∈ ['/', '/'].getLast?, Text.isBlank c = false := by
      intro c hc
      obtain rfl : '/' = c := Option.some.inj hc
      decide
    rw [trimEnd, String.toList_ofList, Text.trimRight, hlist, Text.dropTail_append_solid hsolid]
  have hitem : (trimEnd item).toList = Text.dropTail Text.isBlank item.toList := by
    rw [trimEnd, String.toList_ofList]
    rfl
  unfold Contained pieces
  rw [hline, hitem, Text.dropTail]
  cases hrest : Text.dropTail Text.isBlank item.toList with
  | nil =>
    have hblank : Text.isBlank ' ' = true := by decide
    dsimp only
    rw [hblank, if_pos rfl]
    exact ⟨fun _ l hl => absurd hl List.not_mem_nil, fun _ l hl => List.mem_singleton.1 hl ▸ List.prefix_rfl⟩
  | cons c s =>
    obtain ⟨w, ws, hcut⟩ := List.exists_cons_of_ne_nil (Text.splitWhere_ne_nil endsLine (c :: s))
    have hfront : Text.splitWhere endsLine (['/', '/', ' '] ++ c :: s) = (['/', '/', ' '] ++ w) :: ws :=
      Text.splitWhere_append_left (List.forall_mem_cons.2 ⟨by decide,
        List.forall_mem_cons.2 ⟨by decide, List.forall_mem_singleton.2 (by decide)⟩⟩) hcut
    show (∀ l ∈ Text.splitWhere endsLine (['/', '/', ' '] ++ c :: s), _) ↔ _
    rw [hfront, hcut, List.forall_mem_cons]
    exact ⟨fun h => h.2, fun h => ⟨⟨' ' :: w, rfl⟩, h⟩⟩

/-- **In front of the marker** all lines are comments exactly if the items of the header are contained. -/
theorem commented_heading (header : List String) :
    Commented (heading header) ↔ ∀ item ∈ header, Contained item := by
  unfold Commented heading
  rw [dropLast_pieces_stacked, List.forall_mem_flatMap]
  unfold headingLines
  dsimp only
  have hcomment : ∀ l ∈ pieces lineComment, lineComment.toList <+: l := by decide
  split
  · rename_i hempty
    have hnil : header = [] := by simpa using hempty
    rw [hnil]
    exact ⟨fun _ _ h => (nomatch h), fun _ _ h => (nomatch h)⟩
  · rw [List.forall_mem_append, List.forall_mem_map, List.forall_mem_singleton]
    refine (and_iff_left hcomment).trans ?_
    exact forall₂_congr fun item _ => forall_pieces_comment item

end Bindery.Source
