/-
  CALLS AND SIGNATURES, read off the lines they stand in.

  A line calls what is named in front of its first parenthesis, and hands over what stands between
  commas up to the parenthesis that closes first (`callIn?`).  A declaration has its parameters at the
  same place, so one reader serves for both.  What makes it work is that nothing that is put between
  the commas holds a comma or a closing parenthesis of its own (`ListItem`).
-/
import Bindery.Proofs.Source.Defined

namespace Bindery.Source

open Naming

/-! ## Lines of a body -/

/-- The texts of the lines that stand in so many blocks. -/
def textsAt (depth : Nat) (ls : List Line) : List String :=
  (ls.filter (·.depth == depth)).map (·.text)

section

variable {depth : Nat} {ls : List Line} {text : String}

@[simp] theorem textsAt_nil : textsAt depth [] = [] := rfl

@[simp] theorem textsAt_append (ls ms : List Line) :
    textsAt depth (ls ++ ms) = textsAt depth ls ++ textsAt depth ms := by
  rw [textsAt, List.filter_append, List.map_append]
  rfl

@[simp] theorem textsAt_indent : textsAt (depth + 1) (indent ls) = textsAt depth ls := by
  unfold textsAt indent
  rw [List.filter_map, List.map_map]
  refine congrArg (List.map _) (List.filter_congr fun l _ => ?_)
  exact Bool.eq_iff_iff.2 (by simp)

@[simp] theorem textsAt_indent_zero : textsAt 0 (indent ls) = [] := by
  unfold textsAt indent
  rw [List.filter_map, List.map_map]
  exact List.map_eq_nil_iff.2 (List.filter_eq_nil_iff.2 fun l _ => by simp)

@[simp] theorem textsAt_line_zero : textsAt 0 (line text :: ls) = text :: textsAt 0 ls := rfl

@[simp] theorem textsAt_gap_zero : textsAt 0 (gap :: ls) = "" :: textsAt 0 ls := rfl

@[simp] theorem textsAt_line : textsAt (depth + 1) (line text :: ls) = textsAt (depth + 1) ls := rfl

@[simp] theorem textsAt_gap : textsAt (depth + 1) (gap :: ls) = textsAt (depth + 1) ls := rfl

@[simp] theorem textsAt_map_line {α : Type} (xs : List α) (f : α → String) :
    textsAt 0 (xs.map fun x => line (f x)) = xs.map f := by
  induction xs with
  | nil => rfl
  | cons x xs ih => exact congrArg (f x :: ·) ih

@[simp] theorem textsAt_map_line_deeper {α : Type} (xs : List α) (f : α → String) :
    textsAt (depth + 1) (xs.map fun x => line (f x)) = [] := by
  induction xs with
  | nil => rfl
  | cons x xs ih => exact ih

@[simp] theorem textsAt_lines (texts : List String) : textsAt 0 (Source.lines texts) = texts :=
  (textsAt_map_line texts id).trans (List.map_id _)

@[simp] theorem textsAt_lines_deeper (texts : List String) :
    textsAt (depth + 1) (Source.lines texts) = [] := textsAt_map_line_deeper texts id

end

/-! ## Lists between commas -/

/-- `Component text` — the text is one of several with commas between them: it starts with something,
which is no blank, and it holds no comma. -/
structure Component (text : String) : Prop where
  start : ∃ c s, text.toList = c :: s ∧ c ≠ ' '
  noComma : ',' ∉ text.toList

/-- `ListItem text` — the text is one item of a list: it starts with something, which is no blank, and it
holds nothing that ends an item. -/
structure ListItem (text : String) : Prop where
  start : ∃ c s, text.toList = c :: s ∧ c ≠ ' '
  noComma : ',' ∉ text.toList
  noClosing : ')' ∉ text.toList

/-- The items of a list: what stands between commas, without the blank in front. -/
def itemsIn (s : List Char) : List String :=
  if s.isEmpty then []
  else (Text.splitOn ',' s).map fun w => String.ofList (w.dropWhile (· == ' '))

namespace Component

variable {text : String}

theorem of_wordy (h : Wordy text.toList) (hne : text ≠ "") : Component text := by
  obtain ⟨c, s, hs⟩ := List.exists_cons_of_ne_nil (l := text.toList) fun hnil =>
    hne (String.toList_inj.1 hnil)
  refine ⟨⟨c, s, hs, ?_⟩, h.notMem (by decide)⟩
  rintro rfl
  rw [hs] at h
  exact h.notMem (by decide) List.mem_cons_self

theorem append {more : String} (h : Component text) (hcomma : ',' ∉ more.toList) :
    Component (text ++ more) := by
  obtain ⟨c, s, hs, hc⟩ := h.start
  refine ⟨⟨c, s ++ more.toList, ?_, hc⟩, ?_⟩
  · rw [String.toList_append, hs, List.cons_append]
  · rw [String.toList_append, List.mem_append, not_or]
    exact ⟨h.noComma, hcomma⟩

theorem ofList_dropWhile (h : Component text) {blanks : List Char} (hblanks : ∀ c ∈ blanks, c = ' ') :
    String.ofList ((blanks ++ text.toList).dropWhile (· == ' ')) = text := by
  obtain ⟨c, s, hs, hc⟩ := h.start
  rw [List.dropWhile_append_of_pos (by simpa using hblanks), hs,
    List.dropWhile_cons_of_neg (by simpa using hc), ← hs, String.ofList_toList]

end Component

namespace ListItem

variable {text : String}

theorem component (h : ListItem text) : Component text := ⟨h.start, h.noComma⟩

theorem of_wordy (h : Wordy text.toList) (hne : text ≠ "") : ListItem text := by
  have hcomponent := Component.of_wordy h hne
  exact ⟨hcomponent.start, hcomponent.noComma, h.notMem (by decide)⟩

theorem append {more : String} (h : ListItem text) (hcomma : ',' ∉ more.toList)
    (hclosing : ')' ∉ more.toList) : ListItem (text ++ more) := by
  have hcomponent := h.component.append hcomma
  refine ⟨hcomponent.start, hcomponent.noComma, ?_⟩
  rw [String.toList_append, List.mem_append, not_or]
  exact ⟨h.noClosing, hclosing⟩

end ListItem

/-- Items with commas between them, and blanks in front. -/
theorem splitOn_commas {t : String} {texts : List String} (ht : Component t)
    (hts : ∀ u ∈ texts, Component u)
    {blanks : List Char} (hblanks : ∀ c ∈ blanks, c = ' ') :
    (Text.splitOn ',' (blanks ++ (commas (t :: texts)).toList)).map
      (fun w => String.ofList (w.dropWhile (· == ' '))) = t :: texts := by
  have hfree : ',' ∉ blanks ++ t.toList := by
    rw [List.mem_append, not_or]
    exact ⟨fun hmem => absurd (hblanks _ hmem) (by decide), ht.noComma⟩
  induction texts generalizing t blanks with
  | nil =>
    rw [commas, String.intercalate_singleton, Text.splitOn_free hfree, List.map_singleton,
      ht.ofList_dropWhile hblanks]
  | cons u texts ih =>
    obtain ⟨hu, hrest⟩ := List.forall_mem_cons.1 hts
    have hone : ∀ c ∈ [' '], c = ' ' := fun c hc => List.mem_singleton.1 hc
    have hsplit : (commas (t :: u :: texts)).toList =
        t.toList ++ ',' :: ([' '] ++ (commas (u :: texts)).toList) := by
      unfold commas
      rw [String.intercalate_cons_cons, String.toList_append, String.toList_append, List.append_assoc]
      rfl
    rw [hsplit, ← List.append_assoc, Text.splitOn_append, Text.splitOn_free hfree, List.map_append,
      List.map_singleton, ht.ofList_dropWhile hblanks, ih hu hrest hone]
    · rfl
    · rw [List.mem_append, not_or]
      exact ⟨by decide, hu.noComma⟩

/-- What has commas put between is read off them again. -/
theorem itemsIn_components {texts : List String} (h : ∀ t ∈ texts, Component t) :
    itemsIn (commas texts).toList = texts := by
  cases texts with
  | nil => rfl
  | cons t texts =>
    obtain ⟨ht, hts⟩ := List.forall_mem_cons.1 h
    have hitems := splitOn_commas ht hts (List.forall_mem_nil _)
    rw [List.nil_append] at hitems
    unfold itemsIn
    rw [if_neg, hitems]
    -- An empty text would have an empty first item.
    intro hempty
    rw [List.isEmpty_iff.1 hempty] at hitems
    obtain ⟨c, s, hs, _⟩ := ht.start
    rw [← (List.cons.inj hitems).1] at hs
    nomatch hs

theorem itemsIn_commas {texts : List String} (h : ∀ t ∈ texts, ListItem t) :
    itemsIn (commas texts).toList = texts :=
  itemsIn_components fun t ht => (h t ht).component

/-! ## What is in parentheses -/

/-- What stands in front of the first parenthesis. -/
def beforeParens (s : List Char) : List Char := s.takeWhile (· != '(')

/-- What stands between the first parenthesis and the one that closes first. -/
def inFirstParens (s : List Char) : List Char :=
  ((s.dropWhile (· != '(')).drop 1).takeWhile (· != ')')

/-- The parameters that a line declares, or the arguments that it hands over. -/
def parametersIn (text : String) : List String := itemsIn (inFirstParens text.toList)

section

variable {text before : String} {texts : List String}

theorem toList_parens (before after : String) (texts : List String) :
    (before ++ (inParens (commas texts) ++ after)).toList =
      before.toList ++ '(' :: ((commas texts).toList ++ ')' :: after.toList) := by
  simp only [inParens, String.toList_append, List.append_assoc]
  rfl

theorem parametersIn_append (after : String) (h : '(' ∉ before.toList) (htexts : ∀ t ∈ texts, ListItem t) :
    parametersIn (before ++ (inParens (commas texts) ++ after)) = texts := by
  have hopen : ∀ c ∈ before.toList, (c != '(') = true := fun c hc =>
    bne_iff_ne.2 fun heq => h (heq ▸ hc)
  have hfree : ')' ∉ (commas texts).toList :=
    notMem_commas (by decide) fun t ht => (htexts t ht).noClosing
  have hclose : ∀ c ∈ (commas texts).toList, (c != ')') = true := fun c hc =>
    bne_iff_ne.2 fun heq => hfree (heq ▸ hc)
  rw [parametersIn, inFirstParens, toList_parens,
    Text.dropWhile_append_stops hopen (Text.stops_cons.2 rfl), List.drop_one, List.tail_cons,
    Text.takeWhile_append_stops hclose (Text.stops_cons.2 rfl), itemsIn_commas htexts]

end

/-! ## Calls -/

/-- Characters of the path of a function. -/
def isPathChar (c : Char) : Bool := isIdentifierChar c || c == ':'

/-- What stands at the end of a text, of characters of a path. -/
def lastPath (s : List Char) : String := String.ofList (s.reverse.takeWhile isPathChar).reverse

/-- The function that a line calls first, and what it hands over. -/
def callIn? (text : String) : Option (String × List String) :=
  if '(' ∈ text.toList then some (lastPath (beforeParens text.toList), parametersIn text) else none

theorem lastPath_append {before path : List Char} (hbefore : Text.Stops isPathChar before.reverse)
    (hpath : ∀ c ∈ path, isPathChar c = true) : lastPath (before ++ path) = String.ofList path := by
  have hrun : ∀ c ∈ path.reverse, isPathChar c = true := fun c hc => hpath c (List.mem_reverse.1 hc)
  unfold lastPath
  rw [List.reverse_append, Text.takeWhile_append_stops hrun hbefore, List.reverse_reverse]

/-- What a text stops, it stops with anything behind it. -/
theorem stops_append {p : Char → Bool} {mark : String} (h : mark.toList ≠ [] ∧ Text.Stops p mark.toList)
    (rest : String) : Text.Stops p (mark ++ rest).toList := by
  intro c hc
  rw [String.toList_append, List.head?_append_of_ne_nil _ h.1] at hc
  exact h.2 c hc

/-- A text with such a last character. -/
theorem stops_reverse {p : Char → Bool} {s : List Char} {c : Char} (h : s.getLast? = some c)
    (hc : p c = false) : Text.Stops p s.reverse := by
  intro d hd
  rw [List.head?_reverse, h] at hd
  cases hd
  exact hc

theorem isPathChar_of_wordy {name : String} (h : Wordy name.toList) :
    ∀ c ∈ name.toList, isPathChar c = true := fun c hc => by
  rw [isPathChar, h c hc, Bool.true_or]

/-- A call, with something in front of it that is no part of the path. -/
theorem callIn?_path {text before path : String} (after : String)
    (htext : text = before ++ (path ++ ("(" ++ after))) (hbefore : '(' ∉ before.toList)
    (hlast : Text.Stops isPathChar before.toList.reverse)
    (hpath : ∀ c ∈ path.toList, isPathChar c = true) :
    callIn? text = some (path, parametersIn text) := by
  have hopen : ∀ c ∈ before.toList ++ path.toList, (c != '(') = true :=
    List.forall_mem_append.2 ⟨fun c hc => bne_iff_ne.2 fun heq => hbefore (heq ▸ hc), fun c hc =>
      bne_iff_ne.2 fun heq => absurd (hpath c hc) (by rw [heq]; decide)⟩
  have hread : text.toList = (before.toList ++ path.toList) ++ '(' :: after.toList := by
    rw [htext]
    simp only [String.toList_append, List.append_assoc]
    rfl
  have hmem : '(' ∈ text.toList := by
    rw [hread]
    exact List.mem_append_right _ List.mem_cons_self
  have hfront : beforeParens text.toList = before.toList ++ path.toList := by
    rw [hread]
    exact Text.takeWhile_append_stops hopen (Text.stops_cons.2 rfl)
  rw [callIn?, if_pos hmem, hfront, lastPath_append hlast hpath, String.ofList_toList]

/-- A call with arguments that can be told apart. -/
theorem callIn?_eq {text path : String} {args : List String} (before after : String)
    (htext : text = before ++ (path ++ (inParens (commas args) ++ after)))
    (hbefore : '(' ∉ before.toList) (hlast : Text.Stops isPathChar before.toList.reverse)
    (hpath : ∀ c ∈ path.toList, isPathChar c = true) (hargs : ∀ a ∈ args, ListItem a) :
    callIn? text = some (path, args) := by
  have hfree : '(' ∉ (before ++ path).toList := by
    rw [String.toList_append, List.mem_append, not_or]
    exact ⟨hbefore, fun hmem => absurd (hpath _ hmem) (by decide)⟩
  have hread : text = before ++ (path ++ ("(" ++ (commas args ++ ")" ++ after))) := by
    rw [htext, inParens]
    simp only [String.append_assoc]
  rw [callIn?_path _ hread hbefore hlast hpath, htext, ← String.append_assoc,
    parametersIn_append _ hfree hargs]

/-! ## All calls of a line -/

/-- Characters of a name with its path, or with the object in front of it. -/
def isCalleeChar (c : Char) : Bool := isPathChar c || c == '.'

theorem isCalleeChar_of_isPathChar {c : Char} (h : isPathChar c = true) : isCalleeChar c = true := by
  rw [isCalleeChar, h, Bool.true_or]

theorem isCalleeChar_of_wordy {name : String} (h : Wordy name.toList) :
    ∀ c ∈ name.toList, isCalleeChar c = true := fun c hc =>
  isCalleeChar_of_isPathChar (isPathChar_of_wordy h c hc)

/-- What is called, one after the other; `run` is what has been read of a name, backwards. -/
def calleesFrom (run : List Char) : List Char → List String
  | [] => []
  | c :: s =>
    (if c = '(' then [String.ofList run.reverse] else []) ++
      calleesFrom (if isCalleeChar c then c :: run else []) s

/-- Everything that a text calls: what stands in front of its parentheses. -/
def calleesIn (text : String) : List String := calleesFrom [] text.toList

/-- `Calls P text` — whatever the text calls has the property. -/
def Calls (P : String → Prop) (text : String) : Prop := ∀ callee ∈ calleesIn text, P callee

/-- Nothing is called without a parenthesis. -/
theorem calleesFrom_free {run s : List Char} (h : '(' ∉ s) : calleesFrom run s = [] := by
  induction s generalizing run with
  | nil => rfl
  | cons c s ih =>
    rw [List.mem_cons, not_or] at h
    rw [calleesFrom, if_neg (Ne.symm h.1), ih h.2, List.append_nil]

/-- A name in front of a parenthesis. -/
theorem calleesFrom_name {run name : List Char} (s : List Char)
    (h : ∀ c ∈ name, isCalleeChar c = true) :
    calleesFrom run (name ++ '(' :: s) = String.ofList (run.reverse ++ name) :: calleesFrom [] s := by
  induction name generalizing run with
  | nil =>
    rw [List.nil_append, List.append_nil, calleesFrom, if_pos rfl]
    rfl
  | cons c name ih =>
    obtain ⟨hc, hname⟩ := List.forall_mem_cons.1 h
    have hopen : c ≠ '(' := by
      rintro rfl
      exact absurd hc (by decide)
    rw [List.cons_append, calleesFrom, if_neg hopen, if_pos hc, List.nil_append, ih hname,
      List.reverse_cons, List.append_assoc, List.singleton_append]

/-- Behind what is no part of a name the reading starts afresh. -/
theorem calleesFrom_append {run a : List Char} (b : List Char) (hne : a ≠ [])
    (hlast : Text.Stops isCalleeChar a.reverse) :
    calleesFrom run (a ++ b) = calleesFrom run a ++ calleesFrom [] b := by
  induction a generalizing run with
  | nil => exact absurd rfl hne
  | cons c a ih =>
    rw [List.cons_append, calleesFrom, calleesFrom, List.append_assoc]
    refine congrArg (List.append _) ?_
    by_cases hrest : a = []
    · subst hrest
      have hc : isCalleeChar c = false := Text.stops_cons.1 hlast
      rw [hc]
      rfl
    · refine ih hrest fun d hd => hlast d ?_
      rw [List.reverse_cons, List.head?_append_of_ne_nil _ (by simpa using hrest)]
      exact hd

namespace Calls

variable {P : String → Prop} {a b path : String}

theorem of_notMem (h : '(' ∉ a.toList) : Calls P a := by
  unfold Calls calleesIn
  rw [calleesFrom_free h]
  exact fun _ h => nomatch h

theorem append (ha : Calls P a) (hb : Calls P b) (hlast : Text.Stops isCalleeChar a.toList.reverse) :
    Calls P (a ++ b) := by
  unfold Calls calleesIn
  rw [String.toList_append]
  by_cases hne : a.toList = []
  · rw [hne]
    exact hb
  · rw [calleesFrom_append _ hne hlast]
    exact List.forall_mem_append.2 ⟨ha, hb⟩

/-- A call, with what it is handed and what comes behind. -/
theorem call (hpath : ∀ c ∈ path.toList, isCalleeChar c = true) (hP : P path) (hb : Calls P b) :
    Calls P (path ++ ("(" ++ b)) := by
  have hread : (path ++ ("(" ++ b)).toList = path.toList ++ '(' :: b.toList := by
    simp only [String.toList_append]
    rfl
  unfold Calls calleesIn
  rw [hread, calleesFrom_name _ hpath]
  refine List.forall_mem_cons.2 ⟨?_, hb⟩
  rw [List.reverse_nil, List.nil_append, String.ofList_toList]
  exact hP

end Calls

/-- `OneCall callee text` — the text calls this and nothing else. -/
def OneCall (callee text : String) : Prop :=
  ∃ before after, text = before ++ (callee ++ ("(" ++ after)) ∧ '(' ∉ before.toList ∧
    Text.Stops isCalleeChar before.toList.reverse ∧ '(' ∉ after.toList

namespace OneCall

variable {P : String → Prop} {callee text : String}

theorem calls (h : OneCall callee text) (hcallee : ∀ c ∈ callee.toList, isPathChar c = true)
    (hP : P callee) : Calls P text := by
  obtain ⟨before, after, rfl, hbefore, hlast, hafter⟩ := h
  have hname : ∀ c ∈ callee.toList, isCalleeChar c = true := fun c hc =>
    isCalleeChar_of_isPathChar (hcallee c hc)
  exact (Calls.of_notMem hbefore).append (.call hname hP (.of_notMem hafter)) hlast

theorem callIn? (h : OneCall callee text) (hcallee : ∀ c ∈ callee.toList, isPathChar c = true) :
    Source.callIn? text = some (callee, parametersIn text) := by
  obtain ⟨before, after, htext, hbefore, hlast, _⟩ := h
  refine callIn?_path after htext hbefore (fun c hc => ?_) hcallee
  have hstops := hlast c hc
  rw [isCalleeChar, Bool.or_eq_false_iff] at hstops
  exact hstops.1

end OneCall

end Bindery.Source
