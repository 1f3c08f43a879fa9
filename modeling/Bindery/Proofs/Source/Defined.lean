/-
  DEFINITIONS, read off the text of a file.

  A file is read line by line, cut at its line feeds.  Each kind of definition has a head with which
  its lines start, and what stands behind the head is taken in by a `Reader`: a name, or a name and
  a number in decimals (`numbered`).  A reader does not know how the text was made, so a line feed
  inside of what was meant to be one line makes two, and the second is read like any other.

  `readIn_file` says what is read from a file, line by line of what it was made of; lines that hold
  no line feed and start otherwise than the head can be left out (`Reader.Skips`).  So to know what a
  file defines is to know which of its lines start with the head.
-/
import Bindery.Layer.Setting
import Bindery.Proofs.Naming.Symbols
import Bindery.Proofs.Text.Cutting

namespace Bindery.Source

/-! ## Lines of a text -/

/-- The lines of a text, cut at its line feeds. -/
def linesOf (text : String) : List (List Char) := Text.splitOn '\n' text.toList

/-- `Unbroken text` — no line feed in the text. -/
def Unbroken (text : String) : Prop := '\n' ∉ text.toList

instance (text : String) : Decidable (Unbroken text) := inferInstanceAs (Decidable (_ ∉ _))

theorem unbroken_append {a b : String} : Unbroken (a ++ b) ↔ Unbroken a ∧ Unbroken b := by
  unfold Unbroken
  rw [String.toList_append, List.mem_append, not_or]

/-- What is in none of the texts, and not what is put between them. -/
theorem notMem_commas {c : Char} (hc : c ∉ ", ".toList) {texts : List String} :
    (∀ t ∈ texts, c ∉ t.toList) → c ∉ (commas texts).toList := by
  unfold commas
  intro h
  induction texts with
  | nil => exact fun hmem => nomatch hmem
  | cons t texts ih =>
    obtain ⟨ht, hts⟩ := List.forall_mem_cons.1 h
    cases texts with
    | nil =>
      rw [String.intercalate_singleton]
      exact ht
    | cons u texts =>
      rw [String.intercalate_cons_cons, String.toList_append, String.toList_append, List.mem_append,
        List.mem_append, not_or, not_or]
      exact ⟨⟨ht, hc⟩, ih hts⟩

theorem unbroken_commas {texts : List String} (h : ∀ t ∈ texts, Unbroken t) :
    Unbroken (commas texts) := notMem_commas (by decide) h

theorem unbroken_of_wordy {name : String} (h : Wordy name.toList) : Unbroken name :=
  h.notMem (by decide)

theorem Unbroken.trimEnd {text : String} (h : Unbroken text) : Unbroken (trimEnd text) := by
  obtain ⟨b, _, hb⟩ := Text.exists_dropTail (p := Text.isBlank) text.toList
  intro hmem
  rw [Source.trimEnd, String.toList_ofList] at hmem
  refine h ?_
  rw [hb]
  exact List.mem_append_left _ hmem

theorem linesOf_unbroken {text : String} (h : Unbroken text) : linesOf text = [text.toList] :=
  Text.splitOn_free h

/-- The lines of texts that stand one below the other. -/
theorem linesOf_joined {texts : List String} (h : texts ≠ []) :
    linesOf ("\n".intercalate texts ++ "\n") = texts.flatMap linesOf ++ [[]] := by
  have hfeed : ∀ a b : String, linesOf (a ++ "\n" ++ b) = linesOf a ++ linesOf b := by
    intro a b
    unfold linesOf
    rw [String.toList_append, String.toList_append, List.append_assoc]
    exact Text.splitOn_append
  induction texts with
  | nil => exact absurd rfl h
  | cons t texts ih =>
    cases texts with
    | nil =>
      rw [String.intercalate_singleton, List.flatMap_singleton, ← String.append_empty (s := t ++ "\n"),
        hfeed]
      rfl
    | cons u texts =>
      rw [String.intercalate_cons_cons, String.append_assoc, hfeed, ih (List.cons_ne_nil _ _),
        ← List.append_assoc]
      rfl

/-! ## Readers -/

/-- What is read off the lines with a head. -/
structure Reader (β : Type) where
  head : String
  /-- What is read behind the head. -/
  behind : List Char → Option β

namespace Reader

variable {β : Type} {r : Reader β}

/-- What a line gives. -/
def read? (r : Reader β) (s : List Char) : Option β :=
  if r.head.toList <+: s then r.behind (s.drop r.head.toList.length) else none

/-- What a text gives, line by line. -/
def readIn (r : Reader β) (text : String) : List β := (linesOf text).filterMap r.read?

/-- What a line of a file gives. -/
def readLine (r : Reader β) (l : Line) : List β := r.readIn (trimEnd l.toString)

/-- What the lines of a file give. -/
def readLines (r : Reader β) (ls : List Line) : List β := ls.flatMap r.readLine

/-- The reader of lines that stand one block deeper. -/
def deeper (r : Reader β) : Reader β := ⟨"    " ++ r.head, r.behind⟩

/-- A reader of lines that stand in no block, whose head is no comment. -/
structure Outer (r : Reader β) : Prop where
  head : r.head.toList ≠ []
  noComment : r.head.toList.head? ≠ some '/'
  noBlock : r.head.toList.head? ≠ some ' '
  noClosing : r.head.toList.head? ≠ some '\x7d'

theorem read?_eq_none {s : List Char} (h : ¬ r.head.toList <+: s) : r.read? s = none := if_neg h

theorem read?_append (s : List Char) : r.read? (r.head.toList ++ s) = r.behind s := by
  rw [read?, if_pos (List.prefix_append _ _), List.drop_left]

theorem readIn_unbroken {text : String} (h : Unbroken text) :
    r.readIn text = (r.read? text.toList).toList := by
  unfold readIn
  rw [linesOf_unbroken h, List.filterMap_cons]
  cases r.read? text.toList <;> rfl

theorem read?_nil (hr : r.head.toList ≠ []) : r.read? [] = none :=
  read?_eq_none fun h => hr (List.prefix_nil.1 h)

theorem readIn_empty (hr : r.head.toList ≠ []) : r.readIn "" = [] := by
  rw [readIn_unbroken (by decide)]
  exact congrArg Option.toList (read?_nil hr)

/-! ## Files -/

/-- What is read from texts that are rendered is what is read from each of them. -/
theorem readIn_render (hr : r.head.toList ≠ []) (texts : List String) :
    r.readIn (render texts) = texts.flatMap fun t => r.readIn (trimEnd t) := by
  obtain ⟨dropped, hdropped, hall⟩ := Text.exists_dropTail (p := String.isEmpty) (texts.map trimEnd)
  have hnothing : dropped.flatMap r.readIn = [] := by
    refine List.flatMap_eq_nil_iff.2 fun t ht => ?_
    rw [String.isEmpty_iff.1 (hdropped t ht)]
    exact readIn_empty hr
  have htrimmed : texts.flatMap (fun t => r.readIn (trimEnd t)) =
      (texts.map trimEnd).flatMap r.readIn := (List.flatMap_map ..).symm
  rw [htrimmed, hall, List.flatMap_append, hnothing, List.append_nil]
  unfold render
  generalize Text.dropTail String.isEmpty (texts.map trimEnd) = kept
  have hlast : [([] : List Char)].filterMap r.read? = [] := readIn_empty hr
  by_cases hne : kept = []
  · subst hne
    show [([] : List Char), []].filterMap r.read? = []
    rw [List.filterMap_cons, read?_nil hr]
    exact hlast
  · unfold readIn
    rw [linesOf_joined hne, List.filterMap_append, hlast, List.append_nil, List.filterMap_flatMap]

/-- What is read from a file: from the lines of its banner, then from those of its body. -/
theorem readIn_file (hr : r.head.toList ≠ []) (s : Setting) (path : String) (body : List Line) :
    r.readIn (s.file path body).text =
      (banner (s.header.map (·.text)) lineComment).flatMap (fun t => r.readIn (trimEnd t)) ++
        r.readLines body := by
  unfold Setting.file renderFile
  rw [readIn_render hr, List.flatMap_append, List.flatMap_map]
  rfl

theorem mem_readIn_of_body (hr : r.head.toList ≠ []) {s : Setting} {path : String}
    {body : List Line} {l : Line} (hl : l ∈ body) {x : β} (hx : x ∈ r.readLine l) :
    x ∈ r.readIn (s.file path body).text := by
  rw [readIn_file hr]
  exact List.mem_append_right _ (List.mem_flatMap.2 ⟨l, hl, hx⟩)

theorem mem_readIn_of_banner (hr : r.head.toList ≠ []) {s : Setting} {t : String}
    (ht : t ∈ banner (s.header.map (·.text)) lineComment) {x : β} (hx : x ∈ r.readIn (trimEnd t))
    (path : String) (body : List Line) : x ∈ r.readIn (s.file path body).text := by
  rw [readIn_file hr]
  exact List.mem_append_left _ (List.mem_flatMap.2 ⟨t, ht, hx⟩)

theorem trimEnd_cons {c : Char} (hc : Text.isBlank c = false) {s : List Char} {text : String}
    (h : text.toList = c :: s) : (trimEnd text).toList.head? = some c := by
  have hkept := Text.dropTail_append_solid (a := [c]) (p := Text.isBlank) (fun d hd => Option.some.inj hd ▸ hc) s
  rw [trimEnd, String.toList_ofList, Text.trimRight, h]
  exact congrArg List.head? hkept

/-- Every line of a banner is a comment or empty. -/
theorem banner_comment {header : List String} {t : String} (ht : t ∈ banner header lineComment) :
    (trimEnd t).toList = [] ∨ (trimEnd t).toList.head? = some '/' := by
  have hcomment : ∀ {text : String} {s : List Char}, text.toList = '/' :: s →
      (trimEnd text).toList.head? = some '/' := trimEnd_cons (by decide)
  unfold banner at ht
  dsimp only at ht
  rcases List.mem_append.1 ht with ht | ht
  · split at ht
    · nomatch ht
    · rcases List.mem_append.1 ht with ht | ht
      · obtain ⟨l, _, rfl⟩ := List.mem_map.1 ht
        have hhead : (trimEnd (lineComment ++ " " ++ l)).toList.head? = some '/' := by
          refine hcomment (s := '/' :: ' ' :: l.toList) ?_
          rw [String.toList_append]
          rfl
        obtain ⟨s, hs⟩ := List.head?_eq_some_iff.1 hhead
        exact Or.inr (hcomment hs)
      · rw [List.mem_singleton.1 ht]
        exact Or.inr (by decide)
  · rcases List.mem_cons.1 ht with rfl | ht
    · exact Or.inr (by decide)
    · rw [List.mem_singleton.1 ht]
      exact Or.inl (by decide)

/-- No line of a banner starts like something else than a comment. -/
theorem banner_other {header : List String} {t : String} {head : List Char} (hne : head ≠ [])
    (hhead : head.head? ≠ some '/') (ht : t ∈ banner header lineComment) :
    ¬ head <+: (trimEnd t).toList := by
  intro hp
  rcases banner_comment ht with hnil | hcomment
  · exact hne (List.prefix_nil.1 (hnil ▸ hp))
  · obtain ⟨c, s, rfl⟩ := List.exists_cons_of_ne_nil hne
    obtain ⟨more, hmore⟩ := hp
    rw [← hmore] at hcomment
    exact hhead hcomment

theorem unbroken_banner {header : List String} (h : ∀ t ∈ header, Unbroken t) :
    ∀ t ∈ banner header lineComment, Unbroken t := by
  unfold banner
  dsimp only
  refine List.forall_mem_append.2 ⟨?_, by decide⟩
  split
  · exact fun t ht => (nomatch ht)
  · refine List.forall_mem_append.2 ⟨List.forall_mem_map.2 fun t ht => Unbroken.trimEnd ?_, by decide⟩
    exact unbroken_append.2 ⟨by decide, h t ht⟩

/-- Where the header has no line feed inside of a line, what is read from a file is read from its
body. -/
theorem readIn_file_of_unbroken (hr : r.head.toList ≠ []) (hc : r.head.toList.head? ≠ some '/')
    {s : Setting} (hheader : ∀ t ∈ s.header, Unbroken t.text) (path : String) (body : List Line) :
    r.readIn (s.file path body).text = r.readLines body := by
  have hbanner : (banner (s.header.map (·.text)) lineComment).flatMap
      (fun t => r.readIn (trimEnd t)) = [] := by
    refine List.flatMap_eq_nil_iff.2 fun t ht => ?_
    have hunbroken := unbroken_banner (List.forall_mem_map.2 hheader) t ht
    rw [readIn_unbroken hunbroken.trimEnd, read?_eq_none (banner_other hr hc ht)]
    rfl
  rw [readIn_file hr, hbanner, List.nil_append]

/-! ## Lines one after the other -/

theorem readLines_append (ls ms : List Line) :
    r.readLines (ls ++ ms) = r.readLines ls ++ r.readLines ms := List.flatMap_append

theorem readLines_cons (l : Line) (ls : List Line) :
    r.readLines (l :: ls) = r.readLine l ++ r.readLines ls := List.flatMap_cons

theorem readLines_map {α : Type} {xs : List α} {f : α → Line} {g : α → β}
    (h : ∀ x ∈ xs, r.readLine (f x) = [g x]) : r.readLines (xs.map f) = xs.map g := by
  unfold readLines
  rw [List.flatMap_map, List.map_eq_flatMap]
  exact List.flatMap_congr h

end Reader

/-- `OneLined ls` — no line feed in the text of any of the lines. -/
def OneLined (ls : List Line) : Prop := ∀ l ∈ ls, Unbroken l.text

namespace OneLined

variable {ls ms : List Line}

instance (ls : List Line) : Decidable (OneLined ls) := inferInstanceAs (Decidable (∀ _ ∈ _, _))

theorem nil : OneLined [] := fun _ h => (nomatch h)

theorem cons {l : Line} (hl : Unbroken l.text) (hls : OneLined ls) : OneLined (l :: ls) :=
  List.forall_mem_cons.2 ⟨hl, hls⟩

theorem append (hl : OneLined ls) (hm : OneLined ms) : OneLined (ls ++ ms) :=
  List.forall_mem_append.2 ⟨hl, hm⟩

theorem indent (h : OneLined ls) : OneLined (indent ls) := List.forall_mem_map.2 h

theorem map {α : Type} {xs : List α} {text : α → String} (h : ∀ x ∈ xs, Unbroken (text x)) :
    OneLined (xs.map fun x => line (text x)) := List.forall_mem_map.2 h

theorem flatMap {α : Type} {xs : List α} {f : α → List Line} (h : ∀ x ∈ xs, OneLined (f x)) :
    OneLined (xs.flatMap f) := fun l hl => by
  obtain ⟨x, hx, hl⟩ := List.mem_flatMap.1 hl
  exact h x hx l hl

theorem block {head : String} {body : List Line} (hhead : Unbroken head) (hbody : OneLined body) :
    OneLined (block head body) := by
  refine append (cons ?_ hbody.indent) (by decide)
  exact unbroken_append.2 ⟨unbroken_append.2 ⟨hhead, by decide⟩, by decide⟩

end OneLined

/-! ## Lines that are read -/

theorem toString_line (text : String) : (line text).toString = text := by
  apply String.toList_inj.1
  unfold Line.toString line
  rw [String.toList_append, String.toList_ofList]
  rfl

theorem toString_deeper (depth : Nat) (text : String) :
    (⟨depth + 1, text⟩ : Line).toString = "    " ++ (⟨depth, text⟩ : Line).toString := by
  have hblanks : String.ofList (List.replicate (4 * (depth + 1)) ' ') =
      "    " ++ String.ofList (List.replicate (4 * depth) ' ') := by
    apply String.toList_inj.1
    simp only [String.toList_append, String.toList_ofList]
    rw [Nat.mul_succ, Nat.add_comm, List.replicate_add]
    rfl
  unfold Line.toString
  rw [hblanks, String.append_assoc]

theorem unbroken_toString {l : Line} (h : Unbroken l.text) : Unbroken l.toString := by
  unfold Line.toString
  refine unbroken_append.2 ⟨?_, h⟩
  unfold Unbroken
  rw [String.toList_ofList]
  exact fun hm => absurd (List.eq_of_mem_replicate hm) (by decide)

/-- `Apart a b` — neither of the two texts starts with the other. -/
def Apart (a b : String) : Prop := ¬ a.toList <+: b.toList ∧ ¬ b.toList <+: a.toList

instance (a b : String) : Decidable (Apart a b) := inferInstanceAs (Decidable (_ ∧ _))

/-- Texts that differ go on differing. -/
theorem Apart.append {a b : String} (h : Apart a b) (c : String) : Apart a (b ++ c) := by
  unfold Apart
  rw [String.toList_append]
  refine ⟨fun hp => ?_, fun hp => h.2 ((List.prefix_append _ _).trans hp)⟩
  exact (List.prefix_or_prefix_of_prefix hp (List.prefix_append _ _)).elim h.1 h.2

/-- Texts that differ in one character differ. -/
theorem Apart.of_char {a b : String} {front s t : List Char} {c d : Char}
    (ha : a.toList = front ++ c :: s) (hb : b.toList = front ++ d :: t) (h : c ≠ d) : Apart a b := by
  unfold Apart
  rw [ha, hb, List.prefix_append_right_inj, List.prefix_append_right_inj, List.cons_prefix_cons,
    List.cons_prefix_cons]
  exact ⟨fun hp => h hp.1, fun hp => h hp.1.symm⟩

namespace Reader

variable {β : Type} {r : Reader β}

/-- `r.Skips l` — no line feed in the line, and it does not start with the head. -/
structure Skips (r : Reader β) (l : Line) : Prop where
  unbroken : Unbroken l.text
  other : ¬ r.head.toList <+: l.toString.toList

instance (l : Line) : Decidable (r.Skips l) :=
  decidable_of_iff (Unbroken l.text ∧ ¬ r.head.toList <+: l.toString.toList)
    ⟨fun h => ⟨h.1, h.2⟩, fun h => ⟨h.1, h.2⟩⟩

theorem Skips.readLine {l : Line} (h : r.Skips l) : r.readLine l = [] := by
  have hprefix : (trimEnd l.toString).toList <+: l.toString.toList := by
    obtain ⟨b, _, hb⟩ := Text.exists_dropTail (p := Text.isBlank) l.toString.toList
    rw [trimEnd, String.toList_ofList]
    exact ⟨b, hb.symm⟩
  unfold Reader.readLine
  rw [readIn_unbroken (unbroken_toString h.unbroken).trimEnd,
    read?_eq_none fun hp => h.other (hp.trans hprefix)]
  rfl

/-- A line of no block with a text that starts otherwise. -/
theorem skips_line {text : String} (h : Unbroken text) (hapart : Apart r.head text) :
    r.Skips (line text) := ⟨h, by rw [toString_line]; exact hapart.1⟩

theorem Skips.closing (hr : r.Outer) : r.Skips (line Source.closing) := by
  refine ⟨by decide, fun hp => hr.noClosing ?_⟩
  rw [toString_line] at hp
  obtain ⟨c, s, hc⟩ := List.exists_cons_of_ne_nil hr.head
  rw [hc] at hp ⊢
  exact congrArg some (List.cons_prefix_cons.1 hp).1

theorem Skips.gap (hr : r.Outer) : r.Skips Source.gap :=
  ⟨by decide, fun hp => hr.head (List.prefix_nil.1 hp)⟩

/-- `r.SkipsAll ls` — each of the lines is left out. -/
def SkipsAll (r : Reader β) (ls : List Line) : Prop := ∀ l ∈ ls, r.Skips l

namespace SkipsAll

variable {ls ms : List Line}

instance : Decidable (r.SkipsAll ls) := inferInstanceAs (Decidable (∀ _ ∈ _, _))

theorem nil : r.SkipsAll [] := fun _ h => (nomatch h)

theorem cons {l : Line} (hl : r.Skips l) (hls : r.SkipsAll ls) : r.SkipsAll (l :: ls) :=
  List.forall_mem_cons.2 ⟨hl, hls⟩

theorem append (hl : r.SkipsAll ls) (hm : r.SkipsAll ms) : r.SkipsAll (ls ++ ms) :=
  List.forall_mem_append.2 ⟨hl, hm⟩

theorem flatMap {α : Type} {xs : List α} {f : α → List Line} (h : ∀ x ∈ xs, r.SkipsAll (f x)) :
    r.SkipsAll (xs.flatMap f) := fun l hl => by
  obtain ⟨x, hx, hl⟩ := List.mem_flatMap.1 hl
  exact h x hx l hl

theorem readLines (h : r.SkipsAll ls) : r.readLines ls = [] :=
  List.flatMap_eq_nil_iff.2 fun l hl => (h l hl).readLine

/-- A reader of lines in no block leaves out those in a block. -/
theorem indent (hr : r.Outer) (h : OneLined ls) : r.SkipsAll (indent ls) := by
  refine List.forall_mem_map.2 fun l hl => ⟨h l hl, fun hp => hr.noBlock ?_⟩
  rw [toString_deeper, String.toList_append] at hp
  obtain ⟨c, s, hc⟩ := List.exists_cons_of_ne_nil hr.head
  rw [hc] at hp ⊢
  exact congrArg some (List.cons_prefix_cons.1 hp).1

/-- A block whose head is another one. -/
theorem block (hr : r.Outer) {head : String} {body : List Line} (hapart : Apart r.head head)
    (hhead : Unbroken head) (hbody : OneLined body) : r.SkipsAll (block head body) := by
  refine append (cons (skips_line ?_ ((hapart.append _).append _)) (indent hr hbody))
    (cons (.closing hr) nil)
  exact unbroken_append.2 ⟨unbroken_append.2 ⟨hhead, by decide⟩, by decide⟩

end SkipsAll

/-! ## Lines in a block -/

theorem trimEnd_deeper (text : String) :
    (trimEnd text = "" ∧ trimEnd ("    " ++ text) = "") ∨
      trimEnd ("    " ++ text) = "    " ++ trimEnd text := by
  have hcons : ∀ (c : Char) {s : List Char}, Text.dropTail Text.isBlank s ≠ [] →
      Text.dropTail Text.isBlank (c :: s) = c :: Text.dropTail Text.isBlank s := by
    intro c s hs
    obtain ⟨d, t, hd⟩ := List.exists_cons_of_ne_nil hs
    rw [Text.dropTail, hd]
  unfold trimEnd Text.trimRight
  rw [String.toList_append]
  by_cases hkept : Text.dropTail Text.isBlank text.toList = []
  · refine Or.inl ⟨by rw [hkept], ?_⟩
    show String.ofList (Text.dropTail Text.isBlank (' ' :: ' ' :: ' ' :: ' ' :: text.toList)) = ""
    simp only [Text.dropTail, hkept]
    decide
  · right
    have hfour : Text.dropTail Text.isBlank (' ' :: ' ' :: ' ' :: ' ' :: text.toList) =
        ' ' :: ' ' :: ' ' :: ' ' :: Text.dropTail Text.isBlank text.toList := by
      have hone := hcons ' ' hkept
      have htwo := hcons ' ' (s := ' ' :: text.toList) (by simp [hone])
      have hthree := hcons ' ' (s := ' ' :: ' ' :: text.toList) (by simp [htwo])
      rw [hcons ' ' (by simp [hthree]), hthree, htwo, hone]
    apply String.toList_inj.1
    simp only [String.toList_append, String.toList_ofList]
    exact hfour

/-- What stands one block deeper is read by the reader that expects it there. -/
theorem readLine_deeper (hr : r.head.toList ≠ []) {l : Line} (h : Unbroken l.text) :
    r.deeper.readLine ⟨l.depth + 1, l.text⟩ = r.readLine l := by
  have hdeep : Unbroken (⟨l.depth + 1, l.text⟩ : Line).toString :=
    unbroken_toString (l := ⟨l.depth + 1, l.text⟩) h
  unfold readLine
  rw [readIn_unbroken hdeep.trimEnd, readIn_unbroken (unbroken_toString h).trimEnd, toString_deeper]
  rcases trimEnd_deeper l.toString with ⟨hempty, hdeeper⟩ | hdeeper
  · have hdeepHead : r.deeper.head.toList ≠ [] := by
      rw [deeper, String.toList_append]
      exact List.append_ne_nil_of_right_ne_nil _ hr
    rw [hempty, hdeeper]
    exact congrArg Option.toList ((read?_nil hdeepHead).trans (read?_nil hr).symm)
  · have hhead : r.deeper.head.toList = "    ".toList ++ r.head.toList := String.toList_append
    rw [hdeeper]
    unfold read?
    rw [hhead, String.toList_append, List.length_append, ← List.drop_drop, List.drop_left]
    simp only [List.prefix_append_right_inj]
    rfl

theorem readLines_indent (hr : r.head.toList ≠ []) {ls : List Line} (h : OneLined ls) :
    r.deeper.readLines (indent ls) = r.readLines ls := by
  unfold readLines indent
  rw [List.flatMap_map]
  exact List.flatMap_congr fun l hl => readLine_deeper hr (h l hl)

/-- A block is read through what it holds. -/
theorem readLines_block (hr : r.head.toList ≠ []) {head : String} {body : List Line}
    (hhead : Unbroken head) (hblock : head.toList.head?.any (· != ' ') = true)
    (hbody : OneLined body) : r.deeper.readLines (block head body) = r.readLines body := by
  have hspace : ∀ {text : String}, text.toList.head?.any (· != ' ') = true →
      ¬ r.deeper.head.toList <+: text.toList := by
    intro text htext hp
    obtain ⟨c, hc, hne⟩ := (Option.any_eq_true _ _).1 htext
    obtain ⟨s, hs⟩ := List.head?_eq_some_iff.1 hc
    rw [deeper, String.toList_append, hs] at hp
    have hcs : ' ' = c := (List.cons_prefix_cons.1 hp).1
    exact absurd hcs.symm (bne_iff_ne.1 hne)
  have hopen : r.deeper.readLine (line (head ++ " " ++ opening)) = [] := by
    refine Skips.readLine ⟨?_, ?_⟩
    · exact unbroken_append.2 ⟨unbroken_append.2 ⟨hhead, by decide⟩, by decide⟩
    · rw [toString_line]
      refine hspace ?_
      obtain ⟨c, hc, hne⟩ := (Option.any_eq_true _ _).1 hblock
      rw [String.toList_append, String.toList_append, List.append_assoc, List.head?_append, hc]
      exact hne
  have hclose : r.deeper.readLine (line closing) = [] := by
    refine Skips.readLine ⟨by decide, ?_⟩
    rw [toString_line]
    exact hspace (by decide)
  unfold block
  rw [readLines_append, readLines_cons, hopen, readLines_cons, hclose, readLines_indent hr hbody]
  exact List.append_nil _

end Reader

/-! ## Numbers -/

/-- The number in front of a text. -/
def naturalAt? (s : List Char) : Option Nat :=
  let digits := s.takeWhile Char.isDigit
  if digits.isEmpty then none else some (Nat.ofDigitChars 10 digits 0)

/-- The number in front of a text, with its sign. -/
def integerAt? : List Char → Option Int
  | '-' :: s => (naturalAt? s).map fun n => -(n : Int)
  | s => (naturalAt? s).map fun n => (n : Int)

theorem naturalAt?_append (n : Nat) {rest : List Char} (h : Text.Stops Char.isDigit rest) :
    naturalAt? (Decimal.digitsOf n ++ rest) = some n := by
  have hdigits : ∀ c ∈ Decimal.digitsOf n, c.isDigit = true := fun c hc =>
    Nat.isDigit_of_mem_toDigits (by decide) (by decide) hc
  unfold naturalAt?
  rw [Text.takeWhile_append_stops hdigits h]
  dsimp only
  rw [if_neg (by simp [Decimal.digitsOf])]
  exact congrArg some (Nat.ofDigitChars_toDigits (by decide) (by decide))

theorem integerAt?_append (n : Int) {rest : List Char} (h : Text.Stops Char.isDigit rest) :
    integerAt? ((Decimal.integer n).toList ++ rest) = some n := by
  unfold Decimal.integer
  cases n with
  | negSucc n =>
    rw [String.toList_ofList, List.cons_append, integerAt?, naturalAt?_append _ h]
    rfl
  | ofNat n =>
    rw [String.toList_ofList]
    -- No digit is the sign.
    have hsign : ∀ s, Decimal.digitsOf n ++ rest ≠ '-' :: s := by
      intro s heq
      obtain ⟨d, ds, hd⟩ := List.exists_cons_of_ne_nil (Nat.toDigits_ne_nil (b := 10) (n := n))
      have hdigit : d.isDigit = true :=
        Nat.isDigit_of_mem_toDigits (by decide) (by decide) (hd ▸ List.mem_cons_self)
      unfold Decimal.digitsOf at heq
      rw [hd] at heq
      rw [(List.cons.inj heq).1] at hdigit
      exact absurd hdigit (by decide)
    unfold integerAt?
    split
    · rename_i s heq
      exact absurd heq (hsign s)
    · rw [naturalAt?_append _ h]
      rfl

theorem unbroken_integer (n : Int) : Unbroken (Decimal.integer n) := by
  have hdigits : ∀ n : Nat, '\n' ∉ Decimal.digitsOf n := fun n hmem =>
    absurd (Nat.isDigit_of_mem_toDigits (by decide) (by decide) hmem) (by decide)
  unfold Unbroken Decimal.integer
  cases n with
  | ofNat n =>
    rw [String.toList_ofList]
    exact hdigits n
  | negSucc n =>
    rw [String.toList_ofList]
    exact fun hmem => (List.mem_cons.1 hmem).elim (by decide) (hdigits _)

/-! ## Readers of definitions -/

namespace Reader

/-- The reader of names. -/
def named (head : String) : Reader String :=
  ⟨head, fun s => some (String.ofList (s.takeWhile Naming.isIdentifierChar))⟩

/-- The reader of names with a number, and what stands between the two. -/
def numbered (head mid : String) : Reader (String × Int) :=
  ⟨head, fun s =>
    let rest := s.dropWhile Naming.isIdentifierChar
    if mid.toList <+: rest then
      (integerAt? (rest.drop mid.toList.length)).map fun n =>
        (String.ofList (s.takeWhile Naming.isIdentifierChar), n)
    else none⟩

/-- A line with the head and something solid behind it: what can get lost is at the end. -/
theorem readLine_append {β : Type} {r : Reader β} {solid rest text : String} (h : Unbroken text)
    (htext : text = r.head ++ (solid ++ rest)) (hne : solid ≠ "")
    (hsolid : ∀ c ∈ solid.toList.getLast?, Text.isBlank c = false) :
    r.readLine (line text) =
      (r.behind (solid.toList ++ Text.trimRight rest.toList)).toList := by
  have hlist : solid.toList ≠ [] := fun hnil => hne (String.toList_eq_nil_iff.1 hnil)
  have hlast : ∀ c ∈ (r.head.toList ++ solid.toList).getLast?, Text.isBlank c = false := by
    rw [List.getLast?_append_of_ne_nil _ hlist]
    exact hsolid
  have htrim : (trimEnd text).toList =
      r.head.toList ++ (solid.toList ++ Text.trimRight rest.toList) := by
    have hkept := Text.dropTail_append_solid hlast rest.toList
    rw [trimEnd, String.toList_ofList, Text.trimRight, htext, String.toList_append,
      String.toList_append, ← List.append_assoc, hkept, List.append_assoc]
    rfl
  rw [readLine, toString_line, readIn_unbroken h.trimEnd, htrim, read?_append]

theorem stops_trimRight {p : Char → Bool} {s : List Char} (h : Text.Stops p s) :
    Text.Stops p (Text.trimRight s) := by
  obtain ⟨b, _, hb⟩ := Text.exists_dropTail (p := Text.isBlank) s
  intro c hc
  refine h c ?_
  obtain ⟨t, ht⟩ := List.head?_eq_some_iff.1 hc
  have hkept : Text.dropTail Text.isBlank s = c :: t := ht
  rw [hb, hkept]
  rfl

theorem isBlank_of_isIdentifierChar {c : Char} (h : Naming.isIdentifierChar c = true) :
    Text.isBlank c = false := by
  rw [Bool.eq_false_iff]
  intro hblank
  rw [Text.holds_of_isBlank (q := Naming.isIdentifierChar) (by decide +kernel) hblank] at h
  nomatch h

/-- A line with a name behind the head. -/
theorem readLine_named {head name text : String} (rest : String) (htext : text = head ++ (name ++ rest))
    (h : Unbroken text) (hname : Wordy name.toList) (hne : name ≠ "")
    (hrest : Text.Stops Naming.isIdentifierChar rest.toList) :
    (named head).readLine (line text) = [name] := by
  have hsolid : ∀ c ∈ name.toList.getLast?, Text.isBlank c = false := fun c hc =>
    isBlank_of_isIdentifierChar (hname c (List.mem_of_mem_getLast? hc))
  rw [readLine_append h htext hne hsolid]
  show [String.ofList _] = _
  rw [Text.takeWhile_append_stops hname (stops_trimRight hrest), String.ofList_toList]

theorem toList_integer_ne (n : Int) : Decimal.integer n ≠ "" := by
  intro h
  have hlist := congrArg String.toList h
  unfold Decimal.integer at hlist
  cases n with
  | ofNat n =>
    rw [String.toList_ofList] at hlist
    exact Nat.toDigits_ne_nil hlist
  | negSucc n =>
    rw [String.toList_ofList] at hlist
    nomatch hlist

/-- The last character of a number is a digit. -/
theorem isDigit_getLast_integer (n : Int) :
    ∀ c ∈ (Decimal.integer n).toList.getLast?, c.isDigit = true := by
  have hdigits : ∀ n, ∀ c ∈ (Decimal.digitsOf n).getLast?, c.isDigit = true := fun n c hc =>
    Nat.isDigit_of_mem_toDigits (by decide) (by decide) (List.mem_of_mem_getLast? hc)
  unfold Decimal.integer
  cases n with
  | ofNat n =>
    rw [String.toList_ofList]
    exact hdigits n
  | negSucc n =>
    have hne : Decimal.digitsOf (n + 1) ≠ [] := Nat.toDigits_ne_nil
    rw [String.toList_ofList, ← List.singleton_append, List.getLast?_append_of_ne_nil _ hne]
    exact hdigits (n + 1)

/-- A line with a name and a number behind the head. -/
theorem readLine_numbered {head mid name text : String} {n : Int} (rest : String)
    (htext : text = head ++ (name ++ (mid ++ (Decimal.integer n ++ rest)))) (h : Unbroken text)
    (hname : Wordy name.toList) (hmid : Text.Stops Naming.isIdentifierChar mid.toList)
    (hne : mid.toList ≠ []) (hrest : Text.Stops Char.isDigit rest.toList) :
    (numbered head mid).readLine (line text) = [(name, n)] := by
  have hsolid : ∀ c ∈ (name ++ (mid ++ Decimal.integer n)).toList.getLast?,
      Text.isBlank c = false := by
    intro c hc
    have hnumber : (Decimal.integer n).toList ≠ [] := fun hnil =>
      toList_integer_ne n (String.toList_eq_nil_iff.1 hnil)
    rw [String.toList_append, String.toList_append, ← List.append_assoc,
      List.getLast?_append_of_ne_nil _ hnumber] at hc
    have hdigit := isDigit_getLast_integer n c hc
    refine isBlank_of_isIdentifierChar ?_
    rw [Naming.isIdentifierChar, Char.isAlphanum, hdigit, Bool.or_true, Bool.true_or]
  have hnonempty : name ++ (mid ++ Decimal.integer n) ≠ "" := by
    intro hempty
    have hlist := congrArg String.toList hempty
    rw [String.toList_append, String.toList_append] at hlist
    exact hne (List.append_eq_nil_iff.1 (List.append_eq_nil_iff.1 hlist).2).1
  have hsplit : text = head ++ ((name ++ (mid ++ Decimal.integer n)) ++ rest) := by
    rw [htext, String.append_assoc, String.append_assoc]
  have hbehind : Text.Stops Naming.isIdentifierChar
      (mid.toList ++ ((Decimal.integer n).toList ++ Text.trimRight rest.toList)) := by
    intro c hc
    rw [List.head?_append_of_ne_nil _ hne] at hc
    exact hmid c hc
  rw [readLine_append (r := numbered head mid) h hsplit hnonempty hsolid, String.toList_append,
    String.toList_append, List.append_assoc, List.append_assoc]
  unfold numbered
  dsimp only
  rw [Text.dropWhile_append_stops hname hbehind, if_pos (List.prefix_append _ _), List.drop_left,
    integerAt?_append n (stops_trimRight hrest), Text.takeWhile_append_stops hname hbehind,
    String.ofList_toList]
  rfl

end Reader

/-! ## Scopes -/

theorem lookup_of_mem {β : Type} {scope : List (String × β)} (hn : (scope.map Prod.fst).Nodup)
    {name : String} {n : β} (h : (name, n) ∈ scope) : scope.lookup name = some n := by
  obtain ⟨front, back, rfl⟩ := List.append_of_mem h
  refine List.lookup_eq_some_iff.2 ⟨front, back, rfl, fun d hd => bne_iff_ne.2 fun heq => ?_⟩
  rw [List.map_append, List.map_cons] at hn
  refine (List.nodup_append.1 hn).2.2 d.1 (List.mem_map.2 ⟨d, hd, rfl⟩) _ List.mem_cons_self heq.symm

end Bindery.Source
