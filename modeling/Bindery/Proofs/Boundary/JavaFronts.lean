/-
  THE FRONT OF A JAVA FILE: what its text says before the class that it declares.

  Of what package a file is and what it imports stands in front of its class, so the text is read line by
  line up to the first line that declares one (`frontOf`).  These are the lines that `JavaUnit.front`
  lists, below a banner that says nothing to a reader, as long as no line of the header is broken
  (`JavaUnit.Declares.readFront_eq`).  Behind a line feed in the header there may stand what nobody
  listed, and it is read like the rest (`Reader.mem_readFront_of_banner`).
-/
import Bindery.Proofs.Boundary.JavaUnits

namespace Bindery

open Naming Source

/-! ## Reading up to a class -/

/-- The class that a line declares, if it declares one. -/
def classAt? (l : List Char) : Option String :=
  classKinds.findSome? fun kind => (Reader.named kind).read? l

/-- The class that a file declares, which is the first in its text. -/
def classOf? (text : String) : Option String := (linesOf text).findSome? classAt?

/-- The lines of a file in front of its class. -/
def frontOf (text : String) : List (List Char) := (linesOf text).takeWhile fun l => (classAt? l).isNone

namespace Source

/-- What the lines in front of the class hold. -/
def Reader.readFront {β : Type} (r : Reader β) (text : String) : List β :=
  (frontOf text).filterMap r.read?

/-- What stands in front of a line that is not empty is kept when texts are rendered, and so is that
line. -/
theorem exists_linesOf_render (front : List String) {head : String} (back : List String)
    (hhead : trimEnd head ≠ "") : ∃ more, linesOf (render (front ++ head :: back)) =
      front.flatMap (fun t => linesOf (trimEnd t)) ++ (linesOf (trimEnd head) ++ more) := by
  have hlast : ∀ t ∈ ((front ++ [head]).map trimEnd).getLast?, String.isEmpty t = false := by
    rw [List.map_append, List.map_singleton, List.getLast?_concat]
    exact fun t ht => Option.some.inj ht ▸ Bool.eq_false_iff.2 (hhead ∘ String.isEmpty_iff.1)
  have hkept := Text.dropTail_append_solid hlast (back.map trimEnd)
  have hne : (front ++ [head]).map trimEnd ++ Text.dropTail String.isEmpty (back.map trimEnd) ≠ [] :=
    fun hnil => List.append_ne_nil_of_right_ne_nil front (List.cons_ne_nil head [])
      (List.map_eq_nil_iff.1 (List.append_eq_nil_iff.1 hnil).1)
  refine ⟨(Text.dropTail String.isEmpty (back.map trimEnd)).flatMap linesOf ++ [[]], ?_⟩
  unfold render
  rw [List.append_cons, List.map_append, hkept, linesOf_joined hne, List.flatMap_append, List.flatMap_map,
    List.flatMap_append, List.flatMap_singleton]
  simp only [List.append_assoc]

end Source

theorem classAt?_eq_none {l : List Char} (h : ∀ kind ∈ classKinds, ¬ kind.toList <+: l) :
    classAt? l = none :=
  List.findSome?_eq_none_iff.2 fun kind hkind => Reader.read?_eq_none (h kind hkind)

/-- A text that starts otherwise than a declaration is none. -/
theorem classAt?_of_start {start : String} {l : List Char} (hstart : ∀ kind ∈ classKinds, Apart kind start)
    (h : start.toList <+: l) : classAt? l = none :=
  classAt?_eq_none fun kind hkind hp =>
    (List.prefix_or_prefix_of_prefix hp h).elim (hstart kind hkind).1 (hstart kind hkind).2

theorem classAt?_class {kind name rest : String} (hkind : kind ∈ classKinds) (hname : Wordy name.toList)
    (hrest : Text.Stops isIdentifierChar rest.toList) :
    classAt? (kind ++ (name ++ rest)).toList = some name := by
  have hread : (Reader.named kind).read? (kind ++ (name ++ rest)).toList = some name := by
    have hbehind : (name ++ rest).toList = name.toList ++ rest.toList := String.toList_append
    refine (Reader.read?_behind (r := Reader.named kind) rfl).trans ?_
    rw [hbehind]
    show some (String.ofList _) = _
    rw [Text.takeWhile_append_stops hname hrest, String.ofList_toList]
  have hother : ∀ kind ∈ classKinds, ∀ other ∈ classKinds, other = kind ∨ Apart other kind := by decide
  unfold classAt?
  cases hfound : classKinds.findSome? fun other =>
      (Reader.named other).read? (kind ++ (name ++ rest)).toList with
  | none =>
    have hnone := List.findSome?_eq_none_iff.1 hfound kind hkind
    exact absurd (hread.symm.trans hnone) (Option.some_ne_none name)
  | some found =>
    -- No declaration is of two kinds.
    obtain ⟨other, hmem, hsome⟩ := List.exists_of_findSome?_eq_some hfound
    rcases hother kind hkind other hmem with rfl | hapart
    · exact hsome.symm.trans hread
    · have hnone := Reader.Ignores.of_apart (r := Reader.named other) (hapart.append (name ++ rest))
      exact absurd (hsome.symm.trans hnone) (Option.some_ne_none found)

/-- Texts in front of the line that declares a class. -/
theorem front_render {front : List String} {declaration name : String} (back : List String)
    (hfront : ∀ t ∈ front, Unbroken t) (hnone : ∀ t ∈ front, classAt? (trimEnd t).toList = none)
    (hneat : Neat (line declaration)) (hclass : classAt? declaration.toList = some name) :
    frontOf (render (front ++ declaration :: back)) = front.map (fun t => (trimEnd t).toList) ∧
      classOf? (render (front ++ declaration :: back)) = some name := by
  have hkept : trimEnd declaration = declaration := hneat.solid rfl
  have hne : trimEnd declaration ≠ "" := fun hempty => by
    have hnothing : classAt? "".toList = none := by decide
    rw [← hkept, hempty, hnothing] at hclass
    nomatch hclass
  obtain ⟨more, hlines⟩ := exists_linesOf_render front back hne
  have hmap : front.flatMap (fun t => linesOf (trimEnd t)) = front.map fun t => (trimEnd t).toList := by
    rw [List.map_eq_flatMap]
    exact List.flatMap_congr fun t ht => linesOf_unbroken (hfront t ht).trimEnd
  have hunbroken : linesOf declaration = [declaration.toList] := linesOf_unbroken hneat.unbroken
  have hnone : ∀ l ∈ front.map fun t => (trimEnd t).toList, classAt? l = none :=
    List.forall_mem_map.2 hnone
  rw [hmap, hkept, hunbroken, List.singleton_append] at hlines
  unfold frontOf classOf?
  rw [hlines]
  constructor
  · have hstop : (classAt? declaration.toList).isNone ≠ true := by
      rw [hclass]
      exact Bool.false_ne_true
    rw [List.takeWhile_append_of_pos fun l hl => Option.isNone_iff_eq_none.2 (hnone l hl),
      List.takeWhile_cons_of_neg (p := fun l => (classAt? l).isNone) hstop, List.append_nil]
  · rw [List.findSome?_append, List.findSome?_eq_none_iff.2 hnone, List.findSome?_cons, hclass]
    rfl

/-! ## The front of a class -/

/-- A line of a banner declares nothing. -/
theorem classAt?_banner {header : List String} {t : String} (ht : t ∈ banner header lineComment) :
    classAt? (trimEnd t).toList = none := by
  have hslash : ∀ kind ∈ classKinds, kind.toList ≠ [] ∧ kind.toList.head? ≠ some '/' := by decide
  exact classAt?_eq_none fun kind hkind =>
    Reader.banner_other (hslash kind hkind).1 (hslash kind hkind).2 ht

/-- What a line of the banner holds is in front of the class, if no line of the banner declares one. -/
theorem Source.Reader.mem_readFront_of_banner {β : Type} {r : Reader β} {header : List String}
    {t : String} {x : β} (hr : r.head.toList ≠ []) (ht : t ∈ banner header lineComment)
    (hx : x ∈ r.readIn (trimEnd t))
    (hbanner : ∀ t ∈ banner header lineComment, ∀ l ∈ linesOf (trimEnd t), classAt? l = none)
    (body : List Line) : x ∈ r.readFront (renderFile header body) := by
  have hne : trimEnd t ≠ "" := fun hempty => by
    rw [hempty, r.readIn_empty hr] at hx
    nomatch hx
  obtain ⟨front, back, hsplit⟩ := List.append_of_mem ht
  obtain ⟨more, hlines⟩ := exists_linesOf_render front (back ++ body.map Line.toString) hne
  have hfront : ∀ l ∈ front.flatMap (fun t => linesOf (trimEnd t)) ++ linesOf (trimEnd t),
      (classAt? l).isNone = true := by
    refine List.forall_mem_append.2 ⟨fun l hl => ?_, fun l hl => ?_⟩
    · obtain ⟨u, hu, hl⟩ := List.mem_flatMap.1 hl
      exact Option.isNone_iff_eq_none.2 (hbanner u (hsplit ▸ List.mem_append_left _ hu) l hl)
    · exact Option.isNone_iff_eq_none.2 (hbanner t ht l hl)
  unfold readFront frontOf renderFile
  rw [hsplit, List.append_assoc, List.cons_append, hlines, ← List.append_assoc,
    List.takeWhile_append_of_pos hfront, List.filterMap_append, List.filterMap_append]
  exact List.mem_append_left _ (List.mem_append_right _ hx)

namespace JavaUnit

variable {s : Setting} {u : JavaUnit} {imports remarks : List String} {kind rest : String} {f : File}

/-- What stands in front of a class is neat, if package and imports are. -/
theorem neat_front (hremarks : ∀ text ∈ remarks, Remark text) (hpackage : Unbroken (u.package s))
    (himports : ∀ i ∈ imports, Unbroken i) :
    ∀ text ∈ u.front s imports remarks, Neat (line text) := by
  have hstatement : ∀ {head text : String}, Unbroken head → Unbroken text →
      Neat (line (head ++ (text ++ ";"))) := fun {head text} hhead htext =>
    neat_line (unbroken_append.2 ⟨hhead, unbroken_append.2 ⟨htext, by decide⟩⟩)
      (.append _ (.append _ (by decide) (by decide)) (by simp))
  refine List.forall_mem_cons.2 ⟨hstatement (by decide) hpackage, List.forall_mem_cons.2
    ⟨by decide, List.forall_mem_append.2 ⟨List.forall_mem_map.2 fun i hi => ?_, fun text htext => ?_⟩⟩⟩
  · exact hstatement (by decide) (himports i hi)
  · exact (hremarks text htext).neat

/-- Nothing in front of a class declares one. -/
theorem classAt?_front (hremarks : ∀ text ∈ remarks, Remark text) :
    ∀ text ∈ u.front s imports remarks, classAt? text.toList = none := by
  have hpackage : ∀ kind ∈ classKinds, Apart kind "package " := by decide
  have himport : ∀ kind ∈ classKinds, Apart kind "import " := by decide
  have hremark : ∀ kind ∈ classKinds, Apart kind "/** " := by decide
  have hempty : classAt? "".toList = none := by decide
  have hhead : ∀ head rest : String, head.toList <+: (head ++ rest).toList := fun head rest => by
    rw [String.toList_append]
    exact List.prefix_append _ _
  refine List.forall_mem_cons.2 ⟨classAt?_of_start hpackage (hhead _ _), List.forall_mem_cons.2
    ⟨hempty, List.forall_mem_append.2 ⟨List.forall_mem_map.2 fun i _ => ?_, fun text htext => ?_⟩⟩⟩
  · exact classAt?_of_start himport (hhead _ _)
  · rcases (hremarks text htext).start with rfl | hstart
    · exact hempty
    · exact classAt?_of_start hremark hstart

/-- `u.Declares s imports kind rest` — a file is laid out so, and its class is declared under a name that
can be read back. -/
structure Declares (s : Setting) (u : JavaUnit) (imports : List String) (kind rest : String) : Prop where
  laid : u.Laid s imports kind rest
  kind : kind ∈ classKinds
  name : Wordy u.name.toList
  ends : Text.Stops isIdentifierChar (rest ++ (" " ++ opening)).toList
  unbroken : Unbroken rest

namespace Declares

/-- The line that declares a class. -/
theorem classAt?_declaration (h : u.Declares s imports kind rest) :
    classAt? (kind ++ (u.name ++ (rest ++ (" " ++ opening)))).toList = some u.name :=
  classAt?_class h.kind h.name h.ends

/-- It comes out of a file as it went in. -/
theorem neat_declaration (h : u.Declares s imports kind rest) :
    Neat (line (kind ++ (u.name ++ (rest ++ (" " ++ opening))))) := by
  have hkinds : ∀ kind ∈ classKinds, Unbroken kind := by decide
  have hkind := hkinds kind h.kind
  have hname := unbroken_of_wordy h.name
  refine neat_line ?_ ?_
  · simp +decide only [unbroken_append, hkind, hname, h.unbroken, and_self]
  · simp only [← String.append_assoc]
    exact .append _ (by decide) (by decide)

/-- The texts of a class start with what stands in front of it. -/
theorem map_toString (h : u.Declares s imports kind rest) : ∃ remarks more : List String,
    (∀ text ∈ remarks, Remark text) ∧ u.lines.map Line.toString = u.front s imports remarks ++
      (kind ++ (u.name ++ (rest ++ (" " ++ opening)))) :: more := by
  obtain ⟨remarks, body, hremarks, hlines⟩ := h.laid
  have hline : Line.toString ∘ line = id := funext toString_line
  refine ⟨remarks, (indent body ++ [line closing]).map Line.toString, hremarks, ?_⟩
  unfold Source.lines block at hlines
  rw [hlines, List.map_append, List.map_map, hline, List.map_id, List.cons_append, List.map_cons,
    toString_line]
  simp only [String.append_assoc]

/-- **The front of a file is that of its class**, where no line of the header is broken. -/
theorem front_eq (h : u.Declares s imports kind rest) (hf : u.Written s f)
    (hheader : ∀ x ∈ s.header, Unbroken x.text) (hpackage : Unbroken (u.package s))
    (himports : ∀ i ∈ imports, Unbroken i) :
    classOf? f.text = some u.name ∧ ∃ remarks : List String, (∀ text ∈ remarks, Remark text) ∧
      frontOf f.text = (banner (s.header.map (·.text)) lineComment).map (fun t => (trimEnd t).toList) ++
        (u.front s imports remarks).map String.toList := by
  obtain ⟨remarks, back, hremarks, htexts⟩ := h.map_toString
  have hneat : ∀ text ∈ u.front s imports remarks, Neat (line text) :=
    neat_front hremarks hpackage himports
  have hkept : ∀ text ∈ u.front s imports remarks, trimEnd text = text :=
    fun text htext => (hneat text htext).solid rfl
  have hnone : ∀ text ∈ u.front s imports remarks, classAt? (trimEnd text).toList = none :=
    fun text htext => (hkept text htext).symm ▸ classAt?_front hremarks text htext
  have htext : f.text = render ((banner (s.header.map (·.text)) lineComment ++
      u.front s imports remarks) ++ (kind ++ (u.name ++ (rest ++ (" " ++ opening)))) :: back) := by
    rw [hf.text, renderFile, htexts, List.append_assoc]
  obtain ⟨hfront, hclass⟩ := front_render back
    (List.forall_mem_append.2 ⟨Reader.unbroken_banner (List.forall_mem_map.2 hheader),
      fun text htext => (hneat text htext).unbroken⟩)
    (List.forall_mem_append.2 ⟨fun t ht => classAt?_banner ht, hnone⟩)
    h.neat_declaration h.classAt?_declaration
  rw [htext]
  refine ⟨hclass, remarks, hremarks, ?_⟩
  rw [hfront, List.map_append]
  exact congrArg _ (List.map_congr_left fun text htext => congrArg String.toList (hkept text htext))

/-- **What is read in front of a class** is what its lines hold outside of blocks, for a reader that takes
neither a remark nor a declaration for its own. -/
theorem readFront_eq {β : Type} {r : Reader β} (h : u.Declares s imports kind rest) (hf : u.Written s f)
    (hheader : ∀ x ∈ s.header, Unbroken x.text) (hpackage : Unbroken (u.package s))
    (himports : ∀ i ∈ imports, Unbroken i) (hr : r.Outer) (hclosing : r.Ignores closing)
    (hremark : Apart r.head "/** ") (hkinds : ∀ kind ∈ classKinds, Apart r.head kind) :
    r.readFront f.text = r.readAt 0 u.lines := by
  obtain ⟨_, remarks, hremarks, hfront⟩ := h.front_eq hf hheader hpackage himports
  have hbanner : ((banner (s.header.map (·.text)) lineComment).map
      fun t => (trimEnd t).toList).filterMap r.read? = [] := by
    exact List.filterMap_eq_nil_iff.2 (List.forall_mem_map.2 fun t ht =>
      Reader.read?_eq_none (Reader.banner_other hr.head hr.noComment ht))
  have hall : ((u.front s imports remarks).map String.toList).filterMap r.read? =
      r.readAll (u.front s imports remarks) := List.filterMap_map
  have hdeclaration : r.read? (kind ++ (u.name ++ (rest ++ (" " ++ opening)))).toList = none :=
    Reader.Ignores.of_apart ((hkinds kind h.kind).append _)
  unfold Reader.readFront
  rw [hfront, List.filterMap_append, hbanner, hall, List.nil_append,
    readAll_front (Reader.read?_nil hr.head) hremark hremarks,
    h.laid.readAt (Reader.read?_nil hr.head) hclosing hremark, hdeclaration, Option.toList_none,
    List.append_nil]

end Declares

end JavaUnit

end Bindery
