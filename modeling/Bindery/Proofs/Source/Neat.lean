/-
  NEAT LINES: what is read off a file is what is read off its lines.

  A file is cut at its line feeds, and its lines have lost the blanks at their ends.  So a line comes out
  of its file as it went in if it holds no line feed and ends solidly; in a block only the first matters,
  for there a reader of lines in no block finds nothing anyway.  Where all lines of a body are such
  (`AllNeat`) and the header brings no line feed along, a file holds what the lines of its body hold at
  depth zero (`Setting.Harmless.readIn_neat`).
-/
import Bindery.Proofs.Codes.Usable
import Bindery.Proofs.Source.Declared
import Bindery.Proofs.Source.Reading

namespace Bindery

namespace Source

/-- `Neat l` — no line feed in the line, and if it stands in no block, nothing at its end that gets
lost. -/
structure Neat (l : Line) : Prop where
  unbroken : Unbroken l.text
  solid : l.depth = 0 → trimEnd l.text = l.text

instance (l : Line) : Decidable (Neat l) :=
  decidable_of_iff (Unbroken l.text ∧ (l.depth = 0 → trimEnd l.text = l.text))
    ⟨fun h => ⟨h.1, h.2⟩, fun h => ⟨h.1, h.2⟩⟩

/-- `Solid text` — no blank ends the text. -/
def Solid (text : String) : Prop := ∀ c ∈ text.toList.getLast?, Text.isBlank c = false

instance (text : String) : Decidable (Solid text) :=
  decidable_of_iff ((text.toList.getLast?.all fun c => !Text.isBlank c) = true) <| by
    unfold Solid
    cases text.toList.getLast? <;> simp

/-- What ends solidly does so behind anything. -/
theorem Solid.append (front : String) {back : String} (h : Solid back) (hne : back.toList ≠ []) :
    Solid (front ++ back) := by
  intro c hc
  rw [String.toList_append, List.getLast?_append_of_ne_nil _ hne] at hc
  exact h c hc

theorem trimEnd_of_solid {text : String} (h : Solid text) : trimEnd text = text := by
  have hkept := Text.dropTail_append_solid h []
  rw [List.append_nil] at hkept
  refine String.toList_inj.1 ?_
  rw [trimEnd, String.toList_ofList, Text.trimRight, hkept]
  exact List.append_nil _

theorem neat_line {text : String} (h : Unbroken text) (hsolid : Solid text) : Neat (line text) :=
  ⟨h, fun _ => trimEnd_of_solid hsolid⟩

/-- `AllNeat ls` — each of the lines is neat. -/
def AllNeat (ls : List Line) : Prop := ∀ l ∈ ls, Neat l

namespace AllNeat

variable {ls ms : List Line}

instance (ls : List Line) : Decidable (AllNeat ls) := inferInstanceAs (Decidable (∀ _ ∈ _, _))

theorem nil : AllNeat [] := fun _ h => (nomatch h)

theorem cons {l : Line} (hl : Neat l) (hls : AllNeat ls) : AllNeat (l :: ls) :=
  List.forall_mem_cons.2 ⟨hl, hls⟩

theorem append (hl : AllNeat ls) (hm : AllNeat ms) : AllNeat (ls ++ ms) :=
  List.forall_mem_append.2 ⟨hl, hm⟩

theorem flatMap {α : Type} {xs : List α} {f : α → List Line} (h : ∀ x ∈ xs, AllNeat (f x)) :
    AllNeat (xs.flatMap f) := fun l hl => by
  obtain ⟨x, hx, hl⟩ := List.mem_flatMap.1 hl
  exact h x hx l hl

/-- In a block it does not matter how a line ends. -/
theorem indent (h : OneLined ls) : AllNeat (indent ls) :=
  List.forall_mem_map.2 fun l hl => ⟨h l hl, fun hdepth => (nomatch hdepth)⟩

/-- The head of a block has a brace at its end. -/
theorem block {head : String} {body : List Line} (hhead : Unbroken head) (hbody : OneLined body) :
    AllNeat (block head body) := by
  refine append (cons (neat_line ?_ ?_) (indent hbody)) (by decide)
  · exact unbroken_append.2 ⟨unbroken_append.2 ⟨hhead, by decide⟩, by decide⟩
  · exact Solid.append _ (by decide) (by decide)

end AllNeat

namespace Reader

variable {β : Type} {r : Reader β} {ls : List Line}

/-- Neat lines are read as they stand, those in no block. -/
theorem readLines_of_neat (hr : r.Outer) (h : AllNeat ls) : r.readLines ls = r.readAt 0 ls := by
  induction ls with
  | nil => rfl
  | cons l ls ih =>
    obtain ⟨hl, hls⟩ := List.forall_mem_cons.1 h
    obtain ⟨depth, text⟩ := l
    rw [readLines_cons, ih hls]
    cases depth with
    | zero =>
      have hread : r.readLine ⟨0, text⟩ = (r.read? text.toList).toList := by
        have hsame : trimEnd (line text).toString = text := by
          rw [toString_line]
          exact hl.solid rfl
        show r.readIn (trimEnd (line text).toString) = _
        rw [hsame, readIn_unbroken hl.unbroken]
      rw [hread]
      exact (readAt_line text ls).symm
    | succ depth =>
      have hskip : r.SkipsAll (indent [⟨depth, text⟩]) :=
        .indent hr (List.forall_mem_singleton.2 hl.unbroken)
      rw [(hskip _ List.mem_cons_self).readLine]
      rfl

end Reader

namespace Reader

/-- Lines that start with another character outside of blocks hold nothing there. -/
theorem readAt_eq_nil_of_quiet {β : Type} {r : Reader β} {c : Char} {ls : List Line}
    (hc : r.head.toList.head? = some c) (h : AllQuiet c ls) : r.readAt 0 ls = [] := by
  refine readAt_eq_nil fun text htext => read?_eq_none fun hp => ?_
  obtain ⟨l, hl, rfl⟩ := List.mem_map.1 htext
  obtain ⟨hmem, hdepth⟩ := List.mem_filter.1 hl
  refine h l hmem (beq_iff_eq.1 hdepth) ?_
  obtain ⟨more, hmore⟩ := hp
  have hne : r.head.toList ≠ [] := fun hnil => by
    rw [hnil] at hc
    nomatch hc
  rw [← hmore, List.head?_append_of_ne_nil _ hne]
  exact hc

end Reader

/-! ## Names up to a parenthesis -/

namespace Reader

/-- The reader of names that go up to a parenthesis. -/
def declaring (head : String) : Reader String :=
  ⟨head, fun s => some (String.ofList (s.takeWhile (· != '(')))⟩

/-- What such a reader finds in lines is what they declare. -/
theorem readAt_declaring (head : String) (ls : List Line) :
    (declaring head).readAt 0 ls = declared head ls := by
  unfold readAt readAll textsAt declared
  rw [List.filterMap_map, List.filterMap_filter]
  refine List.filterMap_congr fun l _ => ?_
  unfold declaredBy? read?
  by_cases hdepth : l.depth = 0
  · simp only [hdepth, true_and]
    rfl
  · simp [hdepth]

end Reader

end Source

open Source

/-- **What is read from a file** with neat lines is what its lines hold in no block. -/
theorem Setting.Harmless.readIn_neat {s : Setting} (hs : s.Harmless) {β : Type} {r : Reader β}
    (hr : r.Outer) {body : List Line} (h : AllNeat body) (path : String) :
    r.readIn (s.file path body).text = r.readAt 0 body := by
  rw [hs.readIn_file hr.head hr.noComment, Reader.readLines_of_neat hr h]

end Bindery
