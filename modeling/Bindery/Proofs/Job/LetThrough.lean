/-
  WHAT THE CHECK OF THE LAYOUT LETS THROUGH, told from the text of a path.

  The check is made on the normal form of a path.  `components` reads the text itself: what is
  between its slashes, without the empty pieces and the single dots.  The two agree on every text
  (`Path.names_ofString`, `Path.isAbsolute_ofString`), and so the check is an equivalence on texts
  (`checkPath_eq_ok`).
-/
import Bindery.Proofs.Job.Course

namespace Bindery

/-! ## The components of a text -/

/-- The components of a path as it is written: what is between its slashes, without empty ones and
single dots. -/
def components (s : String) : List String :=
  ((s.toList.splitOn '/').map String.ofList).filter fun name => name ≠ "" && name ≠ "."

theorem Text.splitOn_eq (c : Char) (s : List Char) : Text.splitOn c s = s.splitOn c := by
  induction s with
  | nil => rfl
  | cons d s ih =>
    have ih : Text.splitWhere (· == c) s = s.splitOnP (· == c) := ih
    show Text.splitWhere (· == c) (d :: s) = (d :: s).splitOnP (· == c)
    rw [List.splitOnP_cons_eq_if_modifyHead, Text.splitWhere, ih]
    cases hpieces : s.splitOnP (· == c) with
    | nil => exact absurd hpieces (List.splitOnP_ne_nil _ s)
    | cons piece pieces => rfl

namespace Path

theorem isName_eq (piece : List Char) :
    isName piece = (String.ofList piece ≠ "" && String.ofList piece ≠ ".") := by
  have hdot : String.ofList piece = "." ↔ piece = ['.'] := by
    constructor
    · intro h
      rw [← String.toList_ofList (l := piece), h]
      rfl
    · rintro rfl
      rfl
  rw [Bool.eq_iff_iff]
  simp [isName, hdot]

theorem names_ofString (s : String) : (ofString s).names = components s := by
  unfold ofString components
  rw [List.filter_map, Text.splitOn_eq]
  exact congrArg _ (List.filter_congr fun piece _ => isName_eq piece)

/-- A path is absolute just if it is written with a slash at the front. -/
theorem isAbsolute_ofString (s : String) :
    (ofString s).isAbsolute = true ↔ s.toList.head? = some '/' := by
  constructor
  · intro h
    by_contra hhead
    rw [isAbsolute, ofString, anchorOf_of_head hhead] at h
    cases h
  · intro hhead
    obtain ⟨rest, hs⟩ := List.head?_eq_some_iff.1 hhead
    have hanchor : anchorOf s.toList ≠ .here := by
      rw [hs, anchorOf, List.takeWhile_cons_of_pos rfl, List.length_cons]
      split
      · rename_i hnone
        exact absurd hnone (Nat.succ_ne_zero _)
      · decide
      · decide
    exact decide_eq_true hanchor

end Path

/-! ## What the check lets through -/

/-- `Confined dirs rel` — a text is that of a relative path with two components or more, which
climbs nowhere and begins with one of the directories. -/
structure Confined (dirs : List String) (rel : String) : Prop where
  relative : rel.toList.head? ≠ some '/'
  deep : 2 ≤ (components rel).length
  downward : ".." ∉ components rel
  top : ∃ d ∈ dirs, (components rel).head? = some d

theorem checkPath_eq_ok {e : Emitter} {rel : String} :
    e.checkPath rel = .ok () ↔ Confined e.dirs rel := by
  have habsolute : (Path.ofString rel).isAbsolute = false ↔ rel.toList.head? ≠ some '/' := by
    rw [← Bool.not_eq_true, Path.isAbsolute_ofString]
  constructor
  · intro h
    have hfile : e.checkPath (⟨rel, "", true⟩ : Source.File).path = .ok () := h
    obtain ⟨hproper, htop⟩ := proper_of_checkPath hfile
    obtain ⟨top, next, rest, hnames⟩ := hproper.deep
    have hcomponents : (⟨rel, "", true⟩ : Source.File).names = components rel :=
      Path.names_ofString rel
    rw [hcomponents] at hnames htop
    refine ⟨habsolute.1 hproper.relative, by simp [hnames], fun hup => ?_, ?_⟩
    · exact hproper.downward _ (hcomponents ▸ hup) rfl
    · obtain ⟨d, hd, hhead⟩ := List.mem_map.1 htop
      exact ⟨d, hd, hhead.symm⟩
  · rintro ⟨hrelative, hdeep, hdownward, d, hd, hhead⟩
    unfold Emitter.checkPath
    dsimp only
    rw [Path.names_ofString, habsolute.2 hrelative]
    match hnames : components rel, hdeep with
    | top :: next :: rest, _ =>
      rw [hnames] at hdownward hhead
      obtain rfl : top = d := Option.some.inj hhead
      have hup : (top :: next :: rest).contains ".." = false :=
        Bool.eq_false_iff.2 fun h => hdownward (List.contains_iff_mem.1 h)
      simp only [hup, List.contains_iff_mem.2 hd]
      rfl

end Bindery
