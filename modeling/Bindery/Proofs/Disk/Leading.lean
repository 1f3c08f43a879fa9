/-
  WHERE A PATH LEADS inside a directory, told by its names alone.

  A path may pass through `..` and still stay below the directory that it starts from.  `leadFrom`
  follows its names without a tree and gives what they come to, or nothing where they leave the
  directory.  There are no links, so this is where the path leads on every disk (`placeOf_child`).
-/
import Bindery.Proofs.Disk.Below

namespace Bindery

open Bindery.Tree

/-! ## Following names inside a directory -/

/-- The names that one comes to from others on; none where the way leaves the directory. -/
def leadFrom (here : List String) : List String → Option (List String)
  | [] => some here
  | name :: names =>
    if name = upName then
      if here = [] then none else leadFrom here.dropLast names
    else leadFrom (here ++ [name]) names

theorem follow_leadFrom {base : Place} {here names lead : List String}
    (h : leadFrom here names = some lead) : follow (base ++ here) names = base ++ lead := by
  induction names generalizing here with
  | nil =>
    cases h
    rfl
  | cons name names ih =>
    unfold leadFrom at h
    rw [follow_cons, stepTo]
    split at h
    · rename_i hup
      rw [if_pos hup]
      split at h
      · cases h
      · rename_i hne
        rw [List.dropLast_append_of_ne_nil hne]
        exact ih h
    · rename_i hup
      rw [if_neg hup, List.append_assoc]
      exact ih h

/-! ## Paths inside a directory -/

namespace Path

variable {home : Place} {p : Path} {s : String} {lead names : List String}

/-- The names that a path leads to, if it does not leave the directory that it starts from. -/
def lead? (p : Path) : Option (List String) :=
  if p.isAbsolute then none else leadFrom [] p.names

/-- Whether a path leads to the names, or to what they are below. -/
def leadsTo (p : Path) (names : List String) : Bool := p.lead?.any (·.isPrefixOf names)

theorem relative_of_lead (h : p.lead? = some lead) : p.isAbsolute = false := by
  unfold lead? at h
  split at h
  · nomatch h
  · rename_i hp
    exact Bool.eq_false_iff.2 hp

theorem leadsTo_iff (h : p.lead? = some lead) : p.leadsTo names = true ↔ lead <+: names := by
  rw [leadsTo, h, Option.any_some, List.isPrefixOf_iff_prefix]

theorem leadsTo_of_absolute (h : p.isAbsolute = true) : p.leadsTo names = false := by
  rw [leadsTo, lead?, if_pos h]
  rfl

theorem child_of_absolute (h : (ofString s).isAbsolute = true) : p.child s = ofString s := if_pos h

/-- What is added to a path is followed from where the path leads. -/
theorem placeOf_child (h : (ofString s).lead? = some lead) :
    (p.child s).placeOf home = p.placeOf home ++ lead := by
  have hrelative := relative_of_lead h
  rw [lead?, hrelative, if_neg (by decide)] at h
  rw [child_eq_below hrelative]
  show follow (p.start home) (p.names ++ (ofString s).names) = _
  rw [follow_append]
  have hfollow : follow (p.placeOf home ++ []) (ofString s).names = p.placeOf home ++ lead :=
    follow_leadFrom h
  rw [List.append_nil] at hfollow
  exact hfollow

/-- One name leads to what it names. -/
theorem lead?_of_name (h : ofString s = ⟨.here, [s]⟩) (hup : s ≠ upName) :
    (ofString s).lead? = some [s] := by
  rw [h]
  show leadFrom [] [s] = _
  rw [leadFrom, if_neg hup, List.nil_append, leadFrom]

end Path

end Bindery
