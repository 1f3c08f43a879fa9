/-
  DISPATCH: which way an error takes.

  Two pieces of the files choose by an error.  A match turns an error of the library into a number:
  the first arm that fits decides.  A switch turns a number into an exception: it is entered at the
  label with that number, or at the default, and runs on from there until something is returned or
  thrown, over whatever labels stand in between.

  Both are read back from their lines and run the way their language runs them.  Codes that share an
  exception share a statement, with one label for each of them, and the run is told group by group:
  a number that is no label of a group passes it by, statement included (`exec_groups`).
-/
import Bindery.Layer.JavaSupport
import Bindery.Proofs.Codes.Usable

namespace Bindery

open Source

/-! ## The match -/

/-- An arm of a match: a pattern, and the constant that stands for what fits. -/
structure Arm where
  pattern : String
  constant : String
  deriving DecidableEq

namespace Arm

/-- The pattern that everything fits. -/
def wildcard : String := "_"

/-- The pattern for a variant of a type. -/
def pathTo (type variant : String) : String := type ++ "::" ++ variant

/-- Whether a variant fits the arm. -/
def fits (type variant : String) (a : Arm) : Bool :=
  a.pattern == pathTo type variant || a.pattern == wildcard

theorem pathTo_injective {type : String} : Function.Injective (pathTo type) :=
  fun _ _ heq => append_left_cancel heq

theorem pathTo_ne_wildcard (type variant : String) : pathTo type variant ≠ wildcard := by
  intro heq
  have hcolon : ':' ∈ wildcard.toList := by
    rw [← heq]
    unfold pathTo
    rw [String.toList_append, String.toList_append]
    exact List.mem_append_left _ (List.mem_append_right _ (by decide))
  exact absurd hcolon (by decide)

/-- The arm of one variant is fit by no other. -/
theorem fits_pathTo {type variant v constant : String} :
    fits type v ⟨pathTo type variant, constant⟩ = true ↔ variant = v := by
  unfold fits
  rw [Bool.or_eq_true, beq_iff_eq, beq_iff_eq, or_iff_left (pathTo_ne_wildcard type variant)]
  exact pathTo_injective.eq_iff

theorem fits_wildcard (type v constant : String) : fits type v ⟨wildcard, constant⟩ = true := by
  unfold fits
  rw [beq_self_eq_true wildcard, Bool.or_true]

/-- What stands between pattern and constant. -/
def arrow : String := " => "

/-- The arm that a line holds; a line without an arrow holds none. -/
def read? (l : Line) : Option Arm :=
  let pattern := l.text.toList.takeWhile (· != ' ')
  let behind := l.text.toList.dropWhile (· != ' ')
  if arrow.toList <+: behind then
    some ⟨String.ofList pattern,
      String.ofList ((behind.drop arrow.toList.length).takeWhile Naming.isIdentifierChar)⟩
  else none

theorem read?_line (pattern : String) {constant rest : String} (hpattern : ' ' ∉ pattern.toList)
    (hconstant : Wordy constant.toList)
    (hrest : Text.Stops Naming.isIdentifierChar rest.toList) :
    read? (line (pattern ++ arrow ++ constant ++ rest)) = some ⟨pattern, constant⟩ := by
  have htext : (line (pattern ++ arrow ++ constant ++ rest)).text.toList =
      pattern.toList ++ (arrow.toList ++ (constant.toList ++ rest.toList)) := by
    show (pattern ++ arrow ++ constant ++ rest).toList = _
    rw [String.toList_append, String.toList_append, String.toList_append, List.append_assoc,
      List.append_assoc]
  have hall : ∀ c ∈ pattern.toList, (c != ' ') = true := fun c hc =>
    bne_iff_ne.2 fun heq => hpattern (heq ▸ hc)
  have hstops : Text.Stops (· != ' ') (arrow.toList ++ (constant.toList ++ rest.toList)) := by
    intro c hc
    obtain rfl : ' ' = c := Option.some.inj hc
    rfl
  unfold read?
  rw [htext, Text.takeWhile_append_stops hall hstops, Text.dropWhile_append_stops hall hstops]
  dsimp only
  rw [if_pos (List.prefix_append _ _), List.drop_left, Text.takeWhile_append_stops hconstant hrest,
    String.ofList_toList, String.ofList_toList]

end Arm

/-- The arms in the lines of a match. -/
def armsOf (ls : List Line) : List Arm := ls.filterMap Arm.read?

/-- The constant that a match gives for a variant of a type: the first arm that fits decides. -/
def matched (ls : List Line) (type variant : String) : Option String :=
  ((armsOf ls).find? (·.fits type variant)).map (·.constant)

/-! ## The switch -/

/-- A line of a switch. -/
inductive Instruction where
  | label (constant : String)
  | default
  | leave
  | throw (exception : String)
  | other (text : String)
  deriving DecidableEq

/-- What a switch comes to. -/
inductive Outcome where
  | returns
  | throws (exception : String)
  deriving DecidableEq

namespace Instruction

/-- The identifier behind a head. -/
def nameBehind (head text : String) : String :=
  String.ofList ((text.toList.drop head.toList.length).takeWhile Naming.isIdentifierChar)

/-- How a label starts. -/
def labelHead : String := "case "

/-- How an exception is thrown. -/
def throwHead : String := "throw new "

/-- The instruction that a line holds. -/
def read (l : Line) : Instruction :=
  if labelHead.toList <+: l.text.toList then label (nameBehind labelHead l.text)
  else if throwHead.toList <+: l.text.toList then throw (nameBehind throwHead l.text)
  else if l.text = "default:" then default
  else if l.text = "return;" then leave
  else other l.text

/-- The instructions from the first one that matters on: labels do nothing. -/
def exec : List Instruction → Option Outcome
  | label _ :: is => exec is
  | default :: is => exec is
  | leave :: _ => some .returns
  | throw e :: _ => some (.throws e)
  | other _ :: _ => none
  | [] => none

/-- Whether the instruction is anything but a label with the number. -/
def passed (scope : List (String × Int)) (code : Int) : Instruction → Bool
  | label constant => scope.lookup constant != some code
  | _ => true

/-- Where a switch is entered: at the label with the number, else at the default. -/
def enter (scope : List (String × Int)) (code : Int) (is : List Instruction) : List Instruction :=
  match is.dropWhile (passed scope code) with
  | [] => is.dropWhile (· != default)
  | js => js

/-- The constants at the labels. -/
def labelOf? : Instruction → Option String
  | label constant => some constant
  | _ => none

theorem nameBehind_append {head name rest : String} (hname : Wordy name.toList)
    (hrest : Text.Stops Naming.isIdentifierChar rest.toList) :
    nameBehind head (head ++ name ++ rest) = name := by
  unfold nameBehind
  rw [String.toList_append, String.toList_append, List.append_assoc, List.drop_left,
    Text.takeWhile_append_stops hname hrest, String.ofList_toList]

theorem read_label {depth : Nat} {constant : String} (h : Wordy constant.toList) :
    read ⟨depth, labelHead ++ constant ++ ":"⟩ = label constant := by
  have hhead : labelHead.toList <+: (labelHead ++ constant ++ ":").toList := by
    rw [String.toList_append, String.toList_append, List.append_assoc]
    exact List.prefix_append _ _
  rw [read, if_pos hhead, nameBehind_append h (by decide)]

theorem read_throw {depth : Nat} {exception : String} (h : Wordy exception.toList) :
    read ⟨depth, throwHead ++ exception ++ "(code);"⟩ = throw exception := by
  have hhead : throwHead.toList <+: (throwHead ++ exception ++ "(code);").toList := by
    rw [String.toList_append, String.toList_append, List.append_assoc]
    exact List.prefix_append _ _
  have hother : ¬ labelHead.toList <+: (throwHead ++ exception ++ "(code);").toList := by
    have hapart : Apart labelHead throwHead := by decide
    exact ((hapart.append exception).append "(code);").1
  rw [read, if_neg hother, if_pos hhead, nameBehind_append h (by decide)]

end Instruction

/-- What the lines of a switch come to for a number, with the constants that are in scope. -/
def switched (scope : List (String × Int)) (ls : List Line) (code : Int) : Option Outcome :=
  Instruction.exec (Instruction.enter scope code (ls.map Instruction.read))

/-- The labels of a switch. -/
def labelsOf (ls : List Line) : List String := (ls.map Instruction.read).filterMap (·.labelOf?)

/-! ## Groups of labels -/

namespace Instruction

/-- A group: labels, and the statement behind them. -/
structure Group where
  labels : List String
  statement : Instruction

/-- The instructions of a group. -/
def Group.flat (g : Group) : List Instruction := g.labels.map label ++ [g.statement]

/-- What a statement comes to, as far as it is one. -/
def outcome? : Instruction → Option Outcome
  | leave => some .returns
  | throw e => some (.throws e)
  | _ => none

theorem exec_labels (labels : List String) (is : List Instruction) :
    exec (labels.map label ++ is) = exec is := by
  induction labels with
  | nil => rfl
  | cons l labels ih => exact ih

theorem exec_statement {i : Instruction} {o : Outcome} (h : i.outcome? = some o)
    (is : List Instruction) : exec (i :: is) = some o := by
  cases i with
  | leave => exact h
  | throw e => exact h
  | _ => nomatch h

theorem passed_of_outcome? {scope : List (String × Int)} {code : Int} {i : Instruction}
    {o : Outcome} (h : i.outcome? = some o) : passed scope code i = true := by
  cases i with
  | label _ => nomatch h
  | _ => rfl

variable {scope : List (String × Int)} {code : Int} {groups : List Group} {tail : List Instruction}

/-- A group without the number is passed by. -/
theorem dropWhile_group {g : Group} {o : Outcome} (hg : g.statement.outcome? = some o)
    (hmiss : ∀ l ∈ g.labels, scope.lookup l ≠ some code) (is : List Instruction) :
    (g.flat ++ is).dropWhile (passed scope code) =
      is.dropWhile (passed scope code) := by
  refine List.dropWhile_append_of_pos (List.forall_mem_append.2 ⟨?_, ?_⟩)
  · exact List.forall_mem_map.2 fun l hl => bne_iff_ne.2 (hmiss l hl)
  · exact fun i hi => List.mem_singleton.1 hi ▸ passed_of_outcome? hg

/-- A group with the number is entered at one of its labels, and its statement is reached. -/
theorem exec_group {g : Group} {o : Outcome} (hg : g.statement.outcome? = some o)
    (hhit : ∃ l ∈ g.labels, scope.lookup l = some code) (is : List Instruction) :
    exec ((g.flat ++ is).dropWhile (passed scope code)) = some o := by
  obtain ⟨labels, statement⟩ := g
  unfold Group.flat
  rw [List.append_assoc]
  induction labels with
  | nil =>
    obtain ⟨l, hl, _⟩ := hhit
    nomatch hl
  | cons l labels ih =>
    by_cases hl : scope.lookup l = some code
    · have hstop : ¬ passed scope code (label l) = true := fun h => bne_iff_ne.1 h hl
      rw [List.map_cons, List.cons_append, List.dropWhile_cons_of_neg hstop]
      show exec (labels.map label ++ _) = _
      rw [exec_labels]
      exact exec_statement hg is
    · have hpass : passed scope code (label l) = true := bne_iff_ne.2 hl
      have hrest : ∃ k ∈ labels, scope.lookup k = some code := by
        obtain ⟨k, hk, hcode⟩ := hhit
        rcases List.mem_cons.1 hk with rfl | hk
        · exact absurd hcode hl
        · exact ⟨k, hk, hcode⟩
      rw [List.map_cons, List.cons_append, List.dropWhile_cons_of_pos hpass]
      exact ih hg hrest

/-- A number that is a label of some group leads to the statement of its group. -/
theorem exec_groups {o : Outcome} (hstatement : ∀ g ∈ groups, ∃ o, g.statement.outcome? = some o)
    (hhit : ∃ g ∈ groups, ∃ l ∈ g.labels, scope.lookup l = some code)
    (hsame : ∀ g ∈ groups, (∃ l ∈ g.labels, scope.lookup l = some code) →
      g.statement.outcome? = some o) :
    exec ((groups.flatMap Group.flat ++ tail).dropWhile (passed scope code)) = some o := by
  induction groups with
  | nil =>
    obtain ⟨g, hg, _⟩ := hhit
    nomatch hg
  | cons g groups ih =>
    rw [List.flatMap_cons, List.append_assoc]
    obtain ⟨hg, hgroups⟩ := List.forall_mem_cons.1 hstatement
    obtain ⟨hsameg, hsamegroups⟩ := List.forall_mem_cons.1 hsame
    by_cases hgroup : ∃ l ∈ g.labels, scope.lookup l = some code
    · exact exec_group (hsameg hgroup) hgroup _
    · obtain ⟨o', ho'⟩ := hg
      have hmiss : ∀ l ∈ g.labels, scope.lookup l ≠ some code := fun l hl heq => hgroup ⟨l, hl, heq⟩
      rw [dropWhile_group ho' hmiss]
      refine ih hgroups ?_ hsamegroups
      obtain ⟨h, hh, hl⟩ := hhit
      rcases List.mem_cons.1 hh with rfl | hh
      · exact absurd hl hgroup
      · exact ⟨h, hh, hl⟩

/-- A number that is no label leads past all groups. -/
theorem dropWhile_groups (hstatement : ∀ g ∈ groups, ∃ o, g.statement.outcome? = some o)
    (hmiss : ∀ g ∈ groups, ∀ l ∈ g.labels, scope.lookup l ≠ some code) :
    (groups.flatMap Group.flat ++ tail).dropWhile (passed scope code) =
      tail.dropWhile (passed scope code) := by
  induction groups with
  | nil => rfl
  | cons g groups ih =>
    obtain ⟨⟨o, ho⟩, hgroups⟩ := List.forall_mem_cons.1 hstatement
    obtain ⟨hg, hmissgroups⟩ := List.forall_mem_cons.1 hmiss
    rw [List.flatMap_cons, List.append_assoc, dropWhile_group ho hg]
    exact ih hgroups hmissgroups

theorem exec_enter_of_hit {o : Outcome} {is : List Instruction}
    (h : exec (is.dropWhile (passed scope code)) = some o) :
    exec (enter scope code is) = some o := by
  unfold enter
  cases hdrop : is.dropWhile (passed scope code) with
  | nil =>
    rw [hdrop] at h
    nomatch h
  | cons i js =>
    rw [hdrop] at h
    exact h

/-- Past all groups there is the default. -/
theorem exec_enter_default {e : String}
    (hstatement : ∀ g ∈ groups, ∃ o, g.statement.outcome? = some o)
    (hmiss : ∀ g ∈ groups, ∀ l ∈ g.labels, scope.lookup l ≠ some code) :
    exec (enter scope code (groups.flatMap Group.flat ++ [default, throw e])) =
      some (.throws e) := by
  have hnothing : (groups.flatMap Group.flat ++ [default, throw e]).dropWhile
      (passed scope code) = [] := by
    rw [dropWhile_groups hstatement hmiss]
    rfl
  have hdefault : ∀ i ∈ groups.flatMap Group.flat, (i != default) = true := by
    intro i hi
    obtain ⟨g, hg, hi⟩ := List.mem_flatMap.1 hi
    obtain ⟨o, ho⟩ := hstatement g hg
    rcases List.mem_append.1 hi with hi | hi
    · obtain ⟨l, _, rfl⟩ := List.mem_map.1 hi
      rfl
    · rw [List.mem_singleton.1 hi]
      refine bne_iff_ne.2 fun heq => ?_
      rw [heq] at ho
      nomatch ho
  unfold enter
  rw [hnothing]
  dsimp only
  rw [List.dropWhile_append_of_pos hdefault]
  rfl

end Instruction

end Bindery
