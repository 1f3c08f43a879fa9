/-
  CHECKED EXCEPTIONS, read off the lines of Java.

  A declaration says behind its parameters what it throws (`thrower?`), and a class of exceptions which
  one it extends.  A line raises what it throws itself, and what the declarations of all that it calls say
  (`raisedBy`).  What a body lets out is found by going through its lines (`flowOf`): between `try` and
  `catch` exceptions are collected, and all others leave.

  An exception is checked if `Exception` is above it.  Calls are told by their names; an object that is
  made of several values is none of these calls, for no class of values takes more than one.
-/
import Bindery.Proofs.Source.Handing

namespace Bindery.Source

open Naming

/-! ## Declarations -/

/-- What a declaration says that it throws: the name of what is declared, and the exception. -/
def thrower? (text : String) : Option (String × String) :=
  if " \x7b".toList <:+ text.toList then
    let back := (text.toList.reverse).drop 2
    if ") throws ".toList <:+ (back.dropWhile isIdentifierChar).reverse then
      some (lastPath (beforeParens text.toList), String.ofList (back.takeWhile isIdentifierChar).reverse)
    else none
  else none

/-- What a class declares that throws: its constructors under the name of the class, and its methods with
this name in front. -/
def throwersIn (name : String) (ls : List Line) : List (String × String) :=
  ((textsAt 1 ls).filterMap thrower?).map fun x =>
    (if x.1 = name then name else name ++ "." ++ x.1, x.2)

/-- What a method declares to throw. -/
def declaredThrows (ls : List Line) : List String :=
  ((thrower? ((textsAt 0 ls).headD "")).map Prod.snd).toList

/-- A class that another one is declared to extend. -/
def extensions : Reader (String × String) :=
  ⟨"public class ", fun s =>
    if " extends ".toList <+: s.dropWhile isIdentifierChar then
      some (String.ofList (s.takeWhile isIdentifierChar),
        String.ofList (((s.dropWhile isIdentifierChar).drop 9).takeWhile isIdentifierChar))
    else none⟩

/-- `IsA extended x y` — the exception is the other one, or one that extends it. -/
inductive IsA (extended : List (String × String)) : String → String → Prop where
  | same (x : String) : IsA extended x x
  | step {x y z : String} : (x, y) ∈ extended → IsA extended y z → IsA extended x z

/-- `MustHandle extended x` — the exception is checked: it has to be declared or caught. -/
def MustHandle (extended : List (String × String)) (x : String) : Prop := IsA extended x "Exception"

/-! ## Lines -/

/-- What a line calls.  What is returned is called value by value. -/
def calledIn (text : String) : List String :=
  (javaReturns.read? text.toList).elim (calleesIn text) fun value =>
    (javaComponents value).flatMap calleesIn

/-- What a line throws itself. -/
def throwsItself : Reader String := .named "throw new "

/-- What a line can raise, where it is known what throws. -/
def raisedBy (throwers : List (String × String)) (text : String) : List String :=
  (throwsItself.read? text.toList).elim ((calledIn text).filterMap fun x => throwers.lookup x) fun x => [x]

/-! ## Bodies -/

/-- What can leave a body, and what is caught in it, each time with what can be raised there. -/
structure Flow where
  leaves : List String
  caught : List (String × List String)
  deriving DecidableEq, Repr

/-- A line that tries those behind it. -/
def tries : Reader Unit := ⟨"try ", fun _ => some ()⟩

/-- What a line catches. -/
def catches : Reader String := .named catching

/-- The flow of lines that stand in no `try`, or in one with what was raised in it before. -/
def flowOf (raised : String → List String) : Option (List String) → List String → Flow
  | none, [] => ⟨[], []⟩
  | some inside, [] => ⟨inside, []⟩
  | none, text :: texts =>
    (tries.read? text.toList).elim
      ⟨raised text ++ (flowOf raised none texts).leaves, (flowOf raised none texts).caught⟩
      fun _ => flowOf raised (some []) texts
  | some inside, text :: texts =>
    (catches.read? text.toList).elim (flowOf raised (some (inside ++ raised text)) texts) fun x =>
      ⟨(flowOf raised none texts).leaves, (x, inside) :: (flowOf raised none texts).caught⟩

/-- `Handled extended declared flow` — every checked exception that can be raised is caught, or it leaves
and this is declared; and nothing is caught that could not be raised. -/
structure Handled (extended : List (String × String)) (declared : List String) (flow : Flow) : Prop where
  leaves : ∀ x ∈ flow.leaves, MustHandle extended x → ∃ y ∈ declared, IsA extended x y
  caught : ∀ c ∈ flow.caught, ∀ x ∈ c.2, MustHandle extended x →
    IsA extended x c.1 ∨ ∃ y ∈ declared, IsA extended x y
  useful : ∀ c ∈ flow.caught, ∃ x ∈ c.2, IsA extended x c.1

/-- The lines of a body behind the native call. -/
def behindCall (ls : List Line) : List String :=
  ((textsWithin ls).dropWhile fun text => (nativeCalls.read? text.toList).isNone).drop 1

/-! ## What is extended -/

/-- Nothing is above an exception that extends nothing, besides itself. -/
theorem IsA.eq_or_extends {extended : List (String × String)} {x y : String} (h : IsA extended x y) :
    x = y ∨ ∃ z, (x, z) ∈ extended := by
  cases h with
  | same => exact Or.inl rfl
  | step hmem _ => exact Or.inr ⟨_, hmem⟩

theorem IsA.of_mem {extended : List (String × String)} {x y : String} (h : (x, y) ∈ extended) :
    IsA extended x y := .step h (.same y)

/-! ## Lines that declare -/

section

variable {text name exception : String}

/-- A declaration that throws something. -/
theorem thrower?_throws {front params : String}
    (htext : text = front ++ (name ++ ("(" ++ (params ++ (") throws " ++ (exception ++ " \x7b"))))))
    (hfront : '(' ∉ front.toList) (hlast : Text.Stops isPathChar front.toList.reverse)
    (hname : Wordy name.toList) (hexception : Wordy exception.toList) :
    thrower? text = some (name, exception) := by
  have hfree : '(' ∉ (front ++ name).toList := by
    rw [String.toList_append, List.mem_append, not_or]
    exact ⟨hfront, hname.notMem (by decide)⟩
  have hbefore : beforeParens text.toList = front.toList ++ name.toList := by
    rw [htext, ← String.append_assoc, beforeParens_append hfree, String.toList_append]
  have hread : text.toList = (front ++ (name ++ ("(" ++ (params ++ ") throws ")))).toList ++
      (exception.toList ++ " \x7b".toList) := by
    rw [htext]
    simp only [String.toList_append, List.append_assoc]
  have hback : (text.toList.reverse).drop 2 = exception.toList.reverse ++
      (front ++ (name ++ ("(" ++ (params ++ ") throws ")))).toList.reverse := by
    rw [hread, List.reverse_append, List.reverse_append]
    rfl
  have hmark : (front ++ (name ++ ("(" ++ (params ++ ") throws ")))).toList =
      (front ++ (name ++ ("(" ++ params))).toList ++ ") throws ".toList := by
    simp only [String.toList_append, List.append_assoc]
  have hstops : Text.Stops isIdentifierChar
      (front ++ (name ++ ("(" ++ (params ++ ") throws ")))).toList.reverse := by
    refine stops_reverse (c := ' ') ?_ (by decide)
    rw [hmark, List.getLast?_append]
    rfl
  have hword : ∀ c ∈ exception.toList.reverse, isIdentifierChar c = true := fun c hc =>
    hexception c (List.mem_reverse.1 hc)
  have hclose : " \x7b".toList <:+ text.toList := by
    rw [hread, ← List.append_assoc]
    exact List.suffix_append _ _
  -- Read from behind, there is the brace, then the exception, and then the mark in front of it.
  unfold thrower?
  dsimp only
  rw [if_pos hclose, hback, Text.dropWhile_append_stops hword hstops,
    Text.takeWhile_append_stops hword hstops, List.reverse_reverse, List.reverse_reverse, hmark,
    if_pos (List.suffix_append _ _), hbefore, lastPath_append hlast (isPathChar_of_wordy hname),
    String.ofList_toList, String.ofList_toList]

/-- One that goes on with its body at once. -/
theorem thrower?_eq_none {front : String} (htext : text = front ++ ") \x7b") :
    thrower? text = none := by
  have hback : (text.toList.reverse).drop 2 = ')' :: front.toList.reverse := by
    rw [htext, String.toList_append, List.reverse_append]
    rfl
  have hother : ¬ ") throws ".toList <:+ (')' :: front.toList.reverse).reverse := by
    rw [List.reverse_cons, List.reverse_reverse]
    rintro ⟨more, hmore⟩
    have hlast := congrArg List.getLast? hmore
    rw [List.getLast?_append, List.getLast?_append] at hlast
    exact absurd (Option.some.inj hlast) (by decide)
  unfold thrower?
  dsimp only
  rw [hback, List.dropWhile_cons_of_neg (by decide), if_neg hother, ite_self]

/-- A line that opens no block. -/
theorem thrower?_statement {c : Char} (h : text.toList.getLast? = some c) (hc : c ≠ '\x7b') :
    thrower? text = none := by
  refine if_neg fun hsuffix => hc ?_
  obtain ⟨front, hfront⟩ := hsuffix
  rw [← hfront, List.getLast?_append] at h
  exact (Option.some.inj h).symm

end

/-! ## Lines that raise -/

section

variable {throwers : List (String × String)} {text callee exception value : String}

/-- A text that has one call. -/
theorem calleesIn_oneCall (h : OneCall callee text)
    (hcallee : ∀ c ∈ callee.toList, isCalleeChar c = true) : calleesIn text = [callee] := by
  obtain ⟨before, after, rfl, hbefore, hlast, hafter⟩ := h
  have hread : (callee ++ ("(" ++ after)).toList = callee.toList ++ '(' :: after.toList := by
    simp only [String.toList_append]
    rfl
  have hcall : calleesFrom [] (callee ++ ("(" ++ after)).toList = [callee] := by
    rw [hread, calleesFrom_name _ hcallee, calleesFrom_free hafter, List.reverse_nil, List.nil_append,
      String.ofList_toList]
  unfold calleesIn
  rw [String.toList_append]
  by_cases hne : before.toList = []
  · rw [hne]
    exact hcall
  · rw [calleesFrom_append _ hne hlast, calleesFrom_free hbefore, List.nil_append, hcall]

/-- A line that throws. -/
theorem raisedBy_throw (h : throwsItself.read? text.toList = some exception) :
    raisedBy throwers text = [exception] := by
  unfold raisedBy
  rw [h]
  rfl

/-- A line that throws nothing itself raises what its calls do. -/
theorem raisedBy_calls (hthrow : throwsItself.Ignores text) (hreturn : javaReturns.Ignores text) :
    raisedBy throwers text = (calleesIn text).filterMap fun x => throwers.lookup x := by
  unfold raisedBy calledIn
  rw [hthrow, hreturn]
  rfl

theorem raisedBy_quiet (hthrow : throwsItself.Ignores text) (hreturn : javaReturns.Ignores text)
    (hcalls : Calls (fun x => throwers.lookup x = none) text) : raisedBy throwers text = [] := by
  rw [raisedBy_calls hthrow hreturn]
  exact List.filterMap_eq_nil_iff.2 hcalls

/-- A line that returns raises what is raised for its values. -/
theorem raisedBy_return (h : javaReturns.read? text.toList = some value)
    (hthrow : throwsItself.Ignores text) :
    raisedBy throwers text =
      (javaComponents value).flatMap fun x => (calleesIn x).filterMap fun x => throwers.lookup x := by
  unfold raisedBy calledIn
  rw [hthrow, h]
  exact List.filterMap_flatMap

/-- What is raised by lines that return is raised for their values. -/
theorem raised_returns {texts : List String} (h : ∀ text ∈ texts, ∃ rest, text = "return " ++ rest) :
    texts.flatMap (raisedBy throwers) = ((javaReturns.readAll texts).flatMap javaComponents).flatMap
      fun x => (calleesIn x).filterMap fun x => throwers.lookup x := by
  induction texts with
  | nil => rfl
  | cons text texts ih =>
    obtain ⟨⟨rest, hrest⟩, htexts⟩ := List.forall_mem_cons.1 h
    have hvalue : javaReturns.read? text.toList = some (String.ofList rest.toList.dropLast) :=
      Reader.read?_behind hrest
    have hthrow : throwsItself.Ignores text := by
      have happart : Apart throwsItself.head "return " := by decide
      rw [hrest]
      exact .of_apart (happart.append _)
    rw [List.flatMap_cons, ih htexts, raisedBy_return hvalue hthrow, Reader.readAll_cons, hvalue,
      List.flatMap_append, List.flatMap_append]
    simp only [Option.toList_some, List.flatMap_cons, List.flatMap_nil, List.append_nil]

end

/-! ## The flow of a body -/

section

variable {raised : String → List String} {texts more : List String} {text exception : String}

/-- Lines that try nothing let out what they raise. -/
theorem flowOf_append (h : ∀ text ∈ texts, tries.Ignores text) :
    flowOf raised none (texts ++ more) =
      ⟨texts.flatMap raised ++ (flowOf raised none more).leaves, (flowOf raised none more).caught⟩ := by
  induction texts with
  | nil => rfl
  | cons text texts ih =>
    obtain ⟨htext, htexts⟩ := List.forall_mem_cons.1 h
    rw [List.cons_append, flowOf, htext, ih htexts, List.flatMap_cons, List.append_assoc]
    rfl

theorem flowOf_plain (h : ∀ text ∈ texts, tries.Ignores text) :
    flowOf raised none texts = ⟨texts.flatMap raised, []⟩ := by
  have hflow : flowOf raised none (texts ++ []) = ⟨texts.flatMap raised ++ [], []⟩ := flowOf_append h
  rw [List.append_nil, List.append_nil] at hflow
  exact hflow

/-- Lines that are tried are left by a line that catches. -/
theorem flowOf_tried {inside : List String} (h : ∀ text ∈ texts, catches.Ignores text)
    (hcatch : catches.read? text.toList = some exception) :
    flowOf raised (some inside) (texts ++ text :: more) = ⟨(flowOf raised none more).leaves,
      (exception, inside ++ texts.flatMap raised) :: (flowOf raised none more).caught⟩ := by
  -- By induction on the lines that are tried, whatever was raised in front of them.
  induction texts generalizing inside with
  | nil =>
    rw [List.nil_append, flowOf, hcatch, List.flatMap_nil, List.append_nil]
    rfl
  | cons first texts ih =>
    obtain ⟨hfirst, htexts⟩ := List.forall_mem_cons.1 h
    rw [List.cons_append, flowOf, hfirst]
    show flowOf raised (some (inside ++ raised first)) (texts ++ text :: more) = _
    rw [ih htexts, List.flatMap_cons, List.append_assoc]

end

end Bindery.Source
