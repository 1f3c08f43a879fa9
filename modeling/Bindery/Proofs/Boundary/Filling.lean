/-
  CALL FIRST, THEN FILL: the order of a safe function.

  Two things are read off a line of Rust: whether it may leave the function that it stands in, and which
  bytes it fills.  A body is in order if one line cuts it in two, the call (`CutByCall`): in front of it
  and by it nothing is filled, and behind it no line leaves.  So a call that fails, wherever it fails,
  has written nothing.

  A safe function has four shapes, with outputs or without, and the result of the library is its own or
  has to be wrapped; in each of them the cut is the call of the library, and every output is filled once
  behind it.
-/
import Bindery.Proofs.Boundary.WrapperMeasures
import Bindery.Proofs.Source.Binding

namespace Bindery

open Naming Source

/-! ## Lines that leave, and lines that fill -/

/-- Whether a line of Rust may leave the function that it stands in. -/
def leavesEarly (text : String) : Bool := text.toList.contains '?' || firstWord text == "return"

/-- What stands behind the name of bytes that are filled. -/
def fillings : List String := [".copy_from_slice(", "["]

/-- The bytes that a line of Rust fills. -/
def filledBy? (text : String) : Option String :=
  if fillings.any fun f => f.toList.isPrefixOf (behindWord text) then
    some (firstWord text)
  else none

/-- `CutByCall body front call back` — one line of the body cuts it in two: nothing is filled up to it,
and behind it no line leaves. -/
structure CutByCall (body front : List String) (call : String) (back : List String) : Prop where
  split : body = front ++ call :: back
  untouched : ∀ text ∈ front ++ [call], filledBy? text = none
  stays : ∀ text ∈ back, leavesEarly text = false

section

variable {name rest text : String}

theorem filledBy?_append (hname : Wordy name.toList) (hrest : Text.Stops isIdentifierChar rest.toList) :
    filledBy? (name ++ rest) =
      if fillings.any fun f => f.toList.isPrefixOf rest.toList then some name else none := by
  rw [filledBy?, firstWord_append hname hrest, behindWord_append hname hrest]

/-- A line that goes on behind its first word with a character that nothing is filled by. -/
theorem filledBy?_eq_none {c : Char} (h : (behindWord text).head? = some c)
    (hc : fillings.all (fun f => f.toList.head? != some c) = true) : filledBy? text = none := by
  refine if_neg fun hany => ?_
  obtain ⟨f, hf, hprefix⟩ := List.any_eq_true.1 hany
  have hother := List.all_eq_true.1 hc f hf
  obtain ⟨more, hmore⟩ := List.isPrefixOf_iff_prefix.1 hprefix
  have hne : f.toList ≠ [] := (by decide : ∀ f ∈ fillings, f.toList ≠ []) f hf
  rw [← hmore, List.head?_append_of_ne_nil _ hne] at h
  rw [h, bne_self_eq_false] at hother
  nomatch hother

end

namespace Store

variable {target source : String}

/-- What stands behind the bytes that are filled. -/
def behind (source : String) : Store → String
  | bytes => ".copy_from_slice(&" ++ source ++ ");"
  | byte => "[0] = " ++ source ++ ";"
  | littleEndian => ".copy_from_slice(&" ++ source ++ ".to_le_bytes());"

theorem statement_eq (store : Store) :
    store.statement target source = target ++ store.behind source := by
  unfold statement behind
  cases store <;> simp only [String.append_assoc]

theorem behind_head (store : Store) (source : String) :
    ∃ f ∈ fillings, ∃ rest, store.behind source = f ++ rest := by
  have hslice : ".copy_from_slice(&" = ".copy_from_slice(" ++ "&" := by decide
  have hbyte : "[0] = " = "[" ++ "0] = " := by decide
  unfold behind
  cases store
  case byte =>
    refine ⟨"[", by decide, "0] = " ++ source ++ ";", ?_⟩
    simp only [hbyte, String.append_assoc]
  all_goals
    refine ⟨".copy_from_slice(", by decide, ?_⟩
    simp only [hslice, String.append_assoc]
    exact ⟨_, rfl⟩

theorem filledBy?_statement (store : Store) (htarget : Wordy target.toList) :
    filledBy? (store.statement target source) = some target := by
  obtain ⟨f, hf, rest, hbehind⟩ := store.behind_head source
  have hstops : Text.Stops isIdentifierChar (store.behind source).toList := by
    have hfilling := (by decide : ∀ f ∈ fillings, f.toList ≠ [] ∧
      Text.Stops isIdentifierChar f.toList) f hf
    rw [hbehind]
    exact stops_append hfilling rest
  rw [statement_eq, filledBy?_append htarget hstops, if_pos]
  refine List.any_eq_true.2 ⟨f, hf, List.isPrefixOf_iff_prefix.2 ?_⟩
  rw [hbehind, String.toList_append]
  exact List.prefix_append _ _

/-- What fills bytes calls nothing but that. -/
theorem callIn?_statement (store : Store) (htarget : Wordy target.toList)
    (hsource : Wordy source.toList) {x : String × List String}
    (hx : callIn? (store.statement target source) = some x) : x.1 = "copy_from_slice" := by
  have hdot : '(' ∉ (target ++ ".").toList := by
    rw [String.toList_append, List.mem_append, not_or]
    exact ⟨htarget.notMem (by decide), by decide⟩
  have hlast : Text.Stops isPathChar (target ++ ".").toList.reverse :=
    stops_reverse (getLast?_toList_append (c := '.') _ (by decide)) (by decide)
  have hslice : ".copy_from_slice(&" = "." ++ ("copy_from_slice" ++ ("(" ++ "&")) := by
    decide
  obtain ⟨after, hread⟩ | hfree : (∃ after, store.statement target source =
      target ++ "." ++ ("copy_from_slice" ++ ("(" ++ after))) ∨
      '(' ∉ (store.statement target source).toList := by
    have hopen : '(' ∉ source.toList := hsource.notMem (by decide)
    have hclosed : '(' ∉ target.toList := htarget.notMem (by decide)
    unfold statement
    cases store
    -- A single byte is assigned, without a call.
    case byte =>
      right
      simp +decide only [String.toList_append, List.mem_append, hopen, hclosed, or_self,
        not_false_eq_true]
    all_goals
      left
      simp only [hslice, String.append_assoc]
      exact ⟨_, rfl⟩
  · rw [callIn?_path after hread hdot hlast (isPathChar_of_wordy (by decide))] at hx
    cases hx
    rfl
  · rw [callIn?, if_neg hfree] at hx
    cases hx

theorem leavesEarly_statement (store : Store) (htarget : Wordy target.toList)
    (hsource : Wordy source.toList) (hfree : target ≠ "return") :
    leavesEarly (store.statement target source) = false := by
  have hword : firstWord (store.statement target source) = target := by
    have hfilled : filledBy? (store.statement target source) = some target :=
      store.filledBy?_statement htarget
    unfold filledBy? at hfilled
    split at hfilled
    · exact Option.some.inj hfilled
    · nomatch hfilled
  have hmark : ∀ {name : String}, Wordy name.toList → '?' ∉ name.toList := fun h =>
    h.notMem (by decide)
  have hnone : '?' ∉ (store.statement target source).toList := by
    unfold statement
    cases store <;>
      simp +decide only [String.toList_append, List.mem_append, hmark htarget, hmark hsource,
        or_self, not_false_eq_true]
  unfold leavesEarly
  rw [hword, List.contains_eq_mem, decide_eq_false hnone, Bool.false_or]
  exact beq_false_of_ne hfree

end Store

/-! ## A safe function in order -/

/-- `HandsOn library fallible returns call back` — what becomes of the result of the library call.
Where nothing is filled, the result of a fallible function is the result of the call itself, and that
of any other is wrapped.  Where something is filled, a failure leaves at once, and a value is kept
until the end. -/
inductive HandsOn (library : String) : Bool → Bool → String → List String → Prop where
  | propagated {returns : Bool} : HandsOn library true returns library []
  | wrapped {returns : Bool} : HandsOn library false returns ("Ok" ++ inParens library) []
  | propagatedFirst {writes : List String} :
      HandsOn library true false (library ++ "?;") (writes ++ ["Ok(())"])
  | dropped {writes : List String} :
      HandsOn library false false (library ++ ";") (writes ++ ["Ok(())"])
  | unwrapped {writes : List String} :
      HandsOn library true true ("let result = " ++ library ++ "?;") (writes ++ ["Ok(result)"])
  | kept {writes : List String} :
      HandsOn library false true ("let result = " ++ library ++ ";") (writes ++ ["Ok(result)"])

/-- `f.SafeInOrder api errorType front call back` — the safe function: its checks, the one call of the
library, and then every output, each of them once. -/
structure Function.SafeInOrder (f : Function) (api errorType : String) (front : List String)
    (call : String) (back : List String) : Prop where
  cut : CutByCall (textsAt 1 ((f.safe api).lines errorType)) front call back
  filled : back.filterMap filledBy? = f.outputs.map (·.name)
  distinct : (f.outputs.map (·.name)).Nodup
  handedOn : ∃ args, HandsOn (f.libraryPath api ++ inParens (commas args)) f.fallible f.returns.isSome
    call back
  once : ∀ text ∈ front ++ back, ∀ x, callIn? text = some x → x.1 ≠ f.libraryPath api

/-- A line that binds something fills nothing. -/
theorem filledBy?_let (rest : String) : filledBy? ("let " ++ rest) = none := by
  refine filledBy?_eq_none (c := ' ') ?_ (by decide)
  rw [behindWord, String.toList_append]
  rfl

/-- Nor does one that starts with a call. -/
theorem filledBy?_call {name : String} (hname : Wordy name.toList) (rest : String) :
    filledBy? (name ++ ("(" ++ rest)) = none := by
  have hopen : ("(" ++ rest).toList = '(' :: rest.toList := by
    rw [String.toList_append]
    rfl
  refine filledBy?_eq_none (c := '(') ?_ (by decide)
  rw [behindWord_append hname (by rw [hopen]; exact Text.stops_cons.2 rfl), hopen]
  rfl

namespace Prepare

/-- Names that make a statement what it looks like. -/
def Named : Prepare → Prop
  | checkOutput parameter size => Wordy parameter.toList ∧ Tight (size.spell lengthConstant)
  | emptyArray parameter type => Wordy parameter.toList ∧ Wordy (lengthConstant type).toList
  | zero parameter _ => Wordy parameter.toList
  | copyInput parameter type => Wordy parameter.toList ∧ Wordy (lengthConstant type).toList

theorem wordy_valueLocal {parameter : String} (h : Wordy parameter.toList) :
    Wordy (valueLocal parameter).toList := by
  unfold valueLocal
  rw [String.toList_append]
  exact h.append (by decide)

theorem filledBy?_statement (p : Prepare) : filledBy? p.statement = none := by
  have hmut : "let mut " = "let " ++ "mut " := by decide
  unfold statement
  cases p with
  | checkOutput parameter size =>
    dsimp only
    rw [inParens, String.append_assoc, String.append_assoc, String.append_assoc]
    exact filledBy?_call (by decide) _
  | _ =>
    simp only [hmut, String.append_assoc]
    exact filledBy?_let _

/-- A statement in front of the call calls one helper, or nothing. -/
theorem calls_one {p : Prepare} (h : p.Named) :
    '(' ∉ p.statement.toList ∨ ∃ helper ∈ safeHelpers, OneCall helper p.statement := by
  have hopen : ∀ {name : String}, Wordy name.toList → '(' ∉ name.toList := fun h =>
    h.notMem (by decide)
  unfold statement
  cases p with
  | checkOutput parameter size =>
    have hsize : '(' ∉ (size.spell lengthConstant).toList :=
      h.2.notMem (by decide) (by decide) (by decide)
    have hinside : '(' ∉ (commas [parameter, size.spell lengthConstant]).toList :=
      notMem_commas (by decide) (List.forall_mem_cons.2 ⟨hopen h.1, List.forall_mem_singleton.2 hsize⟩)
    refine Or.inr ⟨"check_output", by decide, "",
      commas [parameter, size.spell lengthConstant] ++ (")" ++ "?;"), ?_, by decide, by decide, ?_⟩
    · simp only [inParens, String.append_assoc, String.empty_append]
    · rw [String.toList_append, List.mem_append, not_or]
      exact ⟨hinside, by decide⟩
  | emptyArray parameter type =>
    have hvalue := hopen (wordy_valueLocal h.1)
    have hconstant := hopen h.2
    left
    simp +decide only [String.toList_append, List.mem_append, hvalue, hconstant, or_self,
      not_false_eq_true]
  | zero parameter w =>
    have hvalue := hopen (wordy_valueLocal h)
    have hwidth : '(' ∉ w.rust.toList := by cases w <;> decide
    left
    simp +decide only [String.toList_append, List.mem_append, hvalue, hwidth, or_self,
      not_false_eq_true]
  | copyInput parameter type =>
    have hvalue := hopen (wordy_valueLocal h.1)
    have hconstant := hopen h.2
    have hparameter := hopen h.1
    have hfixed : " = fixed" = " = " ++ "fixed" := by decide
    refine Or.inr ⟨"fixed", by decide,
      "let " ++ valueLocal parameter ++ ": " ++ arrayType (lengthConstant type) ++ " = ",
      parameter ++ (")" ++ "?;"), ?_, ?_,
      stops_reverse (getLast?_toList_append (c := ' ') _ (by decide)) (by decide), ?_⟩
    · simp only [hfixed, inParens, String.append_assoc]
    · unfold arrayType
      simp +decide only [String.toList_append, List.mem_append, hvalue, hconstant, or_self,
        not_false_eq_true]
    · simp +decide only [String.toList_append, List.mem_append, hparameter, or_self,
        not_false_eq_true]

theorem calls_helper {p : Prepare} (h : p.Named) {x : String × List String}
    (hx : callIn? p.statement = some x) : x.1 ∈ safeHelpers := by
  rcases calls_one h with hfree | ⟨helper, hmem, hone⟩
  · rw [callIn?, if_neg hfree] at hx
    cases hx
  · have hwordy := (by decide : ∀ h ∈ safeHelpers, Wordy h.toList) helper hmem
    rw [hone.callIn? (isPathChar_of_wordy hwordy)] at hx
    cases hx
    exact hmem

end Prepare

/-- A path goes on behind its first word with a colon. -/
theorem head?_dropWhile_colon {s t : List Char} (h : ∀ c ∈ s, isIdentifierChar c = true ∨ c = ':') :
    ((s ++ ':' :: t).dropWhile isIdentifierChar).head? = some ':' := by
  induction s with
  | nil => rfl
  | cons c s ih =>
    obtain ⟨hc, hs⟩ := List.forall_mem_cons.1 h
    by_cases hword : isIdentifierChar c = true
    · rw [List.cons_append, List.dropWhile_cons_of_pos hword]
      exact ih hs
    · rw [List.cons_append, List.dropWhile_cons_of_neg hword]
      exact congrArg some (hc.resolve_left hword)

theorem pathChars_of_isPath {path : String} (h : isPath path = true) :
    ∀ c ∈ path.toList, isIdentifierChar c = true ∨ c = ':' := by
  intro c hc
  by_cases hcolon : c = ':'
  · exact Or.inr hcolon
  · obtain ⟨w, hw, hcw⟩ := mem_pathSegments hc hcolon
    exact Or.inl (wordy_of_mem_pathSegments h hw c hcw)

/-- A call of the library starts with a path. -/
theorem Function.head?_behindWord_library (f : Function) {api : String} (hapi : isPath api = true)
    (rest : String) : (behindWord (f.libraryPath api ++ rest)).head? = some ':' := by
  have hread : (f.libraryPath api ++ rest).toList = api.toList ++
      ':' :: ':' :: (f.module.toList ++ "::".toList ++ (snakeCase f.name).toList ++ rest.toList) := by
    unfold Function.libraryPath
    simp only [String.toList_append, List.append_assoc]
    rfl
  rw [behindWord, hread]
  exact head?_dropWhile_colon (pathChars_of_isPath hapi)

/-- So it fills nothing in this function. -/
theorem filledBy?_library (f : Function) {api : String} (hapi : isPath api = true) (rest : String) :
    filledBy? (f.libraryPath api ++ rest) = none :=
  filledBy?_eq_none (f.head?_behindWord_library hapi rest) (by decide)

namespace Function

/-- The call of the library. -/
def libraryCall (f : Function) (api : String) : String :=
  f.libraryPath api ++ inParens (commas ((f.safe api).passed.map (·.expression)))

/-- The line of a safe function that calls the library. -/
def safeCall (f : Function) (api : String) : String :=
  if f.outputs.isEmpty then
    if f.fallible then f.libraryCall api else "Ok" ++ inParens (f.libraryCall api)
  else
    (if f.returns.isSome then "let " ++ resultLabel ++ " = " else "") ++ f.libraryCall api ++
      (if f.fallible then "?" else "") ++ ";"

/-- What a safe function does behind the call. -/
def filling (f : Function) : List String :=
  if f.outputs.isEmpty then []
  else f.outputs.map (fun p => p.type.store.statement p.name (valueLocal p.name)) ++
    [if f.returns.isSome then "Ok" ++ inParens resultLabel else "Ok(())"]

theorem safe_returns (f : Function) (api : String) :
    (f.safe api).returns = .unit ↔ f.returns.isSome = false := by
  unfold safe
  dsimp only
  cases f.returns with
  | none => exact ⟨fun _ => rfl, fun _ => rfl⟩
  | some t =>
    refine ⟨fun h => ?_, fun h => nomatch h⟩
    rw [Option.map_some, Option.getD_some, TypeDef.safeReturn] at h
    split at h <;> nomatch h

theorem conclusion_eq (f : Function) (api : String) :
    (f.safe api).conclusion = f.safeCall api :: f.filling := by
  have hcall : (f.safe api).call = f.libraryCall api := rfl
  have hfilled : (f.safe api).filled = f.outputs.map fun p => (p.name, p.type.store) := rfl
  have hfallible : (f.safe api).fallible = f.fallible := rfl
  have hempty : (f.safe api).filled.isEmpty = f.outputs.isEmpty := by
    rw [hfilled]
    cases f.outputs <;> rfl
  unfold SafeFunction.conclusion safeCall filling
  rw [hempty, hcall, hfallible]
  by_cases hout : f.outputs.isEmpty = true
  · rw [if_pos hout, if_pos hout, if_pos hout]
  · rw [if_neg hout, if_neg hout, if_neg hout, hfilled, List.map_map]
    by_cases hreturns : f.returns.isSome = true
    · have hunit : ¬ (f.safe api).returns = .unit := by rw [safe_returns, hreturns]; exact nofun
      dsimp only
      rw [if_neg hunit, if_neg hunit, if_pos hreturns, if_pos hreturns]
      rfl
    · have hunit : (f.safe api).returns = .unit := by
        rw [safe_returns]
        exact Bool.eq_false_iff.2 hreturns
      dsimp only
      rw [if_pos hunit, if_pos hunit, if_neg hreturns, if_neg hreturns]
      rfl

theorem textsAt_safe (f : Function) (api errorType : String) :
    textsAt 1 ((f.safe api).lines errorType) =
      (f.safe api).prepared.map (·.statement) ++ f.safeCall api :: f.filling := by
  rw [← conclusion_eq]
  simp [SafeFunction.lines, block]

end Function

section

variable {m : Model} {f : Function} {api : String}

theorem named_prepared (hm : m.WellFormed) (hf : f ∈ m.functions) :
    ∀ step ∈ (f.safe api).prepared, step.Named := by
  intro step hstep
  obtain ⟨p, hp, hstep⟩ := List.mem_flatMap.1 hstep
  have hknown := hm.known hf (Function.argument_mem hp)
  have hname : Wordy p.name.toList := hknown.name
  have hconstant := hm.wordy_lengthConstant hknown.type
  have hsize : Tight (p.type.size.spell lengthConstant) := tight_size (.of_wordy hconstant)
  have hpair : ∀ {a b : Prepare}, a.Named → b.Named → ∀ x ∈ [a, b], x.Named := fun ha hb =>
    List.forall_mem_cons.2 ⟨ha, List.forall_mem_singleton.2 hb⟩
  unfold Parameter.prepare at hstep
  split at hstep
  · exact hpair (a := .checkOutput _ _) (b := .emptyArray _ _) ⟨hname, hsize⟩ ⟨hname, hconstant⟩ _
      hstep
  · exact hpair (a := .checkOutput _ _) (b := .zero _ _) ⟨hname, hsize⟩ hname _ hstep
  · rw [List.mem_singleton.1 hstep]
    exact ⟨hname, hconstant⟩
  · nomatch hstep

theorem filledBy?_safeCall (f : Function) (hapi : isPath api = true) :
    filledBy? (f.safeCall api) = none := by
  have hlet : "let " ++ resultLabel ++ " = " = "let " ++ (resultLabel ++ " = ") := String.append_assoc
  unfold Function.safeCall Function.libraryCall
  split
  · split
    · exact filledBy?_library f hapi _
    · rw [inParens, String.append_assoc]
      exact filledBy?_call (by decide) _
  · split
    · rw [hlet]
      simp only [String.append_assoc]
      exact filledBy?_let _
    · simp only [String.empty_append, String.append_assoc]
      exact filledBy?_library f hapi _

/-- Of the lines behind the call, all but the last fill an output. -/
theorem forall_filling {P : String → Prop} (hunit : P "Ok(())") (hresult : P "Ok(result)")
    (h : ∀ p ∈ f.outputs, P (p.type.store.statement p.name (valueLocal p.name))) :
    ∀ text ∈ f.filling, P text := by
  have hlast : "Ok" ++ inParens resultLabel = "Ok(result)" := by decide
  unfold Function.filling
  split
  · exact fun _ h => (nomatch h)
  · refine List.forall_mem_append.2 ⟨List.forall_mem_map.2 h, List.forall_mem_singleton.2 ?_⟩
    split
    · rw [hlast]
      exact hresult
    · exact hunit

theorem filled_filling (h : ∀ p ∈ f.outputs, Wordy p.name.toList) :
    f.filling.filterMap filledBy? = f.outputs.map (·.name) := by
  have hlast : [if f.returns.isSome then "Ok" ++ inParens resultLabel else "Ok(())"].filterMap filledBy? =
      [] := by
    split <;> decide
  have hwrites : (f.outputs.map fun p => p.type.store.statement p.name (valueLocal p.name)).filterMap
      filledBy? = f.outputs.map (·.name) := by
    rw [List.filterMap_map, ← List.filterMap_eq_map]
    exact List.filterMap_congr fun p hp => p.type.store.filledBy?_statement (h p hp)
  unfold Function.filling
  split
  · rename_i hempty
    rw [List.isEmpty_iff.1 hempty]
    rfl
  · rw [List.filterMap_append, hwrites, hlast, List.append_nil]

theorem handsOn (f : Function) (api : String) :
    HandsOn (f.libraryCall api) f.fallible f.returns.isSome (f.safeCall api) f.filling := by
  have hresult : "Ok" ++ inParens resultLabel = "Ok(result)" := by decide
  have hlet : "let " ++ resultLabel ++ " = " = "let result = " := by decide
  have hmark : "?" ++ ";" = "?;" := by decide
  unfold Function.safeCall Function.filling
  rw [hresult, hlet]
  by_cases hout : f.outputs.isEmpty = true
  · rw [if_pos hout, if_pos hout]
    cases f.fallible with
    | true => exact .propagated
    | false => exact .wrapped
  -- With outputs the four ways of calling differ in whether the result is kept and unwrapped.
  · rw [if_neg hout, if_neg hout]
    cases f.fallible <;> cases f.returns.isSome <;>
      simp only [if_true, if_false, Bool.false_eq_true, String.append_empty, String.empty_append,
        String.append_assoc, hmark]
    · exact .dropped
    · exact .kept
    · exact .propagatedFirst
    · exact .unwrapped

theorem libraryPath_colon (f : Function) (api : String) : ':' ∈ (f.libraryPath api).toList := by
  unfold Function.libraryPath
  simp only [String.toList_append, List.mem_append]
  exact Or.inl (Or.inl (Or.inl (Or.inr (by decide))))

theorem safeInOrder (hm : m.WellFormed) (hf : f ∈ m.functions) (hapi : isPath api = true)
    (errorType : String) : f.SafeInOrder api errorType ((f.safe api).prepared.map (·.statement))
      (f.safeCall api) f.filling := by
  have hout : ∀ p ∈ f.outputs, Wordy p.name.toList ∧ p.name ≠ "return" := by
    intro p hp
    have ha : p.argument ∈ f.arguments := Function.argument_mem (List.mem_of_mem_filter hp)
    exact ⟨(hm.known hf ha).name, ne_of_isReserved (hm.free_name hf ha).2 (by decide)⟩
  constructor
  case cut =>
    refine ⟨f.textsAt_safe api errorType, List.forall_mem_append.2 ⟨?_, ?_⟩,
      forall_filling (by decide) (by decide) fun p hp => ?_⟩
    · exact List.forall_mem_map.2 fun step _ => step.filledBy?_statement
    · exact List.forall_mem_singleton.2 (filledBy?_safeCall f hapi)
    · obtain ⟨hname, hfree⟩ := hout p hp
      exact p.type.store.leavesEarly_statement hname (Prepare.wordy_valueLocal hname) hfree
  case filled => exact filled_filling fun p hp => (hout p hp).1
  case distinct =>
    have hnames : (f.parameters.map (·.name)).Nodup := List.pairwise_map.2 (hm.function hf).distinct
    exact hnames.sublist (List.filter_sublist.map _)
  case handedOn => exact ⟨_, handsOn f api⟩
  case once =>
    -- The path of the library has a colon in it, and no other callee of the function has one.
    have hother : ∀ {word : String}, ':' ∉ word.toList → word ≠ f.libraryPath api := by
      rintro word h rfl
      exact h (libraryPath_colon f api)
    refine List.forall_mem_append.2 ⟨List.forall_mem_map.2 fun step hstep x hx => ?_,
      forall_filling ?_ ?_ fun p hp x hx => ?_⟩
    · have hhelper := Prepare.calls_helper (named_prepared hm hf step hstep) hx
      exact hother ((by decide : ∀ h ∈ safeHelpers, ':' ∉ h.toList) _ hhelper)
    · intro x hx
      rw [show callIn? "Ok(())" = some ("Ok", ["("]) by decide] at hx
      cases hx
      exact hother (by decide)
    · intro x hx
      rw [show callIn? "Ok(result)" = some ("Ok", ["result"]) by decide] at hx
      cases hx
      exact hother (by decide)
    · obtain ⟨hname, _⟩ := hout p hp
      rw [p.type.store.callIn?_statement hname (Prepare.wordy_valueLocal hname) hx]
      exact hother (by decide)

end

end Bindery
