/-
  WHAT IS HANDED OUT: each value that a call fills, once and in order, from its own array.

  A wrapper passes a local array for every argument that the call fills, and returns what it decodes from
  these arrays: nothing, one plain value, or several, in Java as an object of a class, in Swift as a tuple.
  The arrays, what is passed, what is decoded and under which label are all read off the lines, and each
  is compared with the arguments of the function that are filled (`Function.filled`).  So no two values of
  one type can change places on the way.
-/
import Bindery.Proofs.Boundary.Capture
import Bindery.Proofs.Source.Handing

namespace Bindery

open Naming Source

/-! ## The values of a call -/

/-- Under what an argument that is filled is handed out. -/
def Argument.label (a : Argument) : String := if a.isResult then resultLabel else a.name

/-- An argument that is filled, as a value that is delivered. -/
def Argument.delivery (a : Argument) : Delivery := ⟨a.name, a.label, a.type⟩

namespace Function

/-- The arguments that a call fills. -/
def filled (f : Function) : List Argument := f.arguments.filter (·.isFilled)

/-- What a wrapper delivers is what the call fills. -/
theorem deliveries_eq (f : Function) : f.deliveries = f.filled.map (·.delivery) := by
  unfold deliveries filled
  rw [f.arguments_filled, List.map_append, List.map_map]
  cases f.returns <;> rfl

theorem outputCount_eq (f : Function) : f.outputCount = f.filled.length := by
  unfold outputCount filled
  rw [f.arguments_filled, List.length_append, List.length_map]
  cases f.returns <;> rfl

/-- What is handed out, each value under its label; a single value has none. -/
def handed (f : Function) : List (Option String × Argument) :=
  f.filled.map fun a => (if 2 ≤ f.outputCount then some a.label else none, a)

/-- Functions with one name for their result classes have one name. -/
theorem name_of_resultClass {f g : Function} (hf : f.Spelled) (hg : g.Spelled)
    (h : f.resultClass = g.resultClass) : f.name = g.name := by
  obtain ⟨c, s, hfname, hc, hfcap⟩ := capitalize_of_isMemberName hf.name.1
  obtain ⟨d, t, hgname, hd, hgcap⟩ := capitalize_of_isMemberName hg.name.1
  have hlist := congrArg String.toList (append_right_cancel h)
  rw [hfcap, hgcap] at hlist
  obtain ⟨hhead, htail⟩ := List.cons.inj hlist
  refine String.toList_inj.1 ?_
  rw [hfname, hgname, htail, toUpper_injective hc hd hhead]

end Function

section

variable {m : Model} {f : Function}

theorem known_filled (hm : m.WellFormed) (hf : f ∈ m.functions) {a : Argument} (ha : a ∈ f.filled) :
    a.Known m := hm.known hf (List.mem_of_mem_filter ha)

theorem wordy_label (hm : m.WellFormed) (hf : f ∈ m.functions) {a : Argument} (ha : a ∈ f.filled) :
    Wordy a.label.toList ∧ a.label ≠ "" := by
  refine wordy_labels hm hf a.delivery ?_
  rw [f.deliveries_eq]
  exact List.mem_map.2 ⟨a, ha, rfl⟩

theorem nodup_filled (hm : m.WellFormed) (hf : f ∈ m.functions) :
    (f.filled.map (·.name)).Nodup ∧ (f.filled.map (·.label)).Nodup := by
  have hlabels := nodup_labels hm hf
  rw [f.deliveries_eq, List.map_map] at hlabels
  exact ⟨(f.nodup_arguments (hm.function hf).native).sublist (List.filter_sublist.map _), hlabels⟩

/-- The size of a type, as wrappers write it. -/
theorem Model.WellFormed.tight_classSize (hm : m.WellFormed) {t : TypeDef} (ht : t ∈ m.types) :
    Tight (t.size.spell classSize) :=
  tight_size ((Tight.of_wordy (hm.word_typeName ht).1).append (by decide))

theorem component_name (hm : m.WellFormed) (hf : f ∈ m.functions) {a : Argument}
    (ha : a ∈ f.arguments) : Component a.name :=
  Component.of_wordy (hm.known hf ha).name (hm.free_name hf ha).1

/-! ## Java methods -/

/-- How the lines start that check ranges, and those that tell what became of the native call. -/
def plainStarts : List String := ["if (", "throw new ", "\"", baseException]

/-- What the other lines of a method start with. -/
def javaStarts : List String := closing :: "try " :: plainStarts

/-- `PlainLine text` — the text ends a block, or it starts like one of these lines. -/
def PlainLine (text : String) : Prop :=
  text = closing ∨ ∃ start ∈ plainStarts, ∃ rest, text = start ++ rest

/-- What is said of a number out of range. -/
theorem rangeMessage_eq (name : String) : "\"" ++ name ++ " out of range: \" + " ++ name ++ ");" =
    "\"" ++ (name ++ (" out of range: \" + " ++ (name ++ ");"))) := by
  simp only [String.append_assoc]

theorem javaRoom_eq (a : Argument) : Function.javaRoom a =
    "byte[] " ++ (a.name ++ (" = new byte[" ++ (a.type.size.spell classSize ++ "];"))) := by
  unfold Function.javaRoom
  simp only [String.append_assoc]

theorem javaCall_eq (f : Function) : f.javaCall = "int ffiResult = Native." ++ (f.nativeMethod ++
    (inParens (commas (f.arguments.map (·.nativeArg.expression))) ++ ";")) := by
  unfold Function.javaCall
  simp only [String.append_assoc]

theorem plainLine_ranged (f : Function) (s : Setting) :
    ∀ text ∈ (f.ranged.flatMap (rangeCheck s)).map (·.text), PlainLine text := by
  intro text htext
  rw [List.map_flatMap] at htext
  obtain ⟨x, _, htext⟩ := List.mem_flatMap.1 htext
  have hall : ∀ text ∈ (rangeCheck s x).map (·.text), PlainLine text := by
    rw [texts_rangeCheck]
    exact List.forall_mem_cons.2 ⟨Or.inr ⟨_, by decide, _, rfl⟩, List.forall_mem_cons.2
      ⟨Or.inr ⟨_, by decide, _, rfl⟩, List.forall_mem_cons.2
        ⟨Or.inr ⟨"\"", by decide, _, rangeMessage_eq x.1⟩, List.forall_mem_singleton.2 (Or.inl rfl)⟩⟩⟩
  exact hall text htext

theorem plainLine_outcome (j : JavaMethod) (s : Setting) :
    ∀ text ∈ (j.outcome s).map (·.text), PlainLine text := by
  rw [texts_outcome]
  split
  · exact List.forall_mem_singleton.2 (Or.inr ⟨_, by decide, _, rfl⟩)
  · exact List.forall_mem_cons.2 ⟨Or.inr ⟨_, by decide, _, rfl⟩, List.forall_mem_cons.2
      ⟨Or.inr ⟨_, by decide, _, rfl⟩, List.forall_mem_singleton.2 (Or.inl rfl)⟩⟩

section

variable {β : Type} {r : Reader β}

theorem PlainLine.ignores (hr : ∀ start ∈ plainStarts, Apart r.head start) (hclosing : r.Ignores closing)
    {text : String} (h : PlainLine text) : r.Ignores text := by
  rcases h with rfl | ⟨start, hstart, rest, htext⟩
  · exact hclosing
  · exact .of_start hr htext hstart

theorem ignores_javaRooms (h : Apart r.head "byte[] ") (f : Function) :
    ∀ text ∈ f.filled.map Function.javaRoom, r.Ignores text :=
  List.forall_mem_map.2 fun a _ => by
    rw [javaRoom_eq]
    exact .of_apart (h.append _)

theorem ignores_javaCall (h : Apart r.head "int ffiResult = Native.") (f : Function) :
    r.Ignores f.javaCall := by
  rw [javaCall_eq]
  exact .of_apart (h.append _)

theorem ignores_javaReturn (h : Apart r.head "return ") (f : Function) (s : Setting) :
    ∀ text ∈ (f.javaMethod s).returnStatement?.toList, r.Ignores text := by
  intro text htext
  obtain ⟨rest, rfl⟩ := returnStatement?_start (Option.mem_toList.1 htext)
  exact .of_apart (h.append _)

/-- What is read at the end of a method: what it returns, and what becomes of an exception in there. -/
theorem readAll_conclusion (htry : r.Ignores "try \x7b") (hclosing : r.Ignores closing) (f : Function)
    (s : Setting) : r.readAll (((f.javaMethod s).conclusion s).map (·.text)) =
      r.readAll (f.javaMethod s).returnStatement?.toList ++
        if f.guarded then r.readAll [catching ++ (s.codes.invalidInput.exceptionName ++ " e) \x7b"),
          "throw new AssertionError(e);"] else [] := by
  have hend : ∀ caught assertion, r.readAll [caught, assertion, closing] =
      r.readAll [caught, assertion] := fun caught assertion => by
    have hsplit : [caught, assertion, closing] = [caught, assertion] ++ [closing] := rfl
    have hlast : r.readAll [closing] = [] := Reader.readAll_eq_nil (List.forall_mem_singleton.2 hclosing)
    rw [hsplit, Reader.readAll_append, hlast, List.append_nil]
  rw [texts_conclusion]
  split
  · rw [List.cons_append, Reader.readAll_cons, htry, Reader.readAll_append, hend]
    rfl
  · exact (List.append_nil _).symm

/-- What is read off a method by a reader that takes none of the other lines for its own. -/
theorem readWithin_java (hr : ∀ start ∈ javaStarts, Apart r.head start) (f : Function) (s : Setting) :
    r.readWithin ((f.javaMethod s).lines s) =
      r.readAll (f.filled.map Function.javaRoom) ++ ((r.read? f.javaCall.toList).toList ++
        r.readAll (f.javaMethod s).returnStatement?.toList) := by
  have hclosing : r.Ignores closing := .of_apart (hr closing List.mem_cons_self)
  have hplain : ∀ {texts : List String}, (∀ text ∈ texts, PlainLine text) → r.readAll texts = [] :=
    fun h => Reader.readAll_eq_nil fun text htext => (h text htext).ignores
      (fun start hstart => hr start (List.mem_cons_of_mem _ (List.mem_cons_of_mem _ hstart))) hclosing
  have htry : r.Ignores "try \x7b" :=
    .of_start hr (by decide : "try \x7b" = "try " ++ "\x7b") (by decide)
  have hcatch : r.readAll [catching ++ (s.codes.invalidInput.exceptionName ++ " e) \x7b"),
      "throw new AssertionError(e);"] = [] := by
    -- A line that catches ends a block first, so it starts like a line that ends one.
    have hcatching : catching = closing ++ " catch (" := by decide
    have hassert : "throw new AssertionError(e);" = "throw new " ++ "AssertionError(e);" := by decide
    rw [hcatching, String.append_assoc]
    exact Reader.readAll_eq_nil (List.forall_mem_cons.2 ⟨.of_start hr rfl List.mem_cons_self,
      List.forall_mem_singleton.2 (.of_start hr hassert (by decide))⟩)
  unfold Reader.readWithin
  rw [f.textsWithin_java, Reader.readAll_append, hplain (plainLine_ranged f s), Reader.readAll_append,
    Reader.readAll_append, Reader.readAll_append, hplain (plainLine_outcome _ s),
    readAll_conclusion htry hclosing, hcatch, ite_self, List.append_nil, Reader.readAll_singleton]
  rfl

end

/-- What a method returns. -/
theorem returned_java (f : Function) (s : Setting) :
    javaReturns.readWithin ((f.javaMethod s).lines s) =
      javaReturns.readAll (f.javaMethod s).returnStatement?.toList := by
  rw [readWithin_java (by decide), Reader.readAll_eq_nil (ignores_javaRooms (by decide) f),
    ignores_javaCall (by decide) f]
  rfl

theorem component_nativeArg (hm : m.WellFormed) (hf : f ∈ m.functions) {a : Argument}
    (ha : a ∈ f.arguments) : Component a.nativeArg.expression := by
  have hname := component_name hm hf ha
  unfold Argument.nativeArg
  split
  · exact hname.append (by decide)
  · exact hname.append (by decide)
  · exact hname

/-- What is passed for an argument that is filled is its local array. -/
theorem nativeArg_filled {a : Argument} (h : a.isFilled = true) : a.nativeArg.expression = a.name := by
  have hpass : a.passing = .outBuffer := beq_iff_eq.1 h
  unfold Argument.nativeArg
  rw [hpass]
  rfl

theorem javaArrays_room (hm : m.WellFormed) (hf : f ∈ m.functions) {a : Argument} (ha : a ∈ f.filled) :
    javaArrays.read? (Function.javaRoom a).toList = some a.name := by
  exact read?_named (javaRoom_eq a) (known_filled hm hf ha).name (stops_append (by decide) _)

theorem nativeCalls_call (hm : m.WellFormed) (hf : f ∈ m.functions) :
    nativeCalls.read? f.javaCall.toList = some (f.arguments.map (·.nativeArg.expression)) := by
  rw [Reader.read?_behind (r := nativeCalls) (javaCall_eq f)]
  exact congrArg some (argumentsIn_append ((hm.named hf).wordy_nativeMethod.notMem (by decide))
    (by decide) (List.forall_mem_map.2 fun a ha => component_nativeArg hm hf ha))

/-- What an expression of a method decodes. -/
theorem javaDecoded?_delivery {d : Delivery} (htype : Wordy d.type.name.toList)
    (hslot : Wordy d.slot.toList) :
    javaDecoded? d.javaDecode.expression = some (d.type.shape.kind, d.type.javaValue, d.slot) := by
  unfold Delivery.javaDecode TypeDef.javaValue
  cases d.type.shape with
  | buffer size => exact javaDecoded?_buffer htype hslot
  | enum variants => exact javaDecoded?_enum htype hslot
  | scalar w =>
    cases w with
    | eight => exact javaDecoded?_scalar hslot (Or.inr rfl)
    | _ => exact javaDecoded?_scalar hslot (Or.inl rfl)

/-- It can stand between commas. -/
theorem component_delivery {d : Delivery} (htype : Wordy d.type.name.toList ∧ d.type.name ≠ "")
    (hslot : Wordy d.slot.toList) : Component d.javaDecode.expression := by
  have hfree : ',' ∉ (inParens d.slot).toList := by
    simp +decide only [inParens, String.toList_append, List.mem_append, or_false, false_or]
    exact hslot.notMem (by decide)
  have hword : ∀ {word : String}, Component word → Component (word ++ inParens d.slot) :=
    fun h => h.append hfree
  have hint : Component "ByteArray.decodeInt" := ⟨⟨'B', _, rfl, by decide⟩, by decide⟩
  have hlong : Component "ByteArray.decodeLong" := ⟨⟨'B', _, rfl, by decide⟩, by decide⟩
  unfold Delivery.javaDecode
  cases d.type.shape with
  | buffer size =>
    have hnew : Component "new " := ⟨⟨'n', _, rfl, by decide⟩, by decide⟩
    exact hword (hnew.append (htype.1.notMem (by decide)))
  | enum variants =>
    refine ((Component.of_wordy htype.1 htype.2).append (by decide)).append ?_ |>.append (by decide)
    exact hslot.notMem (by decide)
  | scalar w =>
    cases w with
    | eight => exact hword hlong
    | _ => exact hword hint

/-- What a method returns: nothing, the one value, or an object that is made of all. -/
theorem javaReturns_statement (f : Function) (s : Setting) :
    javaReturns.readAll (f.javaMethod s).returnStatement?.toList =
      if f.outputCount = 0 then []
      else if f.outputCount = 1 then f.filled.map (·.delivery.javaDecode.expression)
      else ["new " ++ f.resultClass ++
        inParens (commas (f.filled.map (·.delivery.javaDecode.expression)))] := by
  have hread : ∀ text : String, javaReturns.readAll ["return " ++ (text ++ ";")] = [text] := fun text => by
    have hvalue : javaReturns.read? ("return " ++ (text ++ ";")).toList = some text :=
      Reader.read?_statement rfl
    rw [Reader.readAll_singleton, hvalue]
    rfl
  have hdecoded : (f.javaMethod s).decoded = f.filled.map (·.delivery.javaDecode) := by
    show f.deliveries.map _ = _
    rw [f.deliveries_eq, List.map_map]
    rfl
  have hholder : (f.javaMethod s).holder = f.resultClass := rfl
  unfold JavaMethod.returnStatement?
  rw [f.outputCount_eq, hdecoded, hholder]
  cases f.filled with
  | nil => rfl
  | cons a as =>
    cases as with
    | nil =>
      show javaReturns.readAll ["return " ++ a.delivery.javaDecode.expression ++ ";"] = _
      rw [String.append_assoc, hread]
      rfl
    | cons b as =>
      have hnew : ∀ made : String, "return new " ++ f.resultClass ++ made ++ ";" =
          "return " ++ ("new " ++ f.resultClass ++ made ++ ";") := by
        have hword : "return new " = "return " ++ "new " := by decide
        intro made
        rw [hword]
        simp only [String.append_assoc]
      show javaReturns.readAll ["return new " ++ f.resultClass ++ inParens (commas
        (((a :: b :: as).map (·.delivery.javaDecode)).map (·.expression))) ++ ";"] = _
      rw [List.map_map, hnew, hread, if_neg (by simp), if_neg (by simp)]
      rfl

end

/-- `JavaHandsOut f ls` — the method passes for every argument that is filled a local array of its own,
and decodes each of these arrays once, in order and to the type of the argument.  It returns nothing, the
one value, or an object of the result class, and is declared to. -/
structure JavaHandsOut (f : Function) (ls : List Line) : Prop where
  counted : f.outputCount = f.filled.length
  arrays : javaArrays.readWithin ls = f.filled.map (·.name)
  distinct : (f.filled.map (·.name)).Nodup
  passed : ∃ args, nativeCalls.readWithin ls = [args] ∧
    List.Forall₂ (fun a text => a.isFilled = true → text = a.name) f.arguments args
  decoded : ((javaReturns.readWithin ls).flatMap javaComponents).map javaDecoded? =
    f.filled.map fun a => some (a.type.shape.kind, a.type.javaValue, a.name)
  nothing : f.outputCount = 0 → javaReturns.readWithin ls = [] ∧ javaReturnType ls = some "void"
  plain : ∀ a, f.filled = [a] → (javaReturns.readWithin ls).map javaHolder? = [none] ∧
    javaReturnType ls = some a.type.javaValue
  held : 2 ≤ f.outputCount → (javaReturns.readWithin ls).map javaHolder? = [some f.resultClass] ∧
    javaReturnType ls = some f.resultClass

section

variable {m : Model} {f : Function}

/-- The values that a method returns. -/
theorem javaComponents_returned (hm : m.WellFormed) (hf : f ∈ m.functions) (s : Setting) :
    (javaReturns.readAll (f.javaMethod s).returnStatement?.toList).flatMap javaComponents =
        f.filled.map (·.delivery.javaDecode.expression) ∧
      (javaReturns.readAll (f.javaMethod s).returnStatement?.toList).map javaHolder? =
        if f.outputCount = 0 then [] else if f.outputCount = 1 then [none] else [some f.resultClass] := by
  have hcomponents : ∀ a ∈ f.filled, Component a.delivery.javaDecode.expression := fun a ha =>
    component_delivery (hm.word_typeName (known_filled hm hf ha).type) (known_filled hm hf ha).name
  have hclass := wordy_resultClass hm hf
  rw [javaReturns_statement, f.outputCount_eq]
  cases hfilled : f.filled with
  | nil => exact ⟨rfl, rfl⟩
  | cons a as =>
    rw [hfilled] at hcomponents
    cases as with
    | nil =>
      have hfirst := hcomponents a List.mem_cons_self
      refine ⟨?_, ?_⟩
      · show javaComponents _ ++ [] = _
        rw [javaComponents_component hfirst]
        rfl
      · show [javaHolder? _] = _
        rw [javaHolder?_component hfirst]
        rfl
    | cons b as =>
      rw [if_neg (by simp), if_neg (by simp), if_neg (by simp), if_neg (by simp)]
      refine ⟨?_, ?_⟩
      · show javaComponents _ ++ [] = _
        rw [List.append_nil]
        exact javaComponents_several hclass (List.forall_mem_map.2 hcomponents)
      · show [javaHolder? _] = _
        rw [List.map_cons, List.map_cons, javaHolder?_several hclass]

theorem javaReturnType_eq (hm : m.WellFormed) (hf : f ∈ m.functions) (s : Setting) :
    javaReturnType ((f.javaMethod s).lines s) = some f.javaReturns := by
  have hread : "public static " ++ f.javaReturns ++ " " ++ f.name ++
      (inParens (commas (f.inputs.map fun p => p.type.javaValue ++ (" " ++ p.name))) ++
        ((f.javaMethod s).throwsClause ++ " " ++ opening)) =
      "public static " ++ (f.javaReturns ++ (" " ++ (f.name ++
        (inParens (commas (f.inputs.map fun p => p.type.javaValue ++ (" " ++ p.name))) ++
          ((f.javaMethod s).throwsClause ++ (" " ++ opening)))))) := by
    simp only [String.append_assoc]
  rw [javaReturnType, head_java]
  exact read?_named hread (wordy_javaReturns hm hf) (stops_append (by decide) _)

/-- What a method is declared to return. -/
theorem Function.javaReturns_eq (f : Function) :
    (f.outputCount = 0 → f.javaReturns = "void") ∧
      (∀ a, f.filled = [a] → f.javaReturns = a.type.javaValue) ∧
      (2 ≤ f.outputCount → f.javaReturns = f.resultClass) := by
  unfold Function.javaReturns
  rw [f.outputCount_eq, f.deliveries_eq]
  cases f.filled with
  | nil => exact ⟨fun _ => rfl, fun a h => absurd h (List.cons_ne_nil _ _).symm, fun h => absurd h (by simp)⟩
  | cons a as =>
    cases as with
    | nil =>
      refine ⟨fun h => absurd h (by simp), fun b h => ?_, fun h => absurd h (by simp)⟩
      obtain rfl := (List.cons.inj h).1
      rfl
    | cons b as =>
      refine ⟨fun h => absurd h (by simp), fun c h => ?_, fun _ => rfl⟩
      exact absurd (List.cons.inj h).2 (List.cons_ne_nil _ _)

theorem javaHandsOut (hm : m.WellFormed) (hf : f ∈ m.functions) (s : Setting) :
    JavaHandsOut f ((f.javaMethod s).lines s) := by
  have hreturned := returned_java f s
  obtain ⟨hcomponents, hholder⟩ := javaComponents_returned hm hf s
  obtain ⟨hvoid, hplain, hheld⟩ := f.javaReturns_eq
  constructor
  case counted => exact f.outputCount_eq
  case arrays =>
    rw [readWithin_java (by decide), Reader.readAll_map fun a ha => javaArrays_room hm hf ha,
      ignores_javaCall (by decide) f, Reader.readAll_eq_nil (ignores_javaReturn (by decide) f s)]
    exact List.append_nil _
  case distinct => exact (nodup_filled hm hf).1
  case passed =>
    refine ⟨f.arguments.map (·.nativeArg.expression), ?_, ?_⟩
    · rw [readWithin_java (by decide), Reader.readAll_eq_nil (ignores_javaRooms (by decide) f),
        nativeCalls_call hm hf, Reader.readAll_eq_nil (ignores_javaReturn (by decide) f s)]
      rfl
    · exact List.forall₂_map_right_iff.2 (List.forall₂_same.2 fun a _ h => nativeArg_filled h)
  case decoded =>
    rw [hreturned, hcomponents, List.map_map]
    refine List.map_congr_left fun a ha => ?_
    exact javaDecoded?_delivery (hm.word_typeName (known_filled hm hf ha).type).1
      (known_filled hm hf ha).name
  case nothing =>
    intro h
    rw [h] at hholder
    rw [hreturned, javaReturnType_eq hm hf, hvoid h]
    exact ⟨List.map_eq_nil_iff.1 hholder, rfl⟩
  case plain =>
    intro a h
    rw [f.outputCount_eq, h] at hholder
    rw [hreturned, javaReturnType_eq hm hf, hplain a h]
    exact ⟨hholder, rfl⟩
  case held =>
    intro h
    rw [if_neg (by omega), if_neg (by omega)] at hholder
    rw [hreturned, javaReturnType_eq hm hf, hheld h]
    exact ⟨hholder, rfl⟩

end

/-! ## Result classes -/

/-- `HoldsValues f ls` — the class has a field for every argument that is filled, under its label and with
its type; an object is made of as many values, in this order and of these types, and each of them is
assigned to the field that has its name. -/
structure HoldsValues (f : Function) (ls : List Line) : Prop where
  named : line ("public static final class " ++ f.resultClass ++ " " ++ opening) ∈ ls
  fields : javaFields.readAt 1 ls = f.filled.map fun a => (a.type.javaValue, a.label)
  takes : (javaConstructors f.resultClass).readAt 1 ls =
    [f.filled.map fun a => (a.type.javaValue, a.label)]
  assigns : javaAssignments.readAt 2 ls = f.filled.map fun a => (a.label, a.label)
  distinct : (f.filled.map (·.label)).Nodup

section

variable {m : Model} {f : Function}

theorem Function.resultFields_eq (f : Function) :
    f.resultFields = f.filled.map fun a => (a.type.javaValue, a.label) := by
  unfold Function.resultFields
  rw [f.deliveries_eq, List.map_map]
  rfl

/-- A type and a label of a result class. -/
theorem wordy_resultFields (hm : m.WellFormed) (hf : f ∈ m.functions) :
    ∀ x ∈ f.resultFields, (Wordy x.1.toList ∧ x.1 ≠ "") ∧ Wordy x.2.toList := by
  rw [f.resultFields_eq]
  exact List.forall_mem_map.2 fun a ha =>
    ⟨wordy_javaValue hm (known_filled hm hf ha).type, (wordy_label hm hf ha).1⟩

theorem javaFields_read {x : String × String} (htype : Wordy x.1.toList) :
    javaFields.read? (fieldHead ++ (x.1 ++ (" " ++ (x.2 ++ ";")))).toList = some x := by
  have hbehind : javaFields.read? (fieldHead ++ (x.1 ++ (" " ++ (x.2 ++ ";")))).toList =
      some (typedName (x.1 ++ (" " ++ (x.2 ++ ";"))).toList.dropLast) := Reader.read?_behind rfl
  have hlast : (x.1 ++ (" " ++ (x.2 ++ ";"))).toList = (x.1 ++ (" " ++ x.2)).toList ++ [';'] := by
    simp only [String.toList_append, List.append_assoc]
    rfl
  rw [hbehind, hlast, List.dropLast_concat, typedName_append (htype.notMem (by decide))]

/-- What makes an object, with the types and names of what it takes. -/
theorem javaConstructors_read {name : String} {fields : List (String × String)}
    (hfields : ∀ x ∈ fields, (Wordy x.1.toList ∧ x.1 ≠ "") ∧ Wordy x.2.toList) :
    (javaConstructors name).read?
        (name ++ ("(" ++ (commas (fields.map fun x => x.1 ++ (" " ++ x.2)) ++ (") " ++ opening)))).toList =
      some fields := by
  have hitems : ∀ t ∈ fields.map (fun x => x.1 ++ (" " ++ x.2)), ListItem t := by
    refine List.forall_mem_map.2 fun x hx => ?_
    obtain ⟨⟨htype, hne⟩, hname⟩ := hfields x hx
    have hfree : ∀ {c : Char}, c ≠ ' ' → isIdentifierChar c = false → c ∉ (" " ++ x.2).toList := by
      intro c hblank hc
      rw [String.toList_append, List.mem_append, not_or]
      exact ⟨fun hmem => hblank (List.mem_singleton.1 hmem), hname.notMem hc⟩
    exact (ListItem.of_wordy htype hne).append (hfree (by decide) (by decide))
      (hfree (by decide) (by decide))
  have hopen : ∀ c ∈ (commas (fields.map fun x => x.1 ++ (" " ++ x.2))).toList, (c != ')') = true :=
    fun c hc => bne_iff_ne.2 fun heq =>
      notMem_commas (by decide) (fun t ht => (hitems t ht).noClosing) (heq ▸ hc)
  have hread : (commas (fields.map fun x => x.1 ++ (" " ++ x.2)) ++ (") " ++ opening)).toList =
      (commas (fields.map fun x => x.1 ++ (" " ++ x.2))).toList ++ ')' :: (" " ++ opening).toList := by
    simp only [String.toList_append]
    rfl
  have htyped : (fields.map fun x => x.1 ++ (" " ++ x.2)).map (fun text => typedName text.toList) =
      fields := by
    rw [List.map_map]
    exact (List.map_congr_left fun x hx =>
      typedName_append ((hfields x hx).1.1.notMem (by decide))).trans (List.map_id _)
  rw [Reader.read?_behind (r := javaConstructors name) String.append_assoc.symm]
  show some ((itemsIn (List.takeWhile _ _)).map _) = _
  rw [hread, Text.takeWhile_append_stops hopen (Text.stops_cons.2 rfl), itemsIn_commas hitems, htyped]

theorem javaAssignments_read {name : String} (hname : Wordy name.toList) :
    javaAssignments.read? ("this." ++ name ++ " = " ++ name ++ ";").toList = some (name, name) := by
  have hread : "this." ++ name ++ " = " ++ name ++ ";" = javaAssignments.head ++
      (name ++ (" = " ++ (name ++ ";"))) := by
    simp only [String.append_assoc]
    rfl
  have hstops : Text.Stops isIdentifierChar (" = " ++ (name ++ ";")).toList :=
    stops_append (by decide) _
  have hbehind : (name ++ (" = " ++ (name ++ ";"))).toList =
      name.toList ++ (" = " ++ (name ++ ";")).toList := String.toList_append
  have hrest : ((" = " ++ (name ++ ";")).toList.drop 3).dropLast = name.toList := by
    have hlist : (" = " ++ (name ++ ";")).toList = " = ".toList ++ (name.toList ++ [';']) := by
      simp only [String.toList_append]
      rfl
    have hdrop : List.drop 3 (" = ".toList ++ (name.toList ++ [';'])) = name.toList ++ [';'] :=
      drop_word " = " _
    rw [hlist, hdrop, List.dropLast_concat]
  rw [Reader.read?_behind hread]
  show some (String.ofList (List.takeWhile _ _), String.ofList _) = _
  rw [hbehind, Text.takeWhile_append_stops hname hstops, Text.dropWhile_append_stops hname hstops, hrest,
    String.ofList_toList]

theorem holdsValues (hm : m.WellFormed) (hf : f ∈ m.functions) :
    HoldsValues f (resultClassLines f.resultClass f.resultFields) := by
  have hfields := wordy_resultFields hm hf
  have hclass := wordy_resultClass hm hf
  have hopen : (f.resultClass ++ "(").toList = f.resultClass.toList ++ '(' :: [] :=
    String.toList_append
  constructor
  case named => exact List.mem_append_left _ (line_mem_block _ _)
  case fields =>
    have hmake : ∀ rest, javaFields.Ignores (f.resultClass ++ ("(" ++ rest)) := fun rest =>
      .of_word (rfl : _ = "public".toList ++ ' ' :: _) (by simp only [String.toList_append]; rfl)
        (by decide) hclass (by decide) (by decide) (by decide : ' ' ≠ '(')
    unfold Reader.readAt
    rw [textsAt_resultClass, Reader.readAll_append, Reader.readAll_map fun x hx =>
      javaFields_read (hfields x hx).1.1, f.resultFields_eq]
    rw [Reader.readAll_eq_nil, List.append_nil, List.map_id']
    exact List.forall_mem_cons.2 ⟨by decide, List.forall_mem_cons.2 ⟨hmake _,
      List.forall_mem_singleton.2 (by decide)⟩⟩
  case takes =>
    have hempty : (javaConstructors f.resultClass).Ignores "" := Reader.read?_eq_none fun hp => by
      have hnil : (f.resultClass ++ "(").toList = [] := List.prefix_nil.1 hp
      rw [hopen] at hnil
      exact List.append_ne_nil_of_right_ne_nil _ (List.cons_ne_nil _ _) hnil
    have hclosing : (javaConstructors f.resultClass).Ignores closing :=
      .of_word hopen (rfl : _ = [] ++ '\x7d' :: _) hclass (by decide) (by decide) (by decide)
        (by decide)
    have hfield : ∀ x ∈ f.resultFields,
        (javaConstructors f.resultClass).Ignores (fieldHead ++ (x.1 ++ (" " ++ (x.2 ++ ";")))) :=
      fun x _ => .of_word hopen (String.toList_append : _ = "public".toList ++ ' ' :: _) hclass
        (by decide) (by decide) (by decide) (by decide)
    unfold Reader.readAt
    rw [textsAt_resultClass, Reader.readAll_append,
      Reader.readAll_eq_nil (List.forall_mem_map.2 hfield), Reader.readAll_cons, hempty,
      Reader.readAll_cons, javaConstructors_read hfields, Reader.readAll_singleton, hclosing,
      f.resultFields_eq]
    rfl
  case assigns =>
    have htexts : textsAt 2 (resultClassLines f.resultClass f.resultFields) =
        f.resultFields.map fun x => "this." ++ x.2 ++ " = " ++ x.2 ++ ";" := by
      unfold resultClassLines
      simp
    unfold Reader.readAt
    rw [htexts, Reader.readAll_map fun x hx => javaAssignments_read (hfields x hx).2,
      f.resultFields_eq, List.map_map]
    rfl
  case distinct => exact (nodup_filled hm hf).2

/-- A method is no class: behind its name there is a parenthesis. -/
theorem ignores_javaHead (hm : m.WellFormed) (hf : f ∈ m.functions) (rest : String) :
    javaHolders.Ignores ("public static " ++ (f.javaReturns ++ (" " ++ (f.name ++ ("(" ++ rest))))) := by
  have hname : Wordy f.name.toList := wordy_of_plain (hm.named hf).name
  have hhead : javaHolders.head.toList = "public static ".toList ++ "final class ".toList := rfl
  refine Reader.read?_eq_none fun hp => ?_
  rw [hhead, String.toList_append, List.prefix_append_right_inj] at hp
  obtain ⟨more, hmore⟩ := hp
  have hbehind : behindWord (f.javaReturns ++ (" " ++ (f.name ++ ("(" ++ rest)))) =
      (" " ++ (f.name ++ ("(" ++ rest))).toList :=
    behindWord_append (wordy_javaReturns hm hf) (stops_append (by decide) _)
  have hread : (" " ++ (f.name ++ ("(" ++ rest))).toList = ' ' :: (f.name.toList ++ '(' :: rest.toList) := by
    simp only [String.toList_append]
    rfl
  rw [behindWord, ← hmore, hread] at hbehind
  have hcut : "class".toList ++ ' ' :: more = f.name.toList ++ '(' :: rest.toList :=
    (List.cons.inj hbehind).2
  have hword : ∀ {w : List Char}, Wordy w → ∀ e ∈ w, (!isIdentifierChar e) = false := fun hw e he => by
    rw [hw e he]
    rfl
  have hsame : ' ' = '(' := (Text.append_cons_inj_of_first (hword (by decide)) (hword hname)
    (by decide) (by decide) hcut).2.1
  exact absurd hsame (by decide)

/-- The result classes in what a function adds to the class of its module. -/
theorem javaHolders_members (hm : m.WellFormed) (hf : f ∈ m.functions) (s : Setting) :
    javaHolders.readAt 0 (f.javaMembers s) = if 2 ≤ f.outputCount then [f.resultClass] else [] := by
  have hempty : javaHolders.Ignores "" := by decide
  have hclosing : javaHolders.Ignores closing := by decide
  have hgap : gap = line "" := rfl
  have hmethod : javaHolders.readAt 0 ((f.javaMethod s).lines s) = [] := by
    have hhead := head_java f s
    refine Reader.readAt_eq_nil ?_
    unfold JavaMethod.lines at hhead ⊢
    rw [hgap, textsAt_append, textsAt_block_zero] at hhead ⊢
    refine List.forall_mem_append.2 ⟨List.forall_mem_cons.2 ⟨?_, List.forall_mem_singleton.2 hclosing⟩,
      List.forall_mem_singleton.2 hempty⟩
    rw [List.cons_append, List.headD_cons] at hhead
    rw [hhead, inParens]
    simp only [String.append_assoc]
    exact ignores_javaHead hm hf _
  have hholder : javaHolders.readAt 0 (resultClassLines f.resultClass f.resultFields) =
      [f.resultClass] := by
    have hhead : "public static final class " ++ f.resultClass ++ " " ++ opening =
        "public static final class " ++ (f.resultClass ++ (" " ++ opening)) := by
      simp only [String.append_assoc]
    have hread : javaHolders.read? ("public static final class " ++ f.resultClass ++ " " ++
        opening).toList = some f.resultClass :=
      read?_named hhead (wordy_resultClass hm hf) (stops_append (by decide) _)
    unfold resultClassLines Reader.readAt
    rw [hgap, textsAt_append, textsAt_block_zero, List.cons_append, Reader.readAll_cons, hread]
    rfl
  unfold Function.javaMembers
  rw [Reader.readAt_append, hmethod, List.append_nil]
  by_cases h : 2 ≤ f.outputCount
  · rw [if_pos h, if_pos (show f.outputCount > 1 from h), hholder]
  · rw [if_neg h, if_neg (show ¬ f.outputCount > 1 from h)]
    rfl

end

/-- The result classes of a module. -/
theorem javaHolders_module {s : Setting} {m : Model} (hm : m.WellFormed) {module : Module}
    (hmodule : module ∈ m.modules) : javaHolders.readAt 1 (javaModuleLines s m module) =
      (module.functions.filter (2 ≤ ·.outputCount)).map (·.resultClass) := by
  have hbody : javaHolders.readAt 1 (javaModuleLines s m module) =
      javaHolders.readAt 0 (module.functions.flatMap fun f => f.javaMembers s) := by
    have hempty : javaHolders.Ignores "" := by decide
    have hmake : javaHolders.readAt 0 (block ("private " ++ moduleClass module.name ++ "()") []) = [] := by
      have hother : Apart javaHolders.head "private " := by decide
      unfold Reader.readAt
      rw [textsAt_block_zero]
      refine Reader.readAll_eq_nil (List.forall_mem_cons.2 ⟨?_, List.forall_mem_singleton.2 (by decide)⟩)
      simp only [String.append_assoc]
      exact .of_apart (hother.append _)
    have hgap : gap = line "" := rfl
    have hdeeper : javaHolders.readAt 1 (javaModuleLines s m module) = javaHolders.readAt 0
        (gap :: block ("private " ++ moduleClass module.name ++ "()") [] ++
          gap :: module.functions.flatMap fun f => f.javaMembers s) := by
      unfold javaModuleLines
      simp [Reader.readAt]
    rw [hdeeper, Reader.readAt_append, hgap, Reader.readAt_line, hempty, hmake, Reader.readAt_line, hempty]
    rfl
  rw [hbody, Reader.readAt_flatMap]
  have hmembers : ∀ f ∈ module.functions, javaHolders.readAt 0 (f.javaMembers s) =
      if 2 ≤ f.outputCount then [f.resultClass] else [] := fun f hf =>
    javaHolders_members hm (Model.mem_functions.2 ⟨module, hmodule, hf⟩) s
  rw [List.flatMap_congr hmembers]
  generalize module.functions = fs
  induction fs with
  | nil => rfl
  | cons f fs ih =>
    rw [List.flatMap_cons, ih, List.filter_cons]
    by_cases h : 2 ≤ f.outputCount
    · rw [if_pos h, if_pos (decide_eq_true h)]
      rfl
    · rw [if_neg h, if_neg (by simpa using h)]
      rfl

/-- No two functions of a module have one result class. -/
theorem nodup_resultClasses {m : Model} (hm : m.WellFormed) {module : Module}
    (hmodule : module ∈ m.modules) : (module.functions.map (·.resultClass)).Nodup :=
  List.pairwise_map.2 ((hm.modules module hmodule).distinct.imp_of_mem fun hf hg hne heq =>
    hne (Function.name_of_resultClass
      (hm.spelledFunction (Model.mem_functions.2 ⟨module, hmodule, hf⟩))
      (hm.spelledFunction (Model.mem_functions.2 ⟨module, hmodule, hg⟩)) heq))

/-! ## Swift functions -/

/-- What the other lines of a Swift function start with. -/
def swiftStarts : List String := ["try ", "precondition("]

theorem swiftRoom_eq (a : Argument) : Function.swiftRoom a = "var " ++ (a.name ++
    (" = [UInt8](repeating: 0, count: " ++ (a.type.size.spell classSize ++ ")"))) := by
  unfold Function.swiftRoom
  simp only [String.append_assoc]

theorem swiftCall_eq (f : Function) : f.swiftCall = "let ffiResult = " ++ (f.coreSymbol ++
    (inParens (commas (f.swift.passed.map (·.expression))) ++ "")) := by
  unfold Function.swiftCall
  rw [String.append_empty, String.append_assoc]

section

variable {m : Model} {f : Function}

section

variable {β : Type} {r : Reader β}

theorem ignores_swiftRooms (h : Apart r.head "var ") (f : Function) :
    ∀ text ∈ f.filled.map Function.swiftRoom, r.Ignores text :=
  List.forall_mem_map.2 fun a _ => by
    rw [swiftRoom_eq]
    exact .of_apart (h.append _)

theorem ignores_swiftCall (h : Apart r.head "let ffiResult = ") (f : Function) :
    r.Ignores f.swiftCall := by
  rw [swiftCall_eq]
  exact .of_apart (h.append _)

theorem ignores_swiftReturn (h : Apart r.head "return ") (f : Function) :
    ∀ text ∈ f.swift.returnStatement?.toList, r.Ignores text := by
  intro text htext
  obtain ⟨rest, rfl⟩ := swiftReturn_start (Option.mem_toList.1 htext)
  exact .of_apart (h.append _)

/-- What is read off a Swift function by a reader that takes none of the other lines for its own. -/
theorem readWithin_swift (hr : ∀ start ∈ swiftStarts, Apart r.head start)
    (f : Function) (s : Setting) : r.readWithin (f.swift.lines s) =
      r.readAll (f.filled.map Function.swiftRoom) ++ ((r.read? f.swiftCall.toList).toList ++
        r.readAll f.swift.returnStatement?.toList) := by
  have houtcome : r.readAll [f.swift.outcome s] = [] := by
    refine Reader.readAll_eq_nil (List.forall_mem_singleton.2 ?_)
    unfold SwiftFunction.outcome
    split
    · rw [String.append_assoc]
      exact .of_start hr rfl (by decide : "try " ∈ _)
    · have hread : "precondition(ffiResult == " = "precondition(" ++ "ffiResult == " := by decide
      rw [hread]
      simp only [String.append_assoc]
      exact .of_start hr rfl (by decide : "precondition(" ∈ _)
  unfold Reader.readWithin
  rw [f.textsWithin_swift, Reader.readAll_append, Reader.readAll_append, Reader.readAll_append, houtcome,
    Reader.readAll_singleton]
  rfl

end

/-- What a Swift function returns. -/
theorem returned_swift (f : Function) (s : Setting) : swiftReturns.readWithin (f.swift.lines s) =
    swiftReturns.readAll f.swift.returnStatement?.toList := by
  rw [readWithin_swift (by decide), Reader.readAll_eq_nil (ignores_swiftRooms (by decide) f),
    ignores_swiftCall (by decide) f]
  rfl

theorem swiftArrays_room (hm : m.WellFormed) (hf : f ∈ m.functions) {a : Argument} (ha : a ∈ f.filled) :
    swiftArrays.read? (Function.swiftRoom a).toList = some a.name := by
  exact read?_named (swiftRoom_eq a) (known_filled hm hf ha).name (stops_append (by decide) _)

theorem component_swiftArgs (hm : m.WellFormed) (hf : f ∈ m.functions) {a : Argument}
    (ha : a ∈ f.arguments) : ∀ x ∈ a.swiftArgs, Component x.expression := by
  have hname := component_name hm hf ha
  have hcontents : ',' ∉ (a.name ++ ".contents.count").toList := (hname.append (by decide)).noComma
  have hlength : ',' ∉ (a.type.size.spell classSize).toList :=
    (hm.tight_classSize (hm.known hf ha).type).notMem (by decide) (by decide) (by decide)
  have hcount : ∀ text : String, ',' ∉ text.toList → Component ("UInt32" ++ inParens text) := by
    intro text htext
    have hword : Component "UInt32" := ⟨⟨'U', _, rfl, by decide⟩, by decide⟩
    refine hword.append ?_
    simp +decide only [inParens, String.toList_append, List.mem_append, htext, or_self,
      not_false_eq_true]
  have hfilled : Component ("&" ++ a.name) :=
    Component.append ⟨⟨'&', _, rfl, by decide⟩, by decide⟩ hname.noComma
  unfold Argument.swiftArgs
  split
  · exact List.forall_mem_cons.2 ⟨hname.append (by decide),
      List.forall_mem_singleton.2 (hcount _ hcontents)⟩
  · exact List.forall_mem_cons.2 ⟨hfilled, List.forall_mem_singleton.2 (hcount _ hlength)⟩
  · exact List.forall_mem_singleton.2 (hname.append (by decide))
  · exact List.forall_mem_singleton.2 hname

/-- What is passed for the pointer to what is filled is its local array. -/
theorem forall₂_swiftArgs (a : Argument) : List.Forall₂
    (fun slot text => slot.kind = .outPointer → text = "&" ++ slot.name) a.slots
    (a.swiftArgs.map (·.expression)) := by
  unfold Argument.slots Argument.swiftArgs
  cases a.passing with
  | inBuffer => exact .cons (fun h => absurd h (by simp)) (.cons (fun h => absurd h (by simp)) .nil)
  | outBuffer => exact .cons (fun _ => rfl) (.cons (fun h => absurd h (by simp)) .nil)
  | inValue w => cases a.type.shape <;> exact .cons (fun h => absurd h (by simp)) .nil

theorem exportCalls_call (hm : m.WellFormed) (hf : f ∈ m.functions) :
    exportCalls.read? f.swiftCall.toList = some (f.swift.passed.map (·.expression)) := by
  rw [Reader.read?_behind (r := exportCalls) (swiftCall_eq f)]
  refine congrArg some (argumentsIn_append ((hm.named hf).wordy_coreSymbol.notMem (by decide))
    (by decide) (List.forall_mem_map.2 fun x hx => ?_))
  obtain ⟨a, ha, hx⟩ := List.mem_flatMap.1 hx
  exact component_swiftArgs hm hf ha x hx

/-- What an expression of a Swift function decodes. -/
theorem swiftDecoded?_delivery {d : Delivery} {attempt : String} (hattempt : attempt ∈ ["try", "try!"])
    (htype : Wordy d.type.name.toList) (hslot : Wordy d.slot.toList)
    (hfree : d.type.name ≠ "decodeEnum" ∧ d.type.name ≠ "decodeScalar") :
    swiftDecoded? (d.swiftDecode.expression attempt) =
      some (d.type.shape.kind, d.type.swiftValue, d.slot) := by
  have hblank : attempt ++ " " ∈ attempts :=
    (by decide : ∀ a ∈ ["try", "try!"], a ++ " " ∈ attempts) attempt hattempt
  unfold Delivery.swiftDecode TypeDef.swiftValue
  cases d.type.shape with
  | buffer size =>
    have hread : attempt ++ " " ++ d.type.name ++ "(contents: " ++ d.slot ++ ")" =
        (attempt ++ " ") ++ (d.type.name ++ "(contents: " ++ d.slot ++ ")") := by
      simp only [String.append_assoc]
    show swiftDecoded? (attempt ++ " " ++ d.type.name ++ "(contents: " ++ d.slot ++ ")") = _
    rw [hread, swiftDecoded?_buffer hblank htype hslot hfree]
    rfl
  | enum variants =>
    have hread : attempt ++ " decodeEnum" ++ inParens d.slot ++ " as " ++ d.type.name =
        (attempt ++ " ") ++ ("decodeEnum" ++ inParens d.slot ++ " as " ++ d.type.name) := by
      have hcallee : " decodeEnum" = " " ++ "decodeEnum" := by decide
      rw [hcallee]
      simp only [String.append_assoc]
    show swiftDecoded? (attempt ++ " decodeEnum" ++ inParens d.slot ++ " as " ++ d.type.name) = _
    rw [hread, swiftDecoded?_generic hblank hslot (Or.inl rfl)]
    rfl
  | scalar w =>
    have hplain : swiftDecoded? ("" ++ ("decodeScalar" ++ inParens d.slot ++ " as " ++ w.swift)) =
        some (.scalar, w.swift, d.slot) := swiftDecoded?_generic (by decide) hslot (Or.inr rfl)
    rw [String.empty_append] at hplain
    exact hplain

/-- It starts with a word, and it can stand between commas. -/
theorem component_swiftDecode {d : Delivery} {attempt : String} (hattempt : attempt ∈ ["try", "try!"])
    (htype : Wordy d.type.name.toList) (hslot : Wordy d.slot.toList) :
    Component (d.swiftDecode.expression attempt) ∧
      ¬ "(".toList <+: (d.swiftDecode.expression attempt).toList := by
  have hcomma : ',' ∉ d.slot.toList := hslot.notMem (by decide)
  have hname : ',' ∉ d.type.name.toList := htype.notMem (by decide)
  have hcall : ',' ∉ (inParens d.slot).toList := by
    simp +decide only [inParens, String.toList_append, List.mem_append, hcomma, or_self,
      not_false_eq_true]
  -- Whatever comes behind the first word, the text starts with this word.
  have hword : ∀ word ∈ ["try", "try!", "decodeScalar"], ∀ rest : String, ',' ∉ rest.toList →
      Component (word ++ rest) ∧ ¬ "(".toList <+: (word ++ rest).toList := by
    intro word hmem rest hrest
    have hopen := (by decide : ∀ w ∈ ["try", "try!", "decodeScalar"], Apart "(" w) word hmem
    refine ⟨Component.append ?_ hrest, (hopen.append rest).1⟩
    simp only [List.mem_cons, List.not_mem_nil, or_false] at hmem
    rcases hmem with rfl | rfl | rfl
    · exact ⟨⟨'t', _, rfl, by decide⟩, by decide⟩
    · exact ⟨⟨'t', _, rfl, by decide⟩, by decide⟩
    · exact ⟨⟨'d', _, rfl, by decide⟩, by decide⟩
  have hmem : attempt ∈ ["try", "try!", "decodeScalar"] :=
    (by decide : ∀ a ∈ ["try", "try!"], a ∈ ["try", "try!", "decodeScalar"]) attempt hattempt
  unfold Delivery.swiftDecode
  cases d.type.shape with
  | buffer size =>
    simp only [SwiftDecode.expression, String.append_assoc]
    refine hword attempt hmem _ ?_
    simp +decide only [String.toList_append, List.mem_append, hname, hcomma, or_self, not_false_eq_true]
  | enum variants =>
    simp only [SwiftDecode.expression, String.append_assoc]
    refine hword attempt hmem _ ?_
    simp +decide only [String.toList_append, List.mem_append, hname, hcall, or_self, not_false_eq_true]
  | scalar w =>
    have hnumber : ',' ∉ w.swift.toList := by cases w <;> decide
    simp only [SwiftDecode.expression, String.append_assoc]
    refine hword "decodeScalar" (by decide) _ ?_
    simp +decide only [String.toList_append, List.mem_append, hnumber, hcall, or_self,
      not_false_eq_true]

/-- How a function meets a failure to decode. -/
def Function.attempt (f : Function) : String := if f.fallible then "try" else "try!"

theorem attempt_mem (f : Function) : f.attempt ∈ ["try", "try!"] := by
  unfold Function.attempt
  split <;> decide

/-- A value as it is handed out in Swift: its label, and what decodes it. -/
def Argument.swiftPair (a : Argument) (attempt : String) : String × String :=
  (a.label, a.delivery.swiftDecode.expression attempt)

/-- What a Swift function returns: nothing, the one value, or a tuple of all. -/
theorem swiftReturns_statement (f : Function) :
    swiftReturns.readAll f.swift.returnStatement?.toList =
      if f.outputCount = 0 then []
      else if f.outputCount = 1 then f.filled.map fun a => (a.swiftPair f.attempt).2
      else [inParens (commas ((f.filled.map (·.swiftPair f.attempt)).map fun x =>
        x.1 ++ (": " ++ x.2)))] := by
  have hread : ∀ text : String, swiftReturns.readAll ["return " ++ text] = [text] := by
    intro text
    have hbehind : swiftReturns.read? ("return " ++ text).toList = some (String.ofList text.toList) :=
      Reader.read?_behind rfl
    rw [Reader.readAll_singleton, hbehind, String.ofList_toList]
    rfl
  have hdecoded : f.swift.decoded = f.filled.map (·.delivery.swiftDecode) := by
    show f.deliveries.map _ = _
    rw [f.deliveries_eq, List.map_map]
    rfl
  have hreturns : f.swift.returns = f.filled.map fun a => (a.label, a.type.swiftValue) := by
    show f.deliveries.map _ = _
    rw [f.deliveries_eq, List.map_map]
    rfl
  have hfallible : f.swift.fallible = f.fallible := rfl
  have hpairs : ∀ as : List Argument, ((as.map fun a => (a.label, a.type.swiftValue)).zip
      (as.map (·.delivery.swiftDecode))).map (fun x => x.1.1 ++ ": " ++ x.2.expression f.attempt) =
        (as.map (·.swiftPair f.attempt)).map fun x => x.1 ++ (": " ++ x.2) := fun as => by
    rw [List.zip_map', List.map_map, List.map_map]
    exact List.map_congr_left fun a _ => String.append_assoc
  unfold SwiftFunction.returnStatement?
  rw [f.outputCount_eq, hdecoded, hreturns, hfallible]
  cases f.filled with
  | nil => rfl
  | cons a as =>
    cases as with
    | nil => exact hread _
    | cons b as =>
      have hzero : (a :: b :: as).length ≠ 0 := by simp
      have hone : (a :: b :: as).length ≠ 1 := by simp
      rw [if_neg hzero, if_neg hone, ← hpairs]
      exact hread _

end

/-- `SwiftHandsOut f ls` — the function passes for every pointer to something that is filled a local array
of its own, and decodes each of these arrays once, in order and to the type of the argument.  It returns
nothing, the one value, or a tuple with labels, and is declared to. -/
structure SwiftHandsOut (f : Function) (ls : List Line) : Prop where
  counted : f.outputCount = f.filled.length
  arrays : swiftArrays.readWithin ls = f.filled.map (·.name)
  distinct : (f.filled.map (·.name)).Nodup ∧ (f.filled.map (·.label)).Nodup
  passed : ∃ args, exportCalls.readWithin ls = [args] ∧
    List.Forall₂ (fun slot text => slot.kind = .outPointer → text = "&" ++ slot.name) f.slots args
  statements : (swiftReturns.readWithin ls).length = if f.outputCount = 0 then 0 else 1
  decoded : ((swiftReturns.readWithin ls).flatMap swiftComponents).map
      (fun x => (x.1, swiftDecoded? x.2)) =
    f.handed.map fun x => (x.1, some (x.2.type.shape.kind, x.2.type.swiftValue, x.2.name))
  declared : swiftReturnTypes ls = f.handed.map fun x => (x.1, x.2.type.swiftValue)

section

variable {m : Model} {f : Function}

/-- The values that a Swift function returns, with their labels. -/
theorem swiftComponents_returned (hm : m.WellFormed) (hf : f ∈ m.functions) :
    (swiftReturns.readAll f.swift.returnStatement?.toList).flatMap swiftComponents =
      f.handed.map fun x => (x.1, (x.2.swiftPair f.attempt).2) := by
  have hdecode : ∀ a ∈ f.filled, Component (a.swiftPair f.attempt).2 ∧
      ¬ "(".toList <+: (a.swiftPair f.attempt).2.toList := fun a ha =>
    component_swiftDecode (attempt_mem f) (hm.word_typeName (known_filled hm hf ha).type).1
      (known_filled hm hf ha).name
  have hlabel : ∀ a ∈ f.filled, Wordy a.label.toList ∧
      Component (a.label ++ (": " ++ (a.swiftPair f.attempt).2)) := fun a ha => by
    obtain ⟨hword, hne⟩ := wordy_label hm hf ha
    refine ⟨hword, (Component.of_wordy hword hne).append ?_⟩
    rw [String.toList_append, List.mem_append, not_or]
    exact ⟨by decide, (hdecode a ha).1.noComma⟩
  rw [swiftReturns_statement, Function.handed, f.outputCount_eq]
  cases hfilled : f.filled with
  | nil => rfl
  | cons a as =>
    rw [hfilled] at hdecode hlabel
    cases as with
    | nil =>
      show swiftComponents _ ++ [] = _
      rw [swiftComponents_plain (hdecode a List.mem_cons_self).2]
      rfl
    | cons b as =>
      have hseveral : 2 ≤ (a :: b :: as).length := by simp
      rw [if_neg (by simp), if_neg (by simp)]
      simp only [if_pos hseveral]
      show swiftComponents _ ++ [] = _
      rw [List.append_nil, swiftComponents_tuple (List.forall_mem_map.2 hlabel), List.map_map,
        List.map_map]
      rfl

/-- What a Swift function is declared to return. -/
theorem swiftReturnTypes_eq (hm : m.WellFormed) (hf : f ∈ m.functions) (s : Setting) :
    swiftReturnTypes (f.swift.lines s) = f.handed.map fun x => (x.1, x.2.type.swiftValue) := by
  have hclosed : ')' ∉ ("public static func " ++ f.name).toList := by
    rw [String.toList_append, List.mem_append, not_or]
    exact ⟨by decide, (wordy_of_plain (hm.named hf).name).notMem (by decide)⟩
  have hthrows : '>' ∉ (if f.fallible then " throws" else "").toList := by
    split <;> decide
  have hreturns : f.swift.returns = f.filled.map fun a => (a.label, a.type.swiftValue) := by
    show f.deliveries.map _ = _
    rw [f.deliveries_eq, List.map_map]
    rfl
  have htype : ∀ a ∈ f.filled, Wordy a.type.swiftValue.toList := fun a ha =>
    wordy_swiftValue hm (known_filled hm hf ha).type
  have hlabel : ∀ a ∈ f.filled, Wordy a.label.toList ∧
      ListItem (a.label ++ (": " ++ a.type.swiftValue)) := fun a ha => by
    obtain ⟨hword, hne⟩ := wordy_label hm hf ha
    have hfree : ∀ {c : Char}, c ∉ ": ".toList → isIdentifierChar c = false →
        c ∉ (": " ++ a.type.swiftValue).toList := by
      intro c hcolon hc
      rw [String.toList_append, List.mem_append, not_or]
      exact ⟨hcolon, (htype a ha).notMem hc⟩
    exact ⟨hword, (ListItem.of_wordy hword hne).append (hfree (by decide) (by decide))
      (hfree (by decide) (by decide))⟩
  rw [swiftReturnTypes, head_swift, behindParens_append hclosed (listItem_swift hm hf),
    SwiftFunction.returnClause, hreturns, Function.handed, f.outputCount_eq]
  cases hfilled : f.filled with
  | nil =>
    refine returnTypesIn_nothing ?_
    simp +decide only [List.map_nil, String.toList_append, List.mem_append, hthrows, or_self,
      not_false_eq_true]
  | cons a as =>
    rw [hfilled] at htype hlabel
    cases as with
    | nil =>
      have hone : (if f.fallible then " throws" else "") ++ (" -> " ++ a.type.swiftValue) ++ " " ++
          opening = (if f.fallible then " throws" else "") ++ (" -> " ++ (a.type.swiftValue ++
            (" " ++ opening))) := by
        simp only [String.append_assoc]
      show returnTypesIn ((if f.fallible then " throws" else "") ++ (" -> " ++ a.type.swiftValue) ++
        " " ++ opening) = _
      rw [hone, returnTypesIn_plain hthrows (htype a List.mem_cons_self) (by decide) (by decide)
        (by decide)]
      rfl
    | cons b as =>
      have hseveral : 2 ≤ (a :: b :: as).length := by simp
      have htuple : (if f.fallible then " throws" else "") ++ (" -> " ++ inParens (commas
          (((a :: b :: as).map fun a => (a.label, a.type.swiftValue)).map fun r =>
            r.1 ++ ": " ++ r.2))) ++ " " ++ opening =
          (if f.fallible then " throws" else "") ++ (" -> " ++ (inParens (commas
            (((a :: b :: as).map fun a => (a.label, a.type.swiftValue)).map fun r =>
              r.1 ++ (": " ++ r.2))) ++ (" " ++ opening))) := by
        simp only [String.append_assoc]
      show returnTypesIn ((if f.fallible then " throws" else "") ++ (" -> " ++ inParens (commas
        (((a :: b :: as).map fun a => (a.label, a.type.swiftValue)).map fun r =>
          r.1 ++ ": " ++ r.2))) ++ " " ++ opening) = _
      simp only [if_pos hseveral]
      rw [htuple, returnTypesIn_tuple hthrows (List.forall_mem_map.2 hlabel), List.map_map, List.map_map]
      rfl

theorem swiftHandsOut (hm : m.WellFormed) (hf : f ∈ m.functions) (s : Setting) :
    SwiftHandsOut f (f.swift.lines s) := by
  have hreturned := returned_swift f s
  constructor
  case counted => exact f.outputCount_eq
  case arrays =>
    rw [readWithin_swift (by decide), Reader.readAll_map fun a ha => swiftArrays_room hm hf ha,
      ignores_swiftCall (by decide) f, Reader.readAll_eq_nil (ignores_swiftReturn (by decide) f)]
    exact List.append_nil _
  case distinct => exact nodup_filled hm hf
  case passed =>
    have hpassed : f.swift.passed.map (·.expression) =
        f.arguments.flatMap fun a => a.swiftArgs.map (·.expression) := List.map_flatMap
    refine ⟨f.swift.passed.map (·.expression), ?_, ?_⟩
    · rw [readWithin_swift (by decide), Reader.readAll_eq_nil (ignores_swiftRooms (by decide) f),
        exportCalls_call hm hf, Reader.readAll_eq_nil (ignores_swiftReturn (by decide) f)]
      rfl
    · rw [hpassed]
      exact forall₂_flatMap fun a _ => forall₂_swiftArgs a
  case statements =>
    rw [hreturned, swiftReturns_statement]
    by_cases hzero : f.outputCount = 0
    · rw [if_pos hzero, if_pos hzero]
      rfl
    · rw [if_neg hzero, if_neg hzero]
      by_cases hone : f.outputCount = 1
      · rw [if_pos hone, List.length_map, ← f.outputCount_eq, hone]
      · rw [if_neg hone]
        rfl
  case decoded =>
    rw [hreturned, swiftComponents_returned hm hf, List.map_map]
    refine List.map_congr_left fun x hx => ?_
    obtain ⟨a, ha, rfl⟩ := List.mem_map.1 hx
    have hknown := known_filled hm hf ha
    have hname : isTypeName a.type.name = true := (hm.types.each _ hknown.type).named.1
    have hfree : a.type.name ≠ "decodeEnum" ∧ a.type.name ≠ "decodeScalar" := by
      constructor
      all_goals
        intro heq
        rw [heq] at hname
        exact absurd hname (by decide)
    exact congrArg (Prod.mk _) (swiftDecoded?_delivery (attempt_mem f) (hm.word_typeName hknown.type).1
      hknown.name hfree)
  case declared => exact swiftReturnTypes_eq hm hf s

end

/-! ## The wrappers of a description -/

/-- `HandsOut s m jvm swift` — the files of the two targets have the wrappers of every function, and these
hand out what the call fills; a module has result classes for those of its functions that fill at least two
arguments, and for no others. -/
structure HandsOut (s : Setting) (m : Model) (jvm swift : List Source.File) : Prop where
  java : ∀ module ∈ m.modules, ∃ body, Emitted jvm s (javaModulePath module.name) body ∧
    javaHolders.readAt 1 body = (module.functions.filter (2 ≤ ·.outputCount)).map (·.resultClass) ∧
    (module.functions.map (·.resultClass)).Nodup ∧
    ∀ f ∈ module.functions, indent ((f.javaMethod s).lines s) <:+: body ∧
      JavaHandsOut f ((f.javaMethod s).lines s) ∧
      (2 ≤ f.outputCount → ∃ holder, indent holder <:+: body ∧ HoldsValues f holder)
  swift : ∀ module ∈ m.modules, ∃ body,
    Emitted swift s ("swift/" ++ moduleClass module.name ++ ".swift") body ∧
    ∀ f ∈ module.functions, indent (f.swift.lines s) <:+: body ∧ SwiftHandsOut f (f.swift.lines s)

/-- **Every output is handed out once**, whatever the API: in what is generated from an accepted
description, the wrappers of both sides return the values that a call fills, in their order, each decoded
from its own array. -/
theorem outputs_handed_out {es : List (Value × Value)} {m : Model} {o : Options} {t : ErrorTable}
    {jvm swift : List Source.File} (hm : Model.ofDescription es = .ok m)
    (hjvm : Target.jvm.emit m o t = .ok jvm) (hswift : Target.swift.emit m o t = .ok swift) :
    ∃ s : Setting, s.For o t ∧ HandsOut s m jvm swift := by
  obtain ⟨s, hs, library, rfl⟩ := emit_jvm hjvm
  obtain ⟨s', hs', rfl⟩ := emit_swift hswift
  obtain rfl := hs.unique hs'
  have hw : m.WellFormed := (ofDescription_eq_ok.1 hm).2
  have hfunction : ∀ {module : Module}, module ∈ m.modules → ∀ {f : Function}, f ∈ module.functions →
      f ∈ m.functions := fun hmodule _ hf => Model.mem_functions.2 ⟨_, hmodule, hf⟩
  refine ⟨s, hs, ?java, ?swift⟩
  case java =>
    intro module h
    refine ⟨_, emitted_javaModuleFile hw library h, javaHolders_module hw h, nodup_resultClasses hw h, ?_⟩
    intro f hf
    have hlines : indent ((f.javaMethod s).lines s) <:+: javaModuleLines s m module := javaMethod_infix hf
    exact ⟨hlines, javaHandsOut hw (hfunction h hf) s,
      fun hcount => ⟨_, resultClass_infix hf hcount, holdsValues hw (hfunction h hf)⟩⟩
  case swift =>
    intro module h
    refine ⟨_, emitted_swiftModuleFile hw.spelled hw.distinct h, fun f hf => ?_⟩
    have hlines := swift_infix (s := s) hf
    exact ⟨hlines, swiftHandsOut hw (hfunction h hf) s⟩

theorem outputs_handed_out_echo : ∃ m jvm swift s, Model.ofDescription echoEntries = .ok m ∧
    (m.functions.map fun f => (f.resultClass, f.filled.map fun a => (a.name, a.label))) =
      [("ValueResult", [("tag", "tag"), ("out", "result")])] ∧
    HandsOut s m jvm swift := by
  obtain ⟨jvm, hjvm⟩ : ∃ fs, Target.jvm.emit echoModel .standard .standard = .ok fs :=
    exists_eq_ok (by decide +kernel)
  obtain ⟨swift, hswift⟩ : ∃ fs, Target.swift.emit echoModel .standard .standard = .ok fs :=
    exists_eq_ok (by decide +kernel)
  obtain ⟨s, _, hhands⟩ := outputs_handed_out ofDescription_echo hjvm hswift
  exact ⟨_, jvm, swift, s, ofDescription_echo, by decide +kernel, hhands⟩

end Bindery
