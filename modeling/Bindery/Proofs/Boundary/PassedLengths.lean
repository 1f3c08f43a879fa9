/-
  LENGTHS THAT ARE PASSED, read off the lines of the wrappers.

  A Java method passes arrays, which know how long they are.  An array is the contents of a value, and
  there are as many as the class of the value says; or it is a local array, and the line that makes it
  states the length.  A Swift function passes the length beside the bytes, in the width of the slot: it
  counts the contents of a value, or writes down the size.

  So the text that is passed for a slot leads to a length that is stated somewhere, through the
  parameters that the method declares or through its local arrays (`javaLength?`, `swiftLength?`).  That
  length is the size of the type of the slot, argument by argument and slot by slot.
-/
import Bindery.Proofs.Boundary.WrapperMeasures
import Bindery.Proofs.Boundary.Crossing

namespace Bindery

open Naming Source

/-! ## Lengths behind a text -/

/-- The local arrays of a Java method with the lengths that they are made with. -/
def javaRooms : Reader (String × String) := .bounded "byte[] " " = new byte[" ']'

/-- The local arrays of a Swift function with the lengths that they are made with. -/
def swiftRooms : Reader (String × String) := .bounded "var " " = [UInt8](repeating: 0, count: " ')'

/-- The parameters of a Java method with their types. -/
def javaParameters (ls : List Line) : List (String × String) :=
  (signatureOf ls).map fun text => (typedName text.toList).swap

/-- The parameters of a Swift function with their types. -/
def swiftParameters (ls : List Line) : List (String × String) :=
  (signatureOf ls).filterMap fun text => (labelled? text).bind fun x => x.1.map fun name => (name, x.2)

/-- The length of the array that a Java method passes in the text. -/
def javaLength? (ls : List Line) (text : String) : Option String :=
  if behindWord text = ".getInternalContentsForJNI()".toList then
    ((javaParameters ls).lookup (firstWord text)).map classSize
  else (javaRooms.readWithin ls).lookup text

/-- The type that a text converts to, and what it converts. -/
def converted? (text : String) : Option (String × String) :=
  if "(".toList <+: behindWord text then
    some (firstWord text, String.ofList (inOuterParens text.toList))
  else none

/-- The length that is meant by what a Swift function converts. -/
def meant? (ls : List Line) (converted : Option (String × String)) : Option String :=
  converted.bind fun x =>
    if behindWord x.2 = ".contents.count".toList then
      ((swiftParameters ls).lookup (firstWord x.2)).map classSize
    else some x.2

/-- The length that a Swift function passes in the text. -/
def swiftLength? (ls : List Line) (text : String) : Option String := meant? ls (converted? text)

section

variable {ls : List Line} {name text : String}

/-- The contents of a value. -/
theorem javaLength?_contents (hname : Wordy name.toList) :
    javaLength? ls (name ++ ".getInternalContentsForJNI()") =
      ((javaParameters ls).lookup name).map classSize := by
  rw [javaLength?, behindWord_append hname (by decide), firstWord_append hname (by decide)]
  exact if_pos rfl

theorem javaLength?_other (h : behindWord text ≠ ".getInternalContentsForJNI()".toList) :
    javaLength? ls text = (javaRooms.readWithin ls).lookup text := if_neg h

theorem converted?_append {type : String} (htype : Wordy type.toList) :
    converted? (type ++ inParens text) = some (type, text) := by
  have hread : type ++ inParens text = type ++ ("(" ++ (text ++ ")")) := by
    simp only [inParens, String.append_assoc]
  have hlist : (type ++ ("(" ++ (text ++ ")"))).toList = type.toList ++ '(' :: (text.toList ++ ')' :: []) := by
    simp only [String.toList_append]
    rfl
  have hstops : Text.Stops isIdentifierChar ("(" ++ (text ++ ")")).toList := stops_append (by decide) _
  rw [converted?, hread, behindWord_append htype hstops, firstWord_append htype hstops, hlist,
    inOuterParens_append (htype.notMem (by decide)) List.not_mem_nil, String.ofList_toList, String.toList_append]
  exact if_pos (List.prefix_append _ _)

/-- A text that goes on otherwise behind its first word converts nothing. -/
theorem converted?_eq_none (h : (behindWord text).head? ≠ some '(') : converted? text = none := by
  refine if_neg ?_
  rintro ⟨more, hmore⟩
  rw [← hmore] at h
  exact h rfl

end

/-! ## Java methods -/

section

variable {m : Model} {f : Function}

/-- The parameters of a wrapper are the inputs of the function, one name each. -/
theorem lookup_inputs (hm : m.WellFormed) (hf : f ∈ m.functions) {p : Parameter} (hp : p ∈ f.inputs)
    (type : Parameter → String) :
    (f.inputs.map fun p => (p.name, type p)).lookup p.name = some (type p) := by
  have hnames : (f.inputs.map fun p => (p.name, type p)).map Prod.fst =
      (f.arguments.filter (!·.isFilled)).map (·.name) := by
    rw [f.arguments_read, List.map_map, List.map_map]
    rfl
  refine lookup_of_mem ?_ (List.mem_map.2 ⟨p, hp, rfl⟩)
  rw [hnames]
  exact (f.nodup_arguments (hm.function hf).native).sublist (List.filter_sublist.map _)

/-- A local array is read with its length, which has no bracket in it. -/
theorem read?_room (hm : m.WellFormed) (hf : f ∈ m.functions) {a : Argument} (ha : a ∈ f.filled)
    {head mid text : String} {stop : Char} (rest : String)
    (htext : text = head ++ (a.name ++ (mid ++ (a.type.size.spell classSize ++ rest))))
    (hmid : Text.Stops isIdentifierChar mid.toList ∧ mid.toList ≠ [])
    (hstop : isIdentifierChar stop = false ∧ stop ≠ ':' ∧ stop ≠ '.')
    (hrest : rest.toList.head? = some stop) :
    (Reader.bounded head mid stop).read? text.toList = some (a.stated classSize) := by
  have hknown := known_filled hm hf ha
  have hsize := hm.tight_classSize hknown.type
  refine Reader.read?_bounded "" (a.type.size.spell classSize) rest ?_ hknown.name hmid.1 hmid.2
    (fun _ h => nomatch h) ⟨List.not_mem_nil, hsize.notMem hstop.1 hstop.2.1 hstop.2.2⟩
    (hsize.notMem (by decide) (by decide) (by decide)) hrest
  rw [htext, String.empty_append]

theorem javaParameters_java (hm : m.WellFormed) (hf : f ∈ m.functions) (s : Setting) :
    javaParameters ((f.javaMethod s).lines s) = f.inputs.map fun p => (p.name, p.type.javaValue) := by
  rw [javaParameters, signatureOf_java hm hf, List.map_map]
  refine List.map_congr_left fun p hp => ?_
  have htype := (wordy_javaValue hm ((hm.function hf).parameters p (List.mem_of_mem_filter hp)).2).1
  exact congrArg Prod.swap (typedName_append (htype.notMem (by decide)))

/-- The local arrays of a method, one for every argument that is filled. -/
theorem javaRooms_java (hm : m.WellFormed) (hf : f ∈ m.functions) (s : Setting) :
    javaRooms.readWithin ((f.javaMethod s).lines s) = f.filled.map (·.stated classSize) := by
  have hroom : ∀ a ∈ f.filled,
      javaRooms.read? (Function.javaRoom a).toList = some (a.stated classSize) := fun a ha =>
    read?_room hm hf ha "];" (javaRoom_eq a) (by decide) (by decide) rfl
  rw [readWithin_java (by decide), Reader.readAll_map hroom, ignores_javaCall (by decide) f,
    Reader.readAll_eq_nil (ignores_javaReturn (by decide) f s)]
  exact List.append_nil _

/-- A local array is made with the length of its type, and with no other. -/
theorem lookup_filled (hm : m.WellFormed) (hf : f ∈ m.functions) {a : Argument} (ha : a ∈ f.arguments) :
    (f.filled.map (·.stated classSize)).lookup a.name =
      if a.isFilled then some (a.type.size.spell classSize) else none := by
  split
  · have hnodup : ((f.filled.map (·.stated classSize)).map Prod.fst).Nodup := by
      rw [List.map_map]
      exact (nodup_filled hm hf).1
    exact lookup_of_mem hnodup (List.mem_map.2 ⟨a, List.mem_filter.2 ⟨ha, ‹_›⟩, rfl⟩)
  · rename_i hread
    refine List.lookup_eq_none_iff.2 (List.forall_mem_map.2 fun b hb => bne_iff_ne.2 fun heq => ?_)
    obtain ⟨hb, hfilled⟩ := List.mem_filter.1 hb
    -- No other argument has its name.
    obtain rfl := List.inj_on_of_nodup_map (f.nodup_arguments (hm.function hf).native) ha hb heq
    exact hread hfilled

/-- What is no name is no local array. -/
theorem lookup_filled_other (hm : m.WellFormed) (hf : f ∈ m.functions) {text : String}
    (h : ¬ Wordy text.toList) : (f.filled.map (·.stated classSize)).lookup text = none := by
  refine List.lookup_eq_none_iff.2 (List.forall_mem_map.2 fun b hb => bne_iff_ne.2 ?_)
  rintro rfl
  exact h (known_filled hm hf hb).name

/-- Where a method passes an array, it is as long as the size of its type; where it passes a number,
there is none. -/
theorem javaLength?_passed (hm : m.WellFormed) (hf : f ∈ m.functions) (s : Setting) {a : Argument}
    (ha : a ∈ f.arguments) :
    (javaLength? ((f.javaMethod s).lines s) a.nativeArg.expression).bind (lengthIn m.classScope) =
      a.length? := by
  have hknown := hm.known hf ha
  have hplain : (javaLength? ((f.javaMethod s).lines s) a.name).bind (lengthIn m.classScope) =
      if a.isFilled then some (a.type.byteSize : Int) else none := by
    have hword : behindWord a.name = [] := List.dropWhile_eq_nil_iff.2 hknown.name
    rw [javaLength?_other (by rw [hword]; decide), javaRooms_java hm hf, lookup_filled hm hf ha]
    split
    · exact hm.lengthIn_classScope hknown.type
    · rfl
  unfold Argument.length? Argument.isPointed Argument.nativeArg
  unfold Argument.isFilled at hplain
  cases hpass : a.passing with
  | inBuffer =>
    obtain ⟨hsize, hjava, _⟩ := Argument.size_of_inBuffer hknown.fits hpass
    have hlength := hm.lengthIn_classScope hknown.type
    rw [hsize, ← hjava] at hlength
    obtain ⟨p, hp, rfl⟩ := Function.mem_inputs_of_argument ha (by rw [Argument.isFilled, hpass]; rfl)
    dsimp only [NativeArg.expression, Parameter.argument]
    rw [javaLength?_contents (wordy_input hm hf hp), javaParameters_java hm hf,
      lookup_inputs hm hf hp (·.type.javaValue), Option.map_some, Option.bind_some, if_pos rfl]
    exact hlength
  | outBuffer =>
    rw [hpass] at hplain
    exact hplain
  | inValue w =>
    rw [hpass] at hplain
    cases a.type.shape with
    | enum variants =>
      have hvalue : ¬ Wordy (a.name ++ ".getValue()").toList := fun h => by
        rw [String.toList_append] at h
        exact absurd (h '.' (List.mem_append_right _ (by decide))) (by decide)
      dsimp only [NativeArg.expression]
      rw [javaLength?_other, javaRooms_java hm hf, lookup_filled_other hm hf hvalue]
      · rfl
      · rw [behindWord_append hknown.name (by decide)]
        decide
    | _ => exact hplain

/-- What a method passes, argument by argument. -/
theorem javaLengths (hm : m.WellFormed) (hf : f ∈ m.functions) (s : Setting) :
    (f.arguments.map (·.nativeArg.expression)).map (fun text =>
      (javaLength? ((f.javaMethod s).lines s) text).bind (lengthIn m.classScope)) =
        f.arguments.map (·.length?) := by
  rw [List.map_map]
  exact List.map_congr_left fun a ha => javaLength?_passed hm hf s ha

/-- The room that a wrapper makes for what is filled. -/
theorem resolved_filled (hm : m.WellFormed) (hf : f ∈ m.functions) :
    resolved m.classScope (f.filled.map (·.stated classSize)) = f.filled.map (·.measure) :=
  resolved_map fun _ ha => hm.lengthIn_classScope (known_filled hm hf ha).type

/-! ## Swift functions -/

theorem swiftParameters_swift (hm : m.WellFormed) (hf : f ∈ m.functions) (s : Setting) :
    swiftParameters (f.swift.lines s) = f.inputs.map fun p => (p.name, p.type.swiftValue) := by
  rw [swiftParameters, signatureOf_swift hm hf, List.filterMap_map, ← List.filterMap_eq_map]
  refine List.filterMap_congr fun p hp => ?_
  have hread : labelled? (typed p.name p.type.swiftValue) = some (some p.name, p.type.swiftValue) := by
    rw [typed, String.append_assoc]
    exact labelled?_append (wordy_input hm hf hp)
  dsimp only [Function.comp_apply]
  rw [hread]
  rfl

/-- The local arrays of a function, one for every argument that is filled. -/
theorem swiftRooms_swift (hm : m.WellFormed) (hf : f ∈ m.functions) (s : Setting) :
    swiftRooms.readWithin (f.swift.lines s) = f.filled.map (·.stated classSize) := by
  have hroom : ∀ a ∈ f.filled,
      swiftRooms.read? (Function.swiftRoom a).toList = some (a.stated classSize) := fun a ha =>
    read?_room hm hf ha ")" (swiftRoom_eq a) (by decide) (by decide) rfl
  rw [readWithin_swift (by decide), Reader.readAll_map hroom, ignores_swiftCall (by decide) f,
    Reader.readAll_eq_nil (ignores_swiftReturn (by decide) f)]
  exact List.append_nil _

/-- What is counted in Swift are the contents of a parameter. -/
theorem meant?_count (hm : m.WellFormed) (hf : f ∈ m.functions) (s : Setting) {p : Parameter}
    (hp : p ∈ f.inputs) {type : String} :
    meant? (f.swift.lines s) (some (type, p.name ++ ".contents.count")) =
      some (classSize p.type.swiftValue) := by
  have hname := wordy_input hm hf hp
  rw [meant?, Option.bind_some]
  dsimp only
  rw [behindWord_append hname (by decide), firstWord_append hname (by decide), if_pos rfl,
    swiftParameters_swift hm hf, lookup_inputs hm hf hp]
  rfl

/-- What is written down is what it says. -/
theorem meant?_size (hm : m.WellFormed) (hf : f ∈ m.functions) (s : Setting) {a : Argument}
    (ha : a ∈ f.arguments) {type : String} :
    meant? (f.swift.lines s) (some (type, a.type.size.spell classSize)) =
      some (a.type.size.spell classSize) := by
  have hnumber : ∀ n : Nat, behindWord (Decimal.integer n) ≠ ".contents.count".toList := by
    intro n
    rw [behindWord, List.dropWhile_eq_nil_iff.2 (wordy_natural n)]
    decide
  have hother : behindWord (a.type.size.spell classSize) ≠ ".contents.count".toList := by
    have hword := (hm.word_typeName (hm.known hf ha).type).1
    unfold TypeDef.size
    cases a.type.shape with
    | buffer size =>
      show behindWord (classSize a.type.name) ≠ _
      rw [classSize, behindWord_append hword (by decide)]
      decide
    | _ => exact hnumber _
  rw [meant?, Option.bind_some]
  exact if_neg hother

/-- Only lengths are converted, to the type of their slots. -/
theorem converted?_swiftArgs (hm : m.WellFormed) (hf : f ∈ m.functions) {a : Argument}
    (ha : a ∈ f.arguments) : (a.swiftArgs.map (·.expression)).map converted? =
      match a.passing with
      | .inBuffer => [none, some ("UInt32", a.name ++ ".contents.count")]
      | .outBuffer => [none, some ("UInt32", a.type.size.spell classSize)]
      | .inValue _ => [none] := by
  have hname := (hm.known hf ha).name
  -- Without a parenthesis behind its first word a text converts nothing.
  have hbehind : ∀ rest : String, Text.Stops isIdentifierChar rest.toList →
      rest.toList.head? ≠ some '(' → converted? (a.name ++ rest) = none :=
    fun rest hstops h => converted?_eq_none (by rwa [behindWord_append hname hstops])
  have hlength : ∀ text : String, converted? ("UInt32" ++ inParens text) = some ("UInt32", text) :=
    fun text => converted?_append (by decide)
  unfold Argument.swiftArgs
  cases a.passing with
  | inBuffer => exact congrArg₂ (fun x y => [x, y]) (hbehind ".contents" (by decide) (by decide)) (hlength _)
  | outBuffer =>
    have hfilled : converted? ("&" ++ a.name) = none := by
      have hmark : behindWord ("&" ++ a.name) = '&' :: a.name.toList := by
        rw [behindWord, String.toList_append]
        rfl
      refine converted?_eq_none ?_
      rw [hmark]
      exact fun hhead => absurd (Option.some.inj hhead) (by decide)
    exact congrArg₂ (fun x y => [x, y]) hfilled (hlength _)
  | inValue w =>
    have hplain := hbehind "" (by decide) (by decide)
    rw [String.append_empty] at hplain
    cases a.type.shape with
    | enum variants => exact congrArg (fun x => [x]) (hbehind ".rawValue" (by decide) (by decide))
    | _ => exact congrArg (fun x => [x]) hplain

/-- For every slot of an argument a function passes the length of its type, or no length. -/
theorem swiftLength?_passed (hm : m.WellFormed) (hf : f ∈ m.functions) (s : Setting) {a : Argument}
    (ha : a ∈ f.arguments) :
    (a.swiftArgs.map (·.expression)).map (fun text =>
      (swiftLength? (f.swift.lines s) text).bind (lengthIn m.classScope)) = a.slots.map (·.length?) := by
  have hknown := hm.known hf ha
  have hlengths := congrArg (List.map fun x => (meant? (f.swift.lines s) x).bind (lengthIn m.classScope))
    (converted?_swiftArgs hm hf ha)
  rw [List.map_map] at hlengths
  refine hlengths.trans ?_
  unfold Argument.slots
  cases hpass : a.passing with
  | inBuffer =>
    obtain ⟨hsize, _, hswift⟩ := Argument.size_of_inBuffer hknown.fits hpass
    have hcount : (meant? (f.swift.lines s) (some ("UInt32", a.name ++ ".contents.count"))).bind
        (lengthIn m.classScope) = some (a.type.byteSize : Int) := by
      rw [← hm.lengthIn_classScope hknown.type, hsize, ← hswift]
      obtain ⟨p, hp, rfl⟩ := Function.mem_inputs_of_argument ha (by rw [Argument.isFilled, hpass]; rfl)
      exact congrArg (·.bind (lengthIn m.classScope)) (meant?_count hm hf s hp)
    exact congrArg (fun x => [none, x]) hcount
  | outBuffer =>
    have hlength : (meant? (f.swift.lines s) (some ("UInt32", a.type.size.spell classSize))).bind
        (lengthIn m.classScope) = some (a.type.byteSize : Int) := by
      rw [meant?_size hm hf s ha]
      exact hm.lengthIn_classScope hknown.type
    exact congrArg (fun x => [none, x]) hlength
  | inValue w => rfl

/-- What a function passes, slot by slot. -/
theorem swiftLengths (hm : m.WellFormed) (hf : f ∈ m.functions) (s : Setting) :
    (f.swift.passed.map (·.expression)).map (fun text =>
      (swiftLength? (f.swift.lines s) text).bind (lengthIn m.classScope)) = f.slots.map (·.length?) := by
  have hpassed : f.swift.passed.map (·.expression) =
      f.arguments.flatMap fun a => a.swiftArgs.map (·.expression) := List.map_flatMap
  rw [hpassed, List.map_flatMap]
  show _ = (f.arguments.flatMap (·.slots)).map _
  rw [List.map_flatMap]
  exact List.flatMap_congr fun a ha => swiftLength?_passed hm hf s ha

end

end Bindery
