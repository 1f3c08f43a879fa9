/-
  WHAT A WRAPPER HANDS OUT, read off its lines.

  A wrapper passes local arrays to a call and returns what it decodes from them.  What is passed stands
  between commas in the outermost parentheses of the call; what is returned is one expression, or several
  with commas between them: in Java they are what the object of a class is made of, in Swift a tuple with
  labels.  An expression that decodes says what is decoded, to which type and from which local.

  Of a class that holds several values the fields, what its constructor takes and what it assigns are
  each read by themselves, with types and names.
-/
import Bindery.Model.Basic
import Bindery.Proofs.Source.Reading

namespace Bindery.Source

open Naming

/-- What is left of a text without the word in front of it. -/
theorem drop_word (word : String) (s : List Char) : (word.toList ++ s).drop word.toList.length = s :=
  List.drop_left

/-! ## Outermost parentheses -/

/-- What stands between the first parenthesis that opens and the last one that closes. -/
def inOuterParens (s : List Char) : List Char :=
  (((((s.dropWhile (· != '(')).drop 1).reverse).dropWhile (· != ')')).drop 1).reverse

/-- What a text hands over, where calls may be among it. -/
def argumentsIn (text : String) : List String := itemsIn (inOuterParens text.toList)

section

variable {text before after : String} {texts : List String}

theorem inOuterParens_append {before inside after : List Char} (hbefore : '(' ∉ before)
    (hafter : ')' ∉ after) : inOuterParens (before ++ '(' :: (inside ++ ')' :: after)) = inside := by
  have hopen : ∀ c ∈ before, (c != '(') = true := fun c hc =>
    bne_iff_ne.2 fun heq => hbefore (heq ▸ hc)
  have hclose : ∀ c ∈ after.reverse, (c != ')') = true := fun c hc =>
    bne_iff_ne.2 fun heq => hafter (heq ▸ List.mem_reverse.1 hc)
  have hreverse : (inside ++ ')' :: after).reverse = after.reverse ++ ')' :: inside.reverse := by simp
  unfold inOuterParens
  rw [Text.dropWhile_append_stops hopen (Text.stops_cons.2 rfl), List.drop_succ_cons, List.drop_zero,
    hreverse, Text.dropWhile_append_stops hclose (Text.stops_cons.2 rfl), List.drop_succ_cons,
    List.drop_zero, List.reverse_reverse]

theorem argumentsIn_append (hbefore : '(' ∉ before.toList) (hafter : ')' ∉ after.toList)
    (htexts : ∀ t ∈ texts, Component t) :
    argumentsIn (before ++ (inParens (commas texts) ++ after)) = texts := by
  rw [argumentsIn, toList_parens, inOuterParens_append hbefore hafter, itemsIn_components htexts]

theorem mem_of_mem_inOuterParens {c : Char} {s : List Char} (h : c ∈ inOuterParens s) : c ∈ s := by
  unfold inOuterParens at h
  have hback := List.mem_reverse.1 (List.dropWhile_subset _ (List.mem_of_mem_drop (List.mem_reverse.1 h)))
  exact List.dropWhile_subset _ (List.mem_of_mem_drop hback)

/-- Between two texts there is a comma. -/
theorem comma_mem_commas (t u : String) (texts : List String) :
    ',' ∈ (commas (t :: u :: texts)).toList := by
  unfold commas
  rw [String.intercalate_cons_cons, String.toList_append, String.toList_append]
  exact List.mem_append_left _ (List.mem_append_right _ List.mem_cons_self)

theorem beforeParens_append {before after : String} (h : '(' ∉ before.toList) :
    beforeParens (before ++ ("(" ++ after)).toList = before.toList := by
  have hopen : ∀ c ∈ before.toList, (c != '(') = true := fun c hc =>
    bne_iff_ne.2 fun heq => h (heq ▸ hc)
  have hread : (before ++ ("(" ++ after)).toList = before.toList ++ '(' :: after.toList := by
    simp only [String.toList_append]
    rfl
  rw [beforeParens, hread, Text.takeWhile_append_stops hopen (Text.stops_cons.2 rfl)]

/-- What is between parentheses that open first and close first. -/
theorem inFirstParens_append {before inside after : String} (hbefore : '(' ∉ before.toList)
    (hinside : ')' ∉ inside.toList) :
    inFirstParens (before ++ ("(" ++ (inside ++ (")" ++ after)))).toList = inside.toList := by
  have hopen : ∀ c ∈ before.toList, (c != '(') = true := fun c hc =>
    bne_iff_ne.2 fun heq => hbefore (heq ▸ hc)
  have hclose : ∀ c ∈ inside.toList, (c != ')') = true := fun c hc =>
    bne_iff_ne.2 fun heq => hinside (heq ▸ hc)
  have hread : (before ++ ("(" ++ (inside ++ (")" ++ after)))).toList =
      before.toList ++ '(' :: (inside.toList ++ ')' :: after.toList) := by
    simp only [String.toList_append]
    rfl
  rw [inFirstParens, hread, Text.dropWhile_append_stops hopen (Text.stops_cons.2 rfl), List.drop_one,
    List.tail_cons, Text.takeWhile_append_stops hclose (Text.stops_cons.2 rfl)]

end

/-! ## Java -/

/-- The local arrays of a method. -/
def javaArrays : Reader String := .named "byte[] "

/-- What is passed to a native method. -/
def nativeCalls : Reader (List String) :=
  ⟨"int ffiResult = Native.", fun s => some (itemsIn (inOuterParens s))⟩

/-- What is returned. -/
def javaReturns : Reader String := .statement "return "

/-- The class that holds what is returned, if several values are. -/
def javaHolder? (text : String) : Option String :=
  if "new ".toList <+: text.toList ∧ ',' ∈ inOuterParens text.toList then
    some (String.ofList ((beforeParens text.toList).drop 4))
  else none

/-- The values that are returned. -/
def javaComponents (text : String) : List String :=
  if (javaHolder? text).isSome then argumentsIn text else [text]

/-- What an expression decodes: the kind of the value, its type, and the local that it is decoded from. -/
def javaDecoded? (text : String) : Option (Kind × String × String) :=
  let callee := beforeParens text.toList
  let inside := String.ofList (inFirstParens text.toList)
  if "new ".toList <+: callee then some (.buffer, String.ofList (callee.drop 4), inside)
  else if ".fromValue".toList <:+ callee ∧ inside = firstWord inside ++ "[0] & 0xff" then
    some (.enum, String.ofList (callee.take (callee.length - 10)), firstWord inside)
  else if callee = "ByteArray.decodeInt".toList then some (.scalar, "int", inside)
  else if callee = "ByteArray.decodeLong".toList then some (.scalar, "long", inside)
  else none

/-- The type that a method is declared to return. -/
def javaReturnType (ls : List Line) : Option String :=
  (Reader.named "public static ").read? ((textsAt 0 ls).headD "").toList

/-- A type and a name with a blank between them. -/
def typedName (s : List Char) : String × String :=
  (String.ofList (s.takeWhile (· != ' ')), String.ofList ((s.dropWhile (· != ' ')).drop 1))

/-- The classes for objects of several values. -/
def javaHolders : Reader String := .named "public static final class "

/-- The fields of a class with their types. -/
def javaFields : Reader (String × String) := ⟨fieldHead, fun s => some (typedName s.dropLast)⟩

/-- What the constructors of a class take. -/
def javaConstructors (name : String) : Reader (List (String × String)) :=
  ⟨name ++ "(", fun s =>
    some ((itemsIn (s.takeWhile (· != ')'))).map fun text => typedName text.toList)⟩

/-- What is assigned to which field. -/
def javaAssignments : Reader (String × String) :=
  ⟨"this.", fun s => some (String.ofList (s.takeWhile isIdentifierChar),
    String.ofList (((s.dropWhile isIdentifierChar).drop 3).dropLast))⟩

section

variable {type slot name text : String}

/-- What has no comma in it is made of nothing else. -/
theorem javaHolder?_component (h : Component text) : javaHolder? text = none :=
  if_neg fun hholder => h.noComma (mem_of_mem_inOuterParens hholder.2)

theorem javaComponents_component (h : Component text) : javaComponents text = [text] := by
  rw [javaComponents, javaHolder?_component h]
  rfl

section

variable {first second : String} {texts : List String}

/-- An object that is made of several values. -/
theorem javaHolder?_several (hname : Wordy name.toList) :
    javaHolder? ("new " ++ name ++ inParens (commas (first :: second :: texts))) = some name := by
  have hopen : '(' ∉ ("new " ++ name).toList := by
    rw [String.toList_append, List.mem_append, not_or]
    exact ⟨by decide, hname.notMem (by decide)⟩
  have hread : "new " ++ name ++ inParens (commas (first :: second :: texts)) =
      ("new " ++ name) ++ ("(" ++ (commas (first :: second :: texts) ++ ")")) := by
    simp only [inParens, String.append_assoc]
  have hinside : inOuterParens ("new " ++ name ++ inParens (commas (first :: second :: texts))).toList =
      (commas (first :: second :: texts)).toList := by
    have hlist := toList_parens ("new " ++ name) "" (first :: second :: texts)
    rw [String.append_empty] at hlist
    rw [hlist, inOuterParens_append hopen (by decide)]
  have hstart : "new ".toList <+:
      ("new " ++ name ++ inParens (commas (first :: second :: texts))).toList := by
    rw [String.append_assoc, String.toList_append]
    exact List.prefix_append _ _
  have hdrop : List.drop 4 ("new ".toList ++ name.toList) = name.toList :=
    drop_word "new " _
  rw [javaHolder?, hinside, if_pos ⟨hstart, comma_mem_commas _ _ _⟩, hread,
    beforeParens_append hopen, String.toList_append, hdrop, String.ofList_toList]

theorem javaComponents_several (hname : Wordy name.toList)
    (htexts : ∀ t ∈ first :: second :: texts, Component t) :
    javaComponents ("new " ++ name ++ inParens (commas (first :: second :: texts))) =
      first :: second :: texts := by
  have hopen : '(' ∉ ("new " ++ name).toList := by
    rw [String.toList_append, List.mem_append, not_or]
    exact ⟨by decide, hname.notMem (by decide)⟩
  have harguments : argumentsIn ("new " ++ name ++ (inParens (commas (first :: second :: texts)) ++ "")) =
      first :: second :: texts := argumentsIn_append hopen (by decide) htexts
  rw [String.append_empty] at harguments
  rw [javaComponents, javaHolder?_several hname, harguments]
  rfl

end

theorem javaDecoded?_buffer (htype : Wordy type.toList) (hslot : Wordy slot.toList) :
    javaDecoded? ("new " ++ type ++ inParens slot) = some (.buffer, type, slot) := by
  have hopen : '(' ∉ ("new " ++ type).toList := by
    rw [String.toList_append, List.mem_append, not_or]
    exact ⟨by decide, htype.notMem (by decide)⟩
  have hread : "new " ++ type ++ inParens slot = ("new " ++ type) ++ ("(" ++ (slot ++ (")" ++ ""))) := by
    simp only [inParens, String.append_assoc, String.append_empty]
  have hdrop : List.drop 4 ("new ".toList ++ type.toList) = type.toList :=
    drop_word "new " _
  unfold javaDecoded?
  dsimp only
  rw [hread, beforeParens_append hopen, inFirstParens_append hopen (hslot.notMem (by decide)),
    String.ofList_toList, String.toList_append, if_pos (List.prefix_append _ _), hdrop,
    String.ofList_toList]

theorem javaDecoded?_enum (htype : Wordy type.toList) (hslot : Wordy slot.toList) :
    javaDecoded? (type ++ ".fromValue(" ++ slot ++ "[0] & 0xff)") = some (.enum, type, slot) := by
  have hread : type ++ ".fromValue(" ++ slot ++ "[0] & 0xff)" =
      (type ++ ".fromValue") ++ ("(" ++ ((slot ++ "[0] & 0xff") ++ (")" ++ ""))) := by
    have hcall : ".fromValue(" = ".fromValue" ++ "(" := by decide
    have hbyte : "[0] & 0xff)" = "[0] & 0xff" ++ ")" := by decide
    rw [hcall, hbyte]
    simp only [String.append_assoc, String.append_empty]
  have hopen : '(' ∉ (type ++ ".fromValue").toList := by
    rw [String.toList_append, List.mem_append, not_or]
    exact ⟨htype.notMem (by decide), by decide⟩
  have hclose : ')' ∉ (slot ++ "[0] & 0xff").toList := by
    rw [String.toList_append, List.mem_append, not_or]
    exact ⟨hslot.notMem (by decide), by decide⟩
  -- There is no blank in front of the parenthesis, so nothing is made anew.
  have hnew : ¬ "new ".toList <+: (type ++ ".fromValue").toList := by
    intro hp
    have hblank : ' ' ∈ (type ++ ".fromValue").toList := hp.subset (by decide)
    rw [String.toList_append, List.mem_append] at hblank
    exact hblank.elim (htype.notMem (by decide)) (by decide)
  have hfirst : firstWord (slot ++ "[0] & 0xff") = slot := firstWord_append hslot (by decide)
  have htake : (type.toList ++ ".fromValue".toList).take
      ((type.toList ++ ".fromValue".toList).length - 10) = type.toList := by
    rw [List.length_append]
    exact List.take_left' (Nat.add_sub_cancel _ 10).symm
  unfold javaDecoded?
  dsimp only
  rw [hread, beforeParens_append hopen, inFirstParens_append hopen hclose, if_neg hnew,
    String.ofList_toList, hfirst, String.toList_append, if_pos ⟨List.suffix_append _ _, rfl⟩, htake,
    String.ofList_toList]

theorem javaDecoded?_scalar {method number : String} (hslot : Wordy slot.toList)
    (h : (method, number) = ("ByteArray.decodeInt", "int") ∨
      (method, number) = ("ByteArray.decodeLong", "long")) :
    javaDecoded? (method ++ inParens slot) = some (.scalar, number, slot) := by
  have hmethod : '(' ∉ method.toList ∧ ¬ "new ".toList <+: method.toList ∧
      ¬ ".fromValue".toList <:+ method.toList := by
    rcases h with h | h <;> cases h <;> decide
  have hread : method ++ inParens slot = method ++ ("(" ++ (slot ++ (")" ++ ""))) := by
    simp only [inParens, String.append_assoc, String.append_empty]
  unfold javaDecoded?
  dsimp only
  rw [hread, beforeParens_append hmethod.1, inFirstParens_append hmethod.1 (hslot.notMem (by decide)),
    if_neg hmethod.2.1, if_neg fun hboth => hmethod.2.2 hboth.1, String.ofList_toList]
  rcases h with h | h <;> cases h <;> rfl

theorem typedName_append (htype : ' ' ∉ type.toList) :
    typedName (type ++ (" " ++ name)).toList = (type, name) := by
  have hsolid : ∀ c ∈ type.toList, (c != ' ') = true := fun c hc =>
    bne_iff_ne.2 fun heq => htype (heq ▸ hc)
  have hread : (type ++ (" " ++ name)).toList = type.toList ++ ' ' :: name.toList := by
    simp only [String.toList_append]
    rfl
  rw [typedName, hread, Text.takeWhile_append_stops hsolid (Text.stops_cons.2 rfl),
    Text.dropWhile_append_stops hsolid (Text.stops_cons.2 rfl), List.drop_one, List.tail_cons,
    String.ofList_toList, String.ofList_toList]

end

/-! ## Swift -/

/-- The local arrays of a function. -/
def swiftArrays : Reader String := .named "var "

/-- What is passed to an exported function. -/
def exportCalls : Reader (List String) :=
  ⟨"let ffiResult = ", fun s => some (itemsIn (inOuterParens s))⟩

/-- What is returned. -/
def swiftReturns : Reader String := ⟨"return ", fun s => some (String.ofList s)⟩

/-- A text behind its label. -/
def labelled? (text : String) : Option (Option String × String) :=
  if ": ".toList <+: behindWord text then
    some (some (firstWord text), String.ofList ((behindWord text).drop 2))
  else none

/-- The values of a tuple with their labels; else there is one, which has none. -/
def swiftComponents (text : String) : List (Option String × String) :=
  if "(".toList <+: text.toList then (argumentsIn text).filterMap labelled? else [(none, text)]

/-- What an expression decodes: the kind of the value, its type, and the local that it is decoded from. -/
def swiftDecoded? (text : String) : Option (Kind × String × String) :=
  let s := text.toList
  let call := if "try! ".toList <+: s then s.drop 5 else if "try ".toList <+: s then s.drop 4 else s
  let callee := String.ofList (beforeParens call)
  let inside := inFirstParens call
  let behind := (behindParens (String.ofList call)).toList
  if callee = "decodeEnum" ∧ " as ".toList <+: behind then
    some (.enum, String.ofList (behind.drop 4), String.ofList inside)
  else if callee = "decodeScalar" ∧ " as ".toList <+: behind then
    some (.scalar, String.ofList (behind.drop 4), String.ofList inside)
  else if "contents: ".toList <+: inside then
    some (.buffer, callee, String.ofList (inside.drop 10))
  else none

/-- The types that a clause behind parameters declares, each with its label, if there are several. -/
def returnTypesIn (clause : String) : List (Option String × String) :=
  let behind := (clause.toList.dropWhile (· != '>')).drop 2
  if "(".toList <+: behind then (parametersIn (String.ofList behind)).filterMap labelled?
  else if behind = [] then []
  else [(none, firstWord (String.ofList behind))]

/-- The types that a function is declared to return. -/
def swiftReturnTypes (ls : List Line) : List (Option String × String) :=
  returnTypesIn (behindParens ((textsAt 0 ls).headD ""))

section

variable {type slot label rest : String}

theorem labelled?_append (hlabel : Wordy label.toList) :
    labelled? (label ++ (": " ++ rest)) = some (some label, rest) := by
  have hstops : Text.Stops isIdentifierChar (": " ++ rest).toList := stops_append (by decide) _
  have hdrop : List.drop 2 (": ".toList ++ rest.toList) = rest.toList :=
    drop_word ": " _
  rw [labelled?, behindWord_append hlabel hstops, firstWord_append hlabel hstops, String.toList_append,
    if_pos (List.prefix_append _ _), hdrop, String.ofList_toList]

/-- What stands behind the parentheses that close first. -/
theorem behindParens_close {before after : String} (h : ')' ∉ before.toList) :
    behindParens (before ++ (")" ++ after)) = after := by
  have hopen : ∀ c ∈ before.toList, (c != ')') = true := fun c hc =>
    bne_iff_ne.2 fun heq => h (heq ▸ hc)
  have hread : (before ++ (")" ++ after)).toList = before.toList ++ ')' :: after.toList := by
    simp only [String.toList_append]
    rfl
  rw [behindParens, hread, Text.dropWhile_append_stops hopen (Text.stops_cons.2 rfl), List.drop_one,
    List.tail_cons, String.ofList_toList]

/-- How a failure is met, or nothing. -/
def attempts : List String := ["", "try ", "try! "]

/-- What is attempted is read behind the attempt. -/
theorem drop_attempt {attempt call : String} (hattempt : attempt ∈ attempts)
    (hother : ∀ a ∈ ["try! ", "try "], ¬ a.toList <+: call.toList) :
    (if "try! ".toList <+: (attempt ++ call).toList then (attempt ++ call).toList.drop 5
      else if "try ".toList <+: (attempt ++ call).toList then (attempt ++ call).toList.drop 4
      else (attempt ++ call).toList) = call.toList := by
  have hbang := hother "try! " (by simp)
  have htry := hother "try " (by simp)
  rw [String.toList_append]
  simp only [attempts, List.mem_cons, List.not_mem_nil, or_false] at hattempt
  rcases hattempt with rfl | rfl | rfl
  · show (if "try! ".toList <+: call.toList then _ else _) = _
    rw [if_neg hbang]
    exact if_neg htry
  · have hbang : ¬ "try! ".toList <+: "try ".toList ++ call.toList := by
      have happart : Apart "try! " "try " := by decide
      rw [← String.toList_append]
      exact (happart.append _).1
    rw [if_neg hbang, if_pos (List.prefix_append _ _)]
    exact drop_word "try " _
  · rw [if_pos (List.prefix_append _ _)]
    exact drop_word "try! " _

/-- A text that goes on behind its first word with a parenthesis attempts nothing. -/
theorem noAttempt {callee rest : String} (h : Wordy callee.toList) :
    ∀ a ∈ ["try! ", "try "], ¬ a.toList <+: (callee ++ ("(" ++ rest)).toList := by
  have hstops : Text.Stops isIdentifierChar ("(" ++ rest).toList := stops_append (by decide) _
  have hbehind : (behindWord (callee ++ ("(" ++ rest))).head? = some '(' := by
    rw [behindWord_append h hstops, String.toList_append]
    rfl
  simp only [List.forall_mem_cons, List.not_mem_nil, false_implies, implies_true, and_true]
  constructor
  all_goals
    rintro ⟨more, hmore⟩
    rw [behindWord, ← hmore] at hbehind
    exact absurd (Option.some.inj hbehind) (by decide)

theorem swiftDecoded?_buffer {attempt : String} (hattempt : attempt ∈ attempts)
    (htype : Wordy type.toList) (hslot : Wordy slot.toList)
    (hfree : type ≠ "decodeEnum" ∧ type ≠ "decodeScalar") :
    swiftDecoded? (attempt ++ (type ++ "(contents: " ++ slot ++ ")")) = some (.buffer, type, slot) := by
  have hread : type ++ "(contents: " ++ slot ++ ")" =
      type ++ ("(" ++ (("contents: " ++ slot) ++ (")" ++ ""))) := by
    have hcall : "(contents: " = "(" ++ "contents: " := by decide
    rw [hcall]
    simp only [String.append_assoc, String.append_empty]
  have hopen : '(' ∉ type.toList := htype.notMem (by decide)
  have hclose : ')' ∉ ("contents: " ++ slot).toList := by
    rw [String.toList_append, List.mem_append, not_or]
    exact ⟨by decide, hslot.notMem (by decide)⟩
  have hdrop : List.drop 10 ("contents: ".toList ++ slot.toList) = slot.toList :=
    drop_word "contents: " _
  unfold swiftDecoded?
  dsimp only
  rw [hread, drop_attempt hattempt (noAttempt htype), beforeParens_append hopen,
    inFirstParens_append hopen hclose, String.ofList_toList, if_neg fun h => hfree.1 h.1,
    if_neg fun h => hfree.2 h.1, String.toList_append, if_pos (List.prefix_append _ _), hdrop,
    String.ofList_toList]

/-- A generic function that decodes is told its type behind. -/
theorem swiftDecoded?_generic {attempt callee : String} {kind : Kind} (hattempt : attempt ∈ attempts)
    (hslot : Wordy slot.toList)
    (h : (callee, kind) = ("decodeEnum", Kind.enum) ∨ (callee, kind) = ("decodeScalar", Kind.scalar)) :
    swiftDecoded? (attempt ++ (callee ++ inParens slot ++ " as " ++ type)) =
      some (kind, type, slot) := by
  have hcallee : Wordy callee.toList := by
    rcases h with h | h <;> cases h <;> decide
  have hread : callee ++ inParens slot ++ " as " ++ type =
      callee ++ ("(" ++ (slot ++ (")" ++ (" as " ++ type)))) := by
    simp only [inParens, String.append_assoc]
  have hopen : '(' ∉ callee.toList := hcallee.notMem (by decide)
  have hclose : ')' ∉ slot.toList := hslot.notMem (by decide)
  have hcalleeClose : ')' ∉ callee.toList := hcallee.notMem (by decide)
  have hbehind : behindParens (callee ++ ("(" ++ (slot ++ (")" ++ (" as " ++ type))))) =
      " as " ++ type := by
    have hfront : callee ++ ("(" ++ (slot ++ (")" ++ (" as " ++ type)))) =
        (callee ++ ("(" ++ slot)) ++ (")" ++ (" as " ++ type)) := by
      simp only [String.append_assoc]
    rw [hfront]
    refine behindParens_close ?_
    simp +decide only [String.toList_append, List.mem_append, hclose, hcalleeClose, or_self,
      not_false_eq_true]
  have hdrop : List.drop 4 (" as ".toList ++ type.toList) = type.toList :=
    drop_word " as " _
  unfold swiftDecoded?
  dsimp only
  rw [hread, drop_attempt hattempt (noAttempt hcallee), beforeParens_append hopen,
    inFirstParens_append hopen hclose, String.ofList_toList, String.ofList_toList, hbehind,
    String.toList_append, hdrop, String.ofList_toList, String.ofList_toList]
  rcases h with h | h <;> cases h
  · exact if_pos ⟨rfl, List.prefix_append _ _⟩
  · rw [if_neg fun hboth => absurd hboth.1 (by decide)]
    exact if_pos ⟨rfl, List.prefix_append _ _⟩

/-- What stands in no parentheses is one value. -/
theorem swiftComponents_plain {text : String} (h : ¬ "(".toList <+: text.toList) :
    swiftComponents text = [(none, text)] := if_neg h

/-- The values of a tuple. -/
theorem swiftComponents_tuple {values : List (String × String)}
    (hvalues : ∀ x ∈ values, Wordy x.1.toList ∧ Component (x.1 ++ (": " ++ x.2))) :
    swiftComponents (inParens (commas (values.map fun x => x.1 ++ (": " ++ x.2)))) =
      values.map fun x => (some x.1, x.2) := by
  have hread : inParens (commas (values.map fun x => x.1 ++ (": " ++ x.2))) =
      "" ++ (inParens (commas (values.map fun x => x.1 ++ (": " ++ x.2))) ++ "") := by
    rw [String.append_empty, String.empty_append]
  have hopen : "(".toList <+: (inParens (commas (values.map fun x => x.1 ++ (": " ++ x.2)))).toList := by
    unfold inParens
    rw [String.append_assoc, String.toList_append]
    exact List.prefix_append _ _
  rw [swiftComponents, if_pos hopen, hread, argumentsIn_append (by decide) (by decide)
    (List.forall_mem_map.2 fun x hx => (hvalues x hx).2), List.filterMap_map, ← List.filterMap_eq_map]
  exact List.filterMap_congr fun x hx => labelled?_append (hvalues x hx).1

section

variable {front after : String}

/-- Without an arrow nothing is declared. -/
theorem returnTypesIn_nothing (h : '>' ∉ front.toList) : returnTypesIn front = [] := by
  have hall : ∀ c ∈ front.toList, (c != '>') = true := fun c hc => bne_iff_ne.2 fun heq => h (heq ▸ hc)
  have hnone : front.toList.dropWhile (· != '>') = [] := List.dropWhile_eq_nil_iff.2 hall
  unfold returnTypesIn
  rw [hnone]
  rfl

/-- What is behind the arrow. -/
theorem drop_arrow (h : '>' ∉ front.toList) (after : String) :
    ((front ++ (" -> " ++ after)).toList.dropWhile (· != '>')).drop 2 = after.toList := by
  have hfront : ∀ c ∈ front.toList ++ [' ', '-'], (c != '>') = true :=
    List.forall_mem_append.2 ⟨fun c hc => bne_iff_ne.2 fun heq => h (heq ▸ hc),
      List.forall_mem_cons.2 ⟨rfl, List.forall_mem_singleton.2 rfl⟩⟩
  have hread : (front ++ (" -> " ++ after)).toList =
      (front.toList ++ [' ', '-']) ++ '>' :: ' ' :: after.toList := by
    simp only [String.toList_append, List.append_assoc]
    rfl
  rw [hread, Text.dropWhile_append_stops hfront (Text.stops_cons.2 rfl)]
  rfl

theorem returnTypesIn_plain (h : '>' ∉ front.toList) (htype : Wordy type.toList)
    (hafter : Text.Stops isIdentifierChar after.toList) (hopen : '(' ∉ after.toList)
    (hne : after.toList ≠ []) : returnTypesIn (front ++ (" -> " ++ (type ++ after))) = [(none, type)] := by
  have hplain : ¬ "(".toList <+: (type ++ after).toList := fun hp => by
    have hmem : '(' ∈ (type ++ after).toList := hp.subset List.mem_cons_self
    rw [String.toList_append, List.mem_append] at hmem
    exact hmem.elim (htype.notMem (by decide)) hopen
  have hsome : (type ++ after).toList ≠ [] := by
    rw [String.toList_append]
    exact List.append_ne_nil_of_right_ne_nil _ hne
  unfold returnTypesIn
  rw [drop_arrow h, if_neg hplain, if_neg hsome, String.ofList_toList, firstWord_append htype hafter]

theorem returnTypesIn_tuple {values : List (String × String)} (h : '>' ∉ front.toList)
    (hvalues : ∀ x ∈ values, Wordy x.1.toList ∧ ListItem (x.1 ++ (": " ++ x.2))) :
    returnTypesIn (front ++ (" -> " ++
        (inParens (commas (values.map fun x => x.1 ++ (": " ++ x.2))) ++ after))) =
      values.map fun x => (some x.1, x.2) := by
  have hread : inParens (commas (values.map fun x => x.1 ++ (": " ++ x.2))) ++ after =
      "" ++ (inParens (commas (values.map fun x => x.1 ++ (": " ++ x.2))) ++ after) :=
    String.empty_append.symm
  have hopen : "(".toList <+:
      (inParens (commas (values.map fun x => x.1 ++ (": " ++ x.2))) ++ after).toList := by
    unfold inParens
    rw [String.append_assoc, String.append_assoc, String.toList_append]
    exact List.prefix_append _ _
  unfold returnTypesIn
  rw [drop_arrow h, if_pos hopen, String.ofList_toList, hread, parametersIn_append _ (by decide)
    (List.forall_mem_map.2 fun x hx => (hvalues x hx).2), List.filterMap_map, ← List.filterMap_eq_map]
  exact List.filterMap_congr fun x hx => labelled?_append (hvalues x hx).1

end

end

end Bindery.Source
