/-
  PARAMETERS WITH THEIR TYPES, and what is passed for them, read off the lines.

  A function of Rust that declares its parameters line by line has a name, a colon, a type and a comma on
  each of these lines (`typedParameters`); in C the name is the last word of a parameter, with its type in
  front (`cTyped`), and a list without parameters says `void`.  A call that goes over several lines hands
  over what stands on the lines up to the one that closes it (`spreadCall?`).

  What a number type is for is told by its bits.  The tables here are those of the languages.  On its way
a number may be converted (`conversions`) and its range may be checked (`rangeLimits`).
-/
import Bindery.Proofs.Source.Handing
import Bindery.Proofs.Source.Neat

namespace Bindery.Source

open Naming

/-! ## Number types -/

/-- The unsigned number types of Rust, with their bits. -/
def rustBits : List (String × Nat) := [("u8", 8), ("u16", 16), ("u32", 32), ("u64", 64)]

/-- The unsigned number types of Swift, with their bits. -/
def swiftBits : List (String × Nat) :=
  [("UInt8", 8), ("UInt16", 16), ("UInt32", 32), ("UInt64", 64)]

/-- The number types of native methods, with their bits; they have a sign. -/
def jniBits : List (String × Nat) := [("jint", 32), ("jlong", 64)]

/-! ## Parameters of Rust -/

/-- A text without its last character. -/
def withoutLast (text : String) : String := String.ofList text.toList.dropLast

theorem withoutLast_append (text : String) (c : Char) :
    withoutLast (text ++ String.singleton c) = text := by
  have hlast : (text ++ String.singleton c).toList = text.toList ++ [c] := by
    rw [String.toList_append, String.toList_singleton]
  rw [withoutLast, hlast, List.dropLast_concat, String.ofList_toList]

/-- The name and the type that a line declares, with a comma behind. -/
def typedIn? (text : String) : Option (String × String) :=
  if ": ".toList <+: behindWord text ∧ text.toList.getLast? = some ',' then
    some (firstWord text, withoutLast (String.ofList ((behindWord text).drop 2)))
  else none

/-- The parameters that a function declares line by line, with their types. -/
def typedParameters (ls : List Line) : List (String × String) := (textsAt 1 ls).filterMap typedIn?

theorem typedIn?_append {name type : String} (hname : Wordy name.toList) :
    typedIn? (name ++ (": " ++ (type ++ ","))) = some (name, type) := by
  have hstops : Text.Stops isIdentifierChar (": " ++ (type ++ ",")).toList := stops_append (by decide) _
  have hbehind : behindWord (name ++ (": " ++ (type ++ ","))) = ": ".toList ++ (type ++ ",").toList := by
    rw [behindWord_append hname hstops, String.toList_append]
  have hlast : (name ++ (": " ++ (type ++ ","))).toList.getLast? = some ',' := by
    rw [← String.append_assoc, ← String.append_assoc, String.toList_append]
    exact List.getLast?_concat
  have hdrop : (": ".toList ++ (type ++ ",").toList).drop 2 = (type ++ ",").toList := drop_word ": " _
  rw [typedIn?, hbehind, if_pos ⟨List.prefix_append _ _, hlast⟩, hdrop, String.ofList_toList,
    firstWord_append hname hstops]
  exact congrArg (fun text => some (name, text)) (withoutLast_append type ',')

/-- Without a comma at its end a line declares no parameter. -/
theorem typedIn?_eq_none {text : String} (h : text.toList.getLast? ≠ some ',') : typedIn? text = none :=
  if_neg fun hboth => h hboth.2

/-! ## Parameters of C -/

/-- The name of a parameter of C, and its type in front of it. -/
def cTyped (text : String) : String × String :=
  let name := text.toList.reverse.takeWhile isIdentifierChar
  (String.ofList name.reverse, trimEnd (String.ofList (text.toList.take (text.toList.length - name.length))))

/-- The parameters of a list in C. -/
def cParameters (texts : List String) : List (String × String) :=
  if texts = ["void"] then [] else texts.map cTyped

theorem cTyped_append {name : String} (front : String) (hname : Wordy name.toList)
    (hfront : Text.Stops isIdentifierChar front.toList.reverse) :
    cTyped (front ++ name) = (name, trimEnd front) := by
  have hword : ∀ c ∈ name.toList.reverse, isIdentifierChar c = true := fun c hc =>
    hname c (List.mem_reverse.1 hc)
  have hrun : (front ++ name).toList.reverse.takeWhile isIdentifierChar = name.toList.reverse := by
    rw [String.toList_append, List.reverse_append, Text.takeWhile_append_stops hword hfront]
  have htake : (front.toList ++ name.toList).take ((front.toList ++ name.toList).length -
      name.toList.reverse.length) = front.toList := by
    rw [List.length_append, List.length_reverse, Nat.add_sub_cancel, List.take_left]
  unfold cTyped
  dsimp only
  rw [hrun, List.reverse_reverse, String.toList_append, htake, String.ofList_toList,
    String.ofList_toList]

/-! ## Signatures -/

namespace Reader

variable {β : Type}

/-- The reader of a name with a list in parentheses behind it. -/
def signatures (head : String) (parameters : List String → β) : Reader (String × β) :=
  ⟨head, fun s => some (String.ofList (beforeParens s), parameters (itemsIn (inFirstParens s)))⟩

theorem read?_signatures {head name text : String} {texts : List String} (parameters : List String → β)
    (after : String) (htext : text = head ++ (name ++ (inParens (commas texts) ++ after)))
    (hname : '(' ∉ name.toList) (hitems : ∀ t ∈ texts, ListItem t) :
    (signatures head parameters).read? text.toList = some (name, parameters texts) := by
  have hread : name ++ (inParens (commas texts) ++ after) =
      name ++ ("(" ++ (commas texts ++ (")" ++ after))) := by
    simp only [inParens, String.append_assoc]
  have hclose : ')' ∉ (commas texts).toList :=
    notMem_commas (by decide) fun t ht => (hitems t ht).noClosing
  rw [read?_behind (r := signatures head parameters) htext, hread]
  show some (String.ofList (beforeParens _), parameters (itemsIn (inFirstParens _))) = _
  rw [beforeParens_append hname, inFirstParens_append hname hclose, itemsIn_commas hitems,
    String.ofList_toList]

/-- The names among what such a reader finds are those that lines declare. -/
theorem readAt_signatures (head : String) (parameters : List String → β) (ls : List Line) :
    ((signatures head parameters).readAt 0 ls).map Prod.fst = declared head ls := by
  rw [← readAt_declaring]
  unfold readAt readAll
  rw [List.map_filterMap]
  refine List.filterMap_congr fun text _ => ?_
  show ((if head.toList <+: text.toList then _ else none : Option (String × β))).map Prod.fst = _
  unfold read? declaring
  dsimp only
  split <;> rfl

/-- What is called behind the head. -/
theorem read?_declaring {head name text : String} (after : String)
    (htext : text = head ++ (name ++ ("(" ++ after))) (hname : '(' ∉ name.toList) :
    (declaring head).read? text.toList = some name := by
  rw [read?_behind (r := declaring head) htext]
  show some (String.ofList (beforeParens _)) = _
  rw [beforeParens_append hname, String.ofList_toList]

end Reader

/-- The prototypes of a header: the symbols, and the parameters with their types. -/
def prototypes : Reader (String × List (String × String)) := .signatures "int32_t " cParameters

/-- The native methods of a class: the names, and the parameters with their types. -/
def nativeMethods : Reader (String × List (String × String)) :=
  .signatures "public static native int " (·.map fun text => typedName text.toList)

/-! ## Conversions and ranges -/

/-- The checked conversions: the variable that is bound anew, and the type that it is converted to. -/
def conversions : Reader (String × String) :=
  ⟨"let ", fun s =>
    let name := String.ofList (s.takeWhile isIdentifierChar)
    let value := (s.dropWhile isIdentifierChar).drop 3
    if " = ".toList <+: s.dropWhile isIdentifierChar ∧
        ("::try_from(" ++ (name ++ ")")).toList <+: value.dropWhile isIdentifierChar then
      some (name, String.ofList (value.takeWhile isIdentifierChar))
    else none⟩

/-- The number that hexadecimal digits stand for. -/
def hexValue (digits : List Char) : Nat :=
  digits.foldl (fun n c => 16 * n + "0123456789abcdef".toList.idxOf c) 0

/-- The ranges that are checked: the variable, and the greatest number that is let through; one below
zero is not. -/
def rangeLimits : Reader (String × Nat) :=
  ⟨"if (", fun s =>
    let name := String.ofList (s.takeWhile isIdentifierChar)
    let test := (" < 0 || " ++ (name ++ " > 0x")).toList
    if test <+: s.dropWhile isIdentifierChar then
      some (name, hexValue (((s.dropWhile isIdentifierChar).drop test.length).takeWhile isIdentifierChar))
    else none⟩

section

variable {name callee rest text : String}

theorem conversions_narrow {type : String} (htext : text = "let " ++ (name ++ (" = " ++ (type ++
    ("::try_from(" ++ (name ++ ")") ++ rest))))) (hname : Wordy name.toList) (htype : Wordy type.toList) :
    conversions.read? text.toList = some (name, type) := by
  have hvalue : Text.Stops isIdentifierChar ("::try_from(" ++ (name ++ ")") ++ rest).toList := by
    rw [String.append_assoc]
    exact stops_append (by decide) _
  have hbehind : (name ++ (" = " ++ (type ++ ("::try_from(" ++ (name ++ ")") ++ rest)))).toList =
      name.toList ++ (" = ".toList ++ (type.toList ++ ("::try_from(" ++ (name ++ ")") ++ rest).toList)) := by
    rw [String.toList_append, String.toList_append, String.toList_append (s := type)]
  have hstops : Text.Stops isIdentifierChar
      (" = ".toList ++ (type.toList ++ ("::try_from(" ++ (name ++ ")") ++ rest).toList)) :=
    Text.stops_cons.2 (by decide)
  have hdrop : (" = ".toList ++ (type.toList ++ ("::try_from(" ++ (name ++ ")") ++ rest).toList)).drop 3 =
      type.toList ++ ("::try_from(" ++ (name ++ ")") ++ rest).toList := drop_word " = " _
  rw [Reader.read?_behind (r := conversions) htext, hbehind]
  unfold conversions
  dsimp only
  rw [Text.takeWhile_append_stops hname hstops, Text.dropWhile_append_stops hname hstops, hdrop,
    Text.takeWhile_append_stops htype hvalue, Text.dropWhile_append_stops htype hvalue,
    String.ofList_toList, String.ofList_toList, String.toList_append (t := rest)]
  exact if_pos ⟨List.prefix_append _ _, List.prefix_append _ _⟩

/-- What is called as a function of its own converts nothing. -/
theorem conversions_call (htext : text = "let " ++ (name ++ (" = " ++ (callee ++ ("(" ++ rest)))))
    (hname : Wordy name.toList) (hcallee : Wordy callee.toList) : conversions.Ignores text := by
  have hvalue : Text.Stops isIdentifierChar ("(" ++ rest).toList := stops_append (by decide) _
  have hbehind : (name ++ (" = " ++ (callee ++ ("(" ++ rest)))).toList =
      name.toList ++ (" = ".toList ++ (callee.toList ++ ("(" ++ rest).toList)) := by
    rw [String.toList_append, String.toList_append, String.toList_append (s := callee)]
  have hstops : Text.Stops isIdentifierChar (" = ".toList ++ (callee.toList ++ ("(" ++ rest).toList)) :=
    Text.stops_cons.2 (by decide)
  have hdrop : (" = ".toList ++ (callee.toList ++ ("(" ++ rest).toList)).drop 3 =
      callee.toList ++ ("(" ++ rest).toList := drop_word " = " _
  have hother : ∀ word : String, ¬ ("::try_from(" ++ word).toList <+: ("(" ++ rest).toList := by
    intro word hp
    rw [String.toList_append, String.toList_append] at hp
    exact absurd (List.cons_prefix_cons.1 hp).1 (by decide)
  show conversions.read? text.toList = none
  rw [Reader.read?_behind (r := conversions) htext, hbehind]
  unfold conversions
  dsimp only
  rw [Text.takeWhile_append_stops hname hstops, Text.dropWhile_append_stops hname hstops, hdrop,
    Text.takeWhile_append_stops hcallee hvalue, Text.dropWhile_append_stops hcallee hvalue]
  exact if_neg fun hboth => hother _ hboth.2

/-- What may be changed is no conversion: behind the word for it there is a name. -/
theorem conversions_mut (htext : text = "let mut " ++ (name ++ rest)) (hname : Wordy name.toList)
    (hne : name ≠ "") : conversions.Ignores text := by
  obtain ⟨c, cs, hc⟩ := List.exists_cons_of_ne_nil fun hnil => hne (String.toList_eq_nil_iff.1 hnil)
  have hread : text = "let " ++ ("mut" ++ (" " ++ (name ++ rest))) := by
    have hlet : "let mut " = "let " ++ ("mut" ++ " ") := by decide
    rw [htext, hlet]
    simp only [String.append_assoc]
  have hbehind : ("mut" ++ (" " ++ (name ++ rest))).toList = "mut".toList ++ ' ' :: c :: (cs ++ rest.toList) := by
    rw [String.toList_append, String.toList_append (s := " "), String.toList_append, hc]
    rfl
  have hother : ¬ " = ".toList <+: ' ' :: c :: (cs ++ rest.toList) := by
    intro hp
    have hsecond : '=' = c := (List.cons_prefix_cons.1 (List.cons_prefix_cons.1 hp).2).1
    have hword := hname c (hc ▸ List.mem_cons_self)
    rw [← hsecond] at hword
    exact absurd hword (by decide)
  show conversions.read? text.toList = none
  rw [Reader.read?_behind (r := conversions) hread, hbehind]
  have hmut : Wordy "mut".toList := by decide
  have hstops : Text.Stops isIdentifierChar (' ' :: c :: (cs ++ rest.toList)) :=
    Text.stops_cons.2 (by decide)
  unfold conversions
  dsimp only
  rw [Text.dropWhile_append_stops hmut hstops]
  exact if_neg fun hboth => hother hboth.1

theorem rangeLimits_check {digits : List Char} (htext : text = "if (" ++ (name ++ (" < 0 || " ++
    (name ++ " > 0x") ++ (String.ofList digits ++ (")" ++ rest))))) (hname : Wordy name.toList)
    (hdigits : Wordy digits) : rangeLimits.read? text.toList = some (name, hexValue digits) := by
  have hbehind : (name ++ (" < 0 || " ++ (name ++ " > 0x") ++ (String.ofList digits ++ (")" ++ rest)))).toList =
      name.toList ++ ((" < 0 || " ++ (name ++ " > 0x")).toList ++ (digits ++ (")" ++ rest).toList)) := by
    rw [String.toList_append, String.toList_append (s := " < 0 || " ++ (name ++ " > 0x")),
      String.toList_append (s := String.ofList digits), String.toList_ofList]
  have hstops : Text.Stops isIdentifierChar
      ((" < 0 || " ++ (name ++ " > 0x")).toList ++ (digits ++ (")" ++ rest).toList)) := by
    rw [String.toList_append, List.append_assoc]
    exact Text.stops_cons.2 (by decide)
  have hclose : Text.Stops isIdentifierChar (")" ++ rest).toList := stops_append (by decide) _
  rw [Reader.read?_behind (r := rangeLimits) htext, hbehind]
  unfold rangeLimits
  dsimp only
  rw [Text.takeWhile_append_stops hname hstops, Text.dropWhile_append_stops hname hstops,
    String.ofList_toList, if_pos (List.prefix_append _ _), List.drop_left,
    Text.takeWhile_append_stops hdigits hclose]

/-- Another test is of no range. -/
theorem rangeLimits_other (htext : text = "if (" ++ (name ++ rest)) (hname : Wordy name.toList)
    (hrest : Text.Stops isIdentifierChar rest.toList) (h : ¬ " < ".toList <+: rest.toList) :
    rangeLimits.Ignores text := by
  have hbehind : (name ++ rest).toList = name.toList ++ rest.toList := String.toList_append
  have htest : " < 0 || " = " < " ++ "0 || " := by decide
  show rangeLimits.read? text.toList = none
  rw [Reader.read?_behind (r := rangeLimits) htext, hbehind]
  unfold rangeLimits
  dsimp only
  rw [Text.takeWhile_append_stops hname hrest, Text.dropWhile_append_stops hname hrest,
    String.ofList_toList, htest, String.append_assoc, String.toList_append]
  exact if_neg fun hp => h ((List.prefix_append _ _).trans hp)

end

/-! ## Calls over several lines -/

/-- The call that a line binds the name to: what is called, and what is handed over, one line each with a
comma behind it, up to the line that closes the call. -/
def spreadCall? (name : String) (texts : List String) : Option (String × List String) :=
  match texts.dropWhile (boundInRust? · != some name) with
  | [] => none
  | text :: more =>
    (callIn? text).map fun call => (call.1, (more.takeWhile (· != ");")).map withoutLast)

theorem spreadCall?_append {name call callee : String} {front args items : List String}
    (back : List String) (hfront : ∀ text ∈ front, boundInRust? text ≠ some name)
    (hcall : boundInRust? call = some name) (hcallee : callIn? call = some (callee, items)) :
    spreadCall? name (front ++ ([call] ++ (args.map (· ++ ",") ++ ([");"] ++ back)))) =
      some (callee, args) := by
  have hdrop : (front ++ ([call] ++ (args.map (· ++ ",") ++ ([");"] ++ back)))).dropWhile
      (boundInRust? · != some name) = call :: (args.map (· ++ ",") ++ ([");"] ++ back)) := by
    rw [List.dropWhile_append_of_pos fun text htext => bne_iff_ne.2 (hfront text htext)]
    exact List.dropWhile_cons_of_neg (by simp [hcall])
  have hargs : (args.map (· ++ ",") ++ ([");"] ++ back)).takeWhile (· != ");") = args.map (· ++ ",") := by
    rw [List.takeWhile_append_of_pos]
    · exact List.append_nil _
    · refine List.forall_mem_map.2 fun arg _ => bne_iff_ne.2 fun heq => ?_
      -- A line with a comma behind it does not close the call.
      have hlast := congrArg (·.toList.getLast?) heq
      rw [getLast?_toList_append arg (by decide : ",".toList.getLast? = some ',')] at hlast
      exact absurd hlast (by decide)
  have hplain : (args.map (· ++ ",")).map withoutLast = args := by
    rw [List.map_map]
    exact (List.map_congr_left fun arg _ => withoutLast_append arg ',').trans (List.map_id _)
  unfold spreadCall?
  rw [hdrop]
  dsimp only
  rw [hcallee, hargs, hplain]
  rfl

end Bindery.Source
