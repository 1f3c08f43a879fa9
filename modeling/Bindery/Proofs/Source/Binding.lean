/-
  NAMES THAT LINES BIND, read off the lines.

  A body binds its parameters and its locals (`Scope`).  In Rust a local stands behind `let`, in Swift
  behind `var` or `let`, and in Java behind its type and in front of an equals sign; what a `catch`
  catches is one, too.  Parameters are declared line by line, or between the parentheses of the first
  line.

  A local is kept with the line that binds it, so that it can be told whether a line that binds a
  parameter again makes it from that parameter (`Scope.OnceChecked`).
-/
import Bindery.Proofs.Source.Calling
import Bindery.Proofs.Source.Measured

namespace Bindery.Source

open Naming

/-! ## First words -/

/-- The word that a line starts with. -/
def firstWord (text : String) : String := String.ofList (text.toList.takeWhile isIdentifierChar)

/-- What stands behind it. -/
def behindWord (text : String) : List Char := text.toList.dropWhile isIdentifierChar

section

variable {name rest text head : String}

theorem firstWord_append (hname : Wordy name.toList) (hrest : Text.Stops isIdentifierChar rest.toList) :
    firstWord (name ++ rest) = name := by
  rw [firstWord, String.toList_append, Text.takeWhile_append_stops hname hrest, String.ofList_toList]

theorem behindWord_append (hname : Wordy name.toList)
    (hrest : Text.Stops isIdentifierChar rest.toList) : behindWord (name ++ rest) = rest.toList := by
  rw [behindWord, String.toList_append, Text.dropWhile_append_stops hname hrest]

/-- A name is read behind a head. -/
theorem read?_named (htext : text = head ++ (name ++ rest)) (hname : Wordy name.toList)
    (hrest : Text.Stops isIdentifierChar rest.toList) :
    (Reader.named head).read? text.toList = some name := by
  rw [htext, String.toList_append]
  refine (Reader.read?_append (r := .named head) _).trans ?_
  show some (firstWord (name ++ rest)) = _
  rw [firstWord_append hname hrest]

end

/-! ## Locals -/

/-- The name that a line of Rust binds. -/
def boundInRust? (text : String) : Option String :=
  (Reader.named "let ").read? text.toList >>= fun name =>
    if name = "mut" then (Reader.named "let mut ").read? text.toList else some name

/-- The name that a line of Swift binds. -/
def boundInSwift? (text : String) : Option String :=
  ((Reader.named "var ").read? text.toList).or ((Reader.named "let ").read? text.toList)

/-- Words of Java that no declaration starts with. -/
def javaStatements : List String := ["throw", "return"]

/-- What a line of Java that catches something starts with. -/
def catching : String := "\x7d catch ("

/-- The name that a line of Java binds. -/
def boundInJava? (text : String) : Option String :=
  let s := text.toList
  if catching.toList <+: s then some (String.ofList (lastWord (s.take (s.length - 3))))
  else
    let behind := (s.dropWhile (· != ' ')).drop 1
    if String.ofList (s.takeWhile (· != ' ')) ∉ javaStatements ∧
        " = ".toList <+: behind.dropWhile isIdentifierChar then
      some (String.ofList (behind.takeWhile isIdentifierChar))
    else none

section

variable {name rest text : String}

theorem boundInRust?_let (hname : Wordy name.toList) (hrest : Text.Stops isIdentifierChar rest.toList)
    (hne : name ≠ "mut") : boundInRust? ("let " ++ (name ++ rest)) = some name := by
  rw [boundInRust?, read?_named rfl hname hrest]
  exact if_neg hne

theorem boundInRust?_letMut (hname : Wordy name.toList)
    (hrest : Text.Stops isIdentifierChar rest.toList) :
    boundInRust? ("let mut " ++ (name ++ rest)) = some name := by
  have hmut : "let mut " ++ (name ++ rest) = "let " ++ ("mut" ++ (" " ++ (name ++ rest))) := by
    have hhead : "let mut " = "let " ++ ("mut" ++ " ") := by decide
    rw [hhead]
    simp only [String.append_assoc]
  have hblank : Text.Stops isIdentifierChar (" " ++ (name ++ rest)).toList :=
    stops_append (by decide) _
  rw [boundInRust?, read?_named hmut (by decide) hblank, read?_named rfl hname hrest]
  rfl

/-- A line that starts with another word, or goes on otherwise behind it. -/
theorem boundInRust?_eq_none (h : firstWord text ≠ "let" ∨ (behindWord text).head? ≠ some ' ') :
    boundInRust? text = none := by
  have hother : ¬ "let ".toList <+: text.toList := by
    rintro ⟨more, hmore⟩
    rcases h with h | h
    · refine h ?_
      rw [firstWord, ← hmore]
      rfl
    · refine h ?_
      rw [behindWord, ← hmore]
      rfl
  rw [boundInRust?, Reader.read?_eq_none hother]
  rfl

theorem boundInSwift?_var (hname : Wordy name.toList)
    (hrest : Text.Stops isIdentifierChar rest.toList) :
    boundInSwift? ("var " ++ (name ++ rest)) = some name := by
  rw [boundInSwift?, read?_named rfl hname hrest]
  rfl

theorem boundInSwift?_let (hname : Wordy name.toList)
    (hrest : Text.Stops isIdentifierChar rest.toList) :
    boundInSwift? ("let " ++ (name ++ rest)) = some name := by
  have hother : ¬ "var ".toList <+: ("let " ++ (name ++ rest)).toList := by
    have happart : Apart "var " "let " := by decide
    exact (happart.append _).1
  rw [boundInSwift?, Reader.read?_eq_none hother, read?_named rfl hname hrest]
  rfl

theorem boundInSwift?_eq_none (hvar : Apart "var " text) (hlet : Apart "let " text) :
    boundInSwift? text = none := by
  rw [boundInSwift?, Reader.read?_eq_none hvar.1, Reader.read?_eq_none hlet.1]
  rfl

/-- A line of Java with a first word. -/
theorem boundInJava?_eq {word : String} (hword : ' ' ∉ word.toList)
    (hcatch : Apart catching (word ++ (" " ++ rest))) : boundInJava? (word ++ (" " ++ rest)) =
      if word ∉ javaStatements ∧ " = ".toList <+: behindWord rest then some (firstWord rest)
      else none := by
  have hread : (word ++ (" " ++ rest)).toList = word.toList ++ ' ' :: rest.toList := by
    simp only [String.toList_append]
    rfl
  have hsolid : ∀ c ∈ word.toList, (c != ' ') = true := fun c hc =>
    bne_iff_ne.2 fun heq => hword (heq ▸ hc)
  have hstops : Text.Stops (· != ' ') (' ' :: rest.toList) := Text.stops_cons.2 rfl
  unfold boundInJava?
  dsimp only
  rw [if_neg hcatch.1, hread, Text.dropWhile_append_stops hsolid hstops,
    Text.takeWhile_append_stops hsolid hstops, String.ofList_toList, List.drop_one, List.tail_cons]
  rfl

/-- A declaration: a type, a name and a value. -/
theorem boundInJava?_declaration {type : String} (htype : ' ' ∉ type.toList)
    (hstatement : type ∉ javaStatements) (hcatch : Apart catching type) (hname : Wordy name.toList) :
    boundInJava? (type ++ (" " ++ (name ++ (" = " ++ rest)))) = some name := by
  have hstops : Text.Stops isIdentifierChar (" = " ++ rest).toList := stops_append (by decide) _
  rw [boundInJava?_eq htype (hcatch.append _), firstWord_append hname hstops,
    behindWord_append hname hstops, String.toList_append]
  exact if_pos ⟨hstatement, List.prefix_append _ _⟩

/-- A line that throws or returns something. -/
theorem boundInJava?_statement {word : String} (h : word ∈ javaStatements) :
    boundInJava? (word ++ (" " ++ rest)) = none := by
  obtain ⟨hsolid, hcatch⟩ := (by decide : ∀ w ∈ javaStatements, ' ' ∉ w.toList ∧ Apart catching w) word h
  rw [boundInJava?_eq hsolid (hcatch.append _)]
  exact if_neg fun hboth => hboth.1 h

/-- What is caught. -/
theorem boundInJava?_catch (type : String) :
    boundInJava? (catching ++ (type ++ " e) \x7b")) = some "e" := by
  have hread : (catching ++ (type ++ " e) \x7b")).toList =
      (catching.toList ++ (type.toList ++ [' ', 'e'])) ++ [')', ' ', '\x7b'] := by
    simp only [String.toList_append, List.append_assoc]
    rfl
  have hprefix : catching.toList <+: (catching ++ (type ++ " e) \x7b")).toList := by
    rw [String.toList_append]
    exact List.prefix_append _ _
  have htake : ((catching.toList ++ (type.toList ++ [' ', 'e'])) ++ [')', ' ', '\x7b']).take
      (((catching.toList ++ (type.toList ++ [' ', 'e'])) ++ [')', ' ', '\x7b']).length - 3) =
      (catching.toList ++ type.toList ++ [' ']) ++ ['e'] := by
    rw [List.length_append]
    show List.take (_ + 3 - 3) _ = _
    rw [Nat.add_sub_cancel, List.take_left]
    simp only [List.append_assoc, List.cons_append, List.nil_append]
  have hblank : ∀ c ∈ (catching.toList ++ type.toList ++ [' ']).getLast?, c = ' ' := by
    intro c hc
    rw [List.getLast?_append] at hc
    exact (Option.some.inj hc).symm
  unfold boundInJava?
  dsimp only
  rw [if_pos hprefix, hread, htake, lastWord_append hblank (by decide)]

end

/-! ## Scopes -/

/-- What a body binds: its parameters, and its locals, each with the line that binds it. -/
structure Scope where
  parameters : List String
  locals : List (String × String)

/-- The texts of the lines that stand in a block. -/
def textsWithin (ls : List Line) : List String := (ls.filter (0 < ·.depth)).map (·.text)

/-- The names that are bound, each with the line that binds it. -/
def boundBy (bound? : String → Option String) (texts : List String) : List (String × String) :=
  texts.filterMap fun text => (bound? text).map fun name => (name, text)

/-- The name of a parameter of Rust or Swift: there is a colon behind it. -/
def parameterName? (text : String) : Option String :=
  if ": ".toList <+: behindWord text then some (firstWord text) else none

/-- The parameters that the first line of a function declares. -/
def signatureOf (ls : List Line) : List String := parametersIn ((textsAt 0 ls).headD "")

/-- What stands behind the parentheses that close first. -/
def behindParens (text : String) : String :=
  String.ofList ((text.toList.dropWhile (· != ')')).drop 1)

/-- The labels of the tuple that a function of Swift is declared to return, if it is one. -/
def tupleLabels (ls : List Line) : List String :=
  (parametersIn (behindParens ((textsAt 0 ls).headD ""))).filterMap parameterName?

/-- What a field of a class of Java starts with. -/
def fieldHead : String := "public final "

/-- The field that a line of Java declares: its name ends the line, but for the semicolon. -/
def fieldName? (text : String) : Option String :=
  if fieldHead.toList <+: text.toList then some (String.ofList (lastWord text.toList.dropLast)) else none

/-- The fields that a class of Java declares. -/
def classFields (ls : List Line) : List String := (textsAt 1 ls).filterMap fieldName?

/-- What a function of Rust binds that declares its parameters line by line. -/
def linewiseScope (ls : List Line) : Scope :=
  ⟨(textsAt 1 ls).filterMap parameterName?, boundBy boundInRust? (textsWithin ls)⟩

/-- What a function of Rust binds that declares its parameters on one line. -/
def rustScope (ls : List Line) : Scope :=
  ⟨(signatureOf ls).filterMap parameterName?, boundBy boundInRust? (textsWithin ls)⟩

/-- What a function of Swift binds. -/
def swiftScope (ls : List Line) : Scope :=
  ⟨(signatureOf ls).filterMap parameterName?, boundBy boundInSwift? (textsWithin ls)⟩

/-- What a method of Java binds. -/
def javaScope (ls : List Line) : Scope :=
  ⟨(signatureOf ls).map fun text => String.ofList (lastWord text.toList),
    boundBy boundInJava? (textsWithin ls)⟩

section

variable {ls : List Line} {bound? : String → Option String} {texts : List String}

@[simp] theorem textsWithin_nil : textsWithin [] = [] := rfl

@[simp] theorem textsWithin_append (ls ms : List Line) :
    textsWithin (ls ++ ms) = textsWithin ls ++ textsWithin ms := by
  rw [textsWithin, List.filter_append, List.map_append]
  rfl

@[simp] theorem textsWithin_indent : textsWithin (indent ls) = ls.map (·.text) := by
  have hall : (indent ls).filter (0 < ·.depth) = indent ls :=
    List.filter_eq_self.2 (List.forall_mem_map.2 fun l _ => by simp)
  rw [textsWithin, hall, indent, List.map_map]
  rfl

@[simp] theorem textsWithin_line (text : String) : textsWithin (line text :: ls) = textsWithin ls := rfl

@[simp] theorem textsWithin_gap : textsWithin (gap :: ls) = textsWithin ls := rfl

@[simp] theorem text_line (text : String) : (line text).text = text := rfl

@[simp] theorem map_text_indent : (indent ls).map (·.text) = ls.map (·.text) := by
  rw [indent, List.map_map]
  rfl

@[simp] theorem map_text_lines (texts : List String) : (Source.lines texts).map (·.text) = texts := by
  rw [Source.lines, List.map_map]
  exact List.map_id _

theorem boundBy_append (texts more : List String) :
    boundBy bound? (texts ++ more) = boundBy bound? texts ++ boundBy bound? more :=
  List.filterMap_append

theorem boundBy_map_fst (texts : List String) :
    (boundBy bound? texts).map Prod.fst = texts.filterMap bound? := by
  rw [boundBy, List.map_filterMap]
  refine List.filterMap_congr fun text _ => ?_
  cases bound? text <;> rfl

/-- Lines that bind nothing. -/
theorem boundBy_eq_nil (h : ∀ text ∈ texts, bound? text = none) : boundBy bound? texts = [] :=
  List.filterMap_eq_nil_iff.2 fun text ht => by rw [h text ht]; rfl

/-- Lines that bind one name each. -/
theorem boundBy_map {α : Type} {xs : List α} {text name : α → String}
    (h : ∀ x ∈ xs, bound? (text x) = some (name x)) :
    boundBy bound? (xs.map text) = xs.map fun x => (name x, text x) := by
  rw [boundBy, List.filterMap_map, ← List.filterMap_eq_map]
  exact List.filterMap_congr fun x hx => by
    show (bound? (text x)).map _ = _
    rw [h x hx]
    rfl

theorem parameterName?_append {name rest : String} (hname : Wordy name.toList) :
    parameterName? (name ++ (": " ++ rest)) = some name := by
  have hstops : Text.Stops isIdentifierChar (": " ++ rest).toList := stops_append (by decide) _
  rw [parameterName?, behindWord_append hname hstops, firstWord_append hname hstops,
    String.toList_append]
  exact if_pos (List.prefix_append _ _)

/-- Without parentheses there are no parameters. -/
theorem parametersIn_eq_nil {text : String} (h : '(' ∉ text.toList) : parametersIn text = [] := by
  have hall : ∀ c ∈ text.toList, (c != '(') = true := fun c hc =>
    bne_iff_ne.2 fun heq => h (heq ▸ hc)
  have hnone : text.toList.dropWhile (· != '(') = [] := List.dropWhile_eq_nil_iff.2 hall
  rw [parametersIn, inFirstParens, hnone]
  rfl

theorem behindParens_append {before after : String} {texts : List String}
    (hbefore : ')' ∉ before.toList) (htexts : ∀ t ∈ texts, ListItem t) :
    behindParens (before ++ (inParens (commas texts) ++ after)) = after := by
  have hfree : ')' ∉ (commas texts).toList :=
    notMem_commas (by decide) fun t ht => (htexts t ht).noClosing
  have hopen : ∀ c ∈ before.toList ++ '(' :: (commas texts).toList, (c != ')') = true := by
    refine List.forall_mem_append.2 ⟨fun c hc => ?_, List.forall_mem_cons.2 ⟨rfl, fun c hc => ?_⟩⟩
    · exact bne_iff_ne.2 fun heq => hbefore (heq ▸ hc)
    · exact bne_iff_ne.2 fun heq => hfree (heq ▸ hc)
  have hread : (before ++ (inParens (commas texts) ++ after)).toList =
      (before.toList ++ '(' :: (commas texts).toList) ++ ')' :: after.toList := by
    rw [toList_parens, List.append_assoc, List.cons_append]
  rw [behindParens, hread, Text.dropWhile_append_stops hopen (Text.stops_cons.2 rfl), List.drop_one,
    List.tail_cons, String.ofList_toList]

/-- The field of a declaration. -/
theorem fieldName?_declaration {name : String} (type : String) (hname : ' ' ∉ name.toList) :
    fieldName? (fieldHead ++ (type ++ (" " ++ (name ++ ";")))) = some name := by
  have hread : (fieldHead ++ (type ++ (" " ++ (name ++ ";")))).toList =
      ((fieldHead.toList ++ (type.toList ++ [' '])) ++ name.toList) ++ [';'] := by
    simp only [String.toList_append, List.append_assoc]
    rfl
  have hblank : ∀ c ∈ (fieldHead.toList ++ (type.toList ++ [' '])).getLast?, c = ' ' := by
    intro c hc
    rw [← List.append_assoc, List.getLast?_append] at hc
    exact (Option.some.inj hc).symm
  have hhead : fieldHead.toList <+: (fieldHead ++ (type ++ (" " ++ (name ++ ";")))).toList := by
    rw [String.toList_append]
    exact List.prefix_append _ _
  rw [fieldName?, if_pos hhead, hread, List.dropLast_concat, lastWord_append hblank hname,
    String.ofList_toList]

/-- Where a text goes on behind its first word with something else than a blank, it is no field. -/
theorem fieldName?_eq_none {text : String} (h : (behindWord text).head? ≠ some ' ') :
    fieldName? text = none := by
  refine if_neg ?_
  rintro ⟨more, hmore⟩
  refine h ?_
  rw [behindWord, ← hmore]
  rfl

end

namespace Scope

/-- The names that are bound. -/
def names (scope : Scope) : List String := scope.parameters ++ scope.locals.map Prod.fst

/-- The functions that turn what is in a slot into something that was checked. -/
def checkers : List String := ["ffi_input", "ffi_output", "ffi_enum", "u8::try_from", "u16::try_from"]

/-- `scope.OnceChecked` — no parameter is declared twice and no local bound twice, and a line that binds
a parameter again binds it to what a check makes of this very parameter. -/
structure OnceChecked (scope : Scope) : Prop where
  parameters : scope.parameters.Nodup
  locals : (scope.locals.map Prod.fst).Nodup
  again : ∀ x ∈ scope.locals, x.1 ∈ scope.parameters →
    ∃ checker ∈ checkers, ∃ args, callIn? x.2 = some (checker, x.1 :: args)

end Scope

end Bindery.Source
