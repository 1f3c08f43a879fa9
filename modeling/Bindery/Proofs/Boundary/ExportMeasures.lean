/-
  LENGTHS IN USE: what the exported layer checks.

  Wherever a layer needs the length of a slot it states it, by a constant or by a number.  The
  statements are of few forms, each with a reader of its own; read off the lines of a file they name
  the slots of its functions in order, and what they state comes to the size of the type of the slot.

  The exported layer has three forms, one for bytes that are read, one for bytes that are filled and
  one for numbers of variants.  They start alike, so each reader has to pass over the other two.
-/
import Bindery.Proofs.Boundary.Lengths
import Bindery.Proofs.Source.Measured

namespace Bindery

open Naming Source

/-! ## Texts of lengths -/

/-- `Tight text` — nothing in the text ends a length. -/
def Tight (text : String) : Prop :=
  ∀ c ∈ text.toList, isIdentifierChar c = true ∨ c = ':' ∨ c = '.'

instance (text : String) : Decidable (Tight text) :=
  decidable_of_iff (text.toList.all fun c => isIdentifierChar c || c == ':' || c == '.')
    (by simp [Tight, or_assoc])

namespace Tight

variable {a b text : String}

theorem append (ha : Tight a) (hb : Tight b) : Tight (a ++ b) := by
  unfold Tight
  rw [String.toList_append]
  exact List.forall_mem_append.2 ⟨ha, hb⟩

theorem of_wordy (h : Wordy text.toList) : Tight text := fun c hc => Or.inl (h c hc)

theorem natural (n : Nat) : Tight (Decimal.integer n) := .of_wordy (wordy_natural n)

theorem notMem (h : Tight text) {c : Char} (hc : isIdentifierChar c = false) (hcolon : c ≠ ':')
    (hdot : c ≠ '.') : c ∉ text.toList := by
  intro hmem
  rcases h c hmem with h | h | h
  · rw [hc] at h
    nomatch h
  · exact hcolon h
  · exact hdot h

end Tight

section

variable {t : TypeDef} {constant : String → String} {scope : List (String × Int)}

theorem tight_size (h : Tight (constant t.name)) : Tight (t.size.spell constant) := by
  unfold TypeDef.size
  split
  · exact h
  · exact .natural _

/-- However the size of a type is spelled, it comes to its number of bytes. -/
theorem lengthIn_size {c : Char} (hc : c ∈ (constant t.name).toList) (hdigit : c.isDigit = false)
    (hscope : t.isBuffer = true → scope.lookup (constant t.name) = some (t.byteSize : Int)) :
    lengthIn scope (t.size.spell constant) = some (t.byteSize : Int) := by
  obtain ⟨name, shape, placement⟩ := t
  cases shape with
  | buffer size =>
    show lengthIn scope (constant name) = _
    rw [lengthIn_constant scope hc hdigit]
    exact hscope rfl
  | scalar w => exact lengthIn_natural scope _
  | enum variants => exact lengthIn_natural scope _

end

/-! ## The exported layer -/

/-- What is checked of bytes that are read. -/
def inputChecks : Reader (String × String) := .bounded "let " " = unsafe \x7b ffi_input(" ')'

/-- What is checked of bytes that are filled. -/
def outputChecks : Reader (String × String) := .bounded "let " " = unsafe \x7b ffi_output(" ')'

/-- What is checked of numbers of variants. -/
def countChecks : Reader (String × String) := .bounded "let " " = ffi_enum(" ')'

namespace SlotCheck

/-- The slot that is checked. -/
def slot : SlotCheck → String
  | input slot _ => slot
  | output slot _ => slot
  | variant slot _ => slot

/-- What stands between the slot and what it is checked with. -/
def opening : SlotCheck → String
  | input _ _ => " = unsafe \x7b ffi_input("
  | output _ _ => " = unsafe \x7b ffi_output("
  | variant _ _ => " = ffi_enum("

/-- What the slot is checked with besides its bound. -/
def before : SlotCheck → String
  | input slot _ => slot ++ ", " ++ lengthSlot slot ++ ", "
  | output slot _ => slot ++ ", " ++ lengthSlot slot ++ ", "
  | variant slot _ => slot ++ ", "

/-- The text of the bound. -/
def bound : SlotCheck → String
  | input _ size => exportedSize size
  | output _ size => exportedSize size
  | variant _ type => fromSafeLayer (countConstant type)

/-- What stands behind the bound. -/
def after : SlotCheck → String
  | input _ _ => ")? \x7d;"
  | output _ _ => ")? \x7d;"
  | variant _ _ => ")?;"

theorem statement_eq (c : SlotCheck) :
    c.statement = "let " ++ (c.slot ++ (c.opening ++ (c.before ++ (c.bound ++ c.after)))) := by
  have htwo : ∀ a b : String, commas [a, b] = a ++ ", " ++ b := fun a b => by
    rw [commas, String.intercalate_cons_cons, String.intercalate_singleton]
  have hthree : ∀ a b c : String, commas [a, b, c] = a ++ ", " ++ (b ++ ", " ++ c) := fun a b c => by
    rw [commas, String.intercalate_cons_cons]
    exact congrArg _ (htwo b c)
  have hinput : " = unsafe \x7b ffi_input(" =
      " = unsafe " ++ (Source.opening ++ (" " ++ ("ffi_input" ++ "("))) := by decide
  have houtput : " = unsafe \x7b ffi_output(" =
      " = unsafe " ++ (Source.opening ++ (" " ++ ("ffi_output" ++ "("))) := by decide
  have hafter : ")? \x7d;" = ")" ++ ("?" ++ (" " ++ (closing ++ ";"))) := by decide
  have hvariant : " = ffi_enum(" = " = ffi_enum" ++ "(" := by decide
  have hshort : ")?;" = ")" ++ "?;" := by decide
  cases c <;>
    simp only [statement, slot, opening, before, bound, after, inBraces, inParens, htwo, hthree,
      hinput, houtput, hafter, hvariant, hshort, String.append_assoc]

theorem opening_stops (c : SlotCheck) :
    Text.Stops isIdentifierChar c.opening.toList ∧ c.opening.toList ≠ [] := by
  have hmem : c.opening ∈ [" = unsafe \x7b ffi_input(", " = unsafe \x7b ffi_output(",
      " = ffi_enum("] := by
    cases c <;> simp [opening]
  revert hmem
  exact (by decide : ∀ o ∈ [" = unsafe \x7b ffi_input(", " = unsafe \x7b ffi_output(", " = ffi_enum("],
    Text.Stops isIdentifierChar o.toList ∧ o.toList ≠ []) c.opening

theorem after_head (c : SlotCheck) : c.after.toList.head? = some ')' := by
  have hmem : c.after ∈ [")? \x7d;", ")?;"] := by
    cases c <;> simp [after]
  revert hmem
  exact (by decide : ∀ o ∈ [")? \x7d;", ")?;"], o.toList.head? = some ')') c.after

theorem read?_opening {c : SlotCheck} (hslot : Wordy c.slot.toList) (hbound : Tight c.bound) :
    (Reader.bounded "let " c.opening ')').read? c.statement.toList = some (c.slot, c.bound) := by
  have hlength : ')' ∉ (lengthSlot c.slot).toList := by
    unfold lengthSlot
    rw [String.toList_append, List.mem_append, not_or]
    exact ⟨hslot.notMem (by decide), by decide⟩
  have hfree : ')' ∉ c.before.toList := by
    have hown := hslot.notMem (c := ')') (by decide)
    cases c <;>
      simp +decide only [before, slot, String.toList_append, List.mem_append] at hown hlength ⊢ <;>
      simp +decide [hown, hlength]
  have hblank : ∀ d ∈ c.before.toList.getLast?, d = ' ' := by
    have hlast : c.before.toList.getLast? = some ' ' := by
      cases c <;> exact getLast?_toList_append _ (by decide)
    intro d hd
    rw [hlast] at hd
    exact (Option.some.inj hd).symm
  exact Reader.read?_bounded c.before c.bound c.after c.statement_eq hslot c.opening_stops.1
    c.opening_stops.2 hblank ⟨hfree, hbound.notMem (by decide) (by decide) (by decide)⟩
    (hbound.notMem (by decide) (by decide) (by decide)) c.after_head

theorem ignores_opening {c : SlotCheck} {mid : String} (hslot : Wordy c.slot.toList)
    (h : Apart mid c.opening) : (Reader.bounded "let " mid ')').Ignores c.statement :=
  Reader.read?_bounded_other c.opening (c.before ++ (c.bound ++ c.after)) c.statement_eq hslot
    c.opening_stops.1 c.opening_stops.2 h

end SlotCheck

/-- `a.Known m` — an argument with a name and a type of the model, that travels as its type asks. -/
structure Argument.Known (m : Model) (a : Argument) : Prop where
  name : Wordy a.name.toList
  type : a.type ∈ m.types
  fits : a.Fits

theorem Model.WellFormed.known {m : Model} (hm : m.WellFormed) {f : Function} (hf : f ∈ m.functions)
    {a : Argument} (ha : a ∈ f.arguments) : a.Known m := by
  have hw := hm.function hf
  rcases Function.mem_arguments.1 ha with ⟨p, hp, rfl⟩ | ⟨t, ht, rfl⟩
  · obtain ⟨hname, htype⟩ := hw.parameters p hp
    exact ⟨wordy_of_plain (plain_of_isMemberName hname.1), htype, p.argument_fits⟩
  · exact ⟨(by decide : Wordy resultSlot.toList), hw.returns t ht,
      ⟨fun w h => (nomatch h), fun h => (nomatch h)⟩⟩

/-- Names that no list and no statement takes for something else. -/
theorem Model.WellFormed.free_name {m : Model} (hm : m.WellFormed) {f : Function}
    (hf : f ∈ m.functions) {a : Argument} (ha : a ∈ f.arguments) :
    a.name ≠ "" ∧ isReserved a.name = false := by
  rcases Function.mem_arguments.1 ha with ⟨p, hp, rfl⟩ | ⟨t, _, rfl⟩
  · obtain ⟨hmember, hfree⟩ := ((hm.function hf).parameters p hp).1
    refine ⟨fun hempty => ?_, hfree⟩
    rw [show p.name = "" from hempty] at hmember
    exact absurd hmember (by decide)
  · exact ⟨(by decide : resultSlot ≠ ""), (by decide : isReserved resultSlot = false)⟩

theorem ne_of_isReserved {name word : String} (h : isReserved name = false)
    (hword : isReserved word = true) : name ≠ word := by
  rintro rfl
  rw [h] at hword
  nomatch hword

/-- Whether a number of variants is read. -/
def Argument.isCount (a : Argument) : Bool := !a.isFilled && a.type.isEnum

/-- What is picked from a list and looked up is what is looked up of what is picked. -/
theorem filterMap_of_ite {α β : Type} {as : List α} {g : α → Option β} {q : α → Bool} {h : α → β}
    (hg : ∀ a ∈ as, g a = if q a then some (h a) else none) :
    as.filterMap g = (as.filter q).map h := by
  induction as with
  | nil => rfl
  | cons a as ih =>
    obtain ⟨ha, has⟩ := List.forall_mem_cons.1 hg
    cases hq : q a with
    | true =>
      rw [hq, if_pos rfl] at ha
      rw [List.filterMap_cons_some ha, List.filter_cons_of_pos hq, List.map_cons, ih has]
    | false =>
      rw [hq, if_neg Bool.false_ne_true] at ha
      rw [List.filterMap_cons_none ha, List.filter_cons_of_neg (by rw [hq]; exact Bool.false_ne_true),
        ih has]

/-- The order of the checks does not matter to one kind of them. -/
theorem filter_readFirst {as : List Argument} {q : Argument → Bool} (filled : Bool)
    (h : ∀ a, q a = true → a.isFilled = filled) : (readFirst as).filter q = as.filter q := by
  have hsame : ∀ b : Bool, (as.filter fun a => a.isFilled == b).filter q =
      if b = filled then as.filter q else [] := by
    intro b
    rw [List.filter_filter]
    split
    · rename_i hb
      refine List.filter_congr fun a _ => ?_
      cases hq : q a with
      | false => rfl
      | true => rw [h a hq, hb, beq_self_eq_true, Bool.and_true]
    · rename_i hb
      refine List.filter_eq_nil_iff.2 fun a _ hboth => hb ?_
      obtain ⟨hq, hfilled⟩ := Bool.and_eq_true_iff.1 hboth
      rw [← h a hq, beq_iff_eq.1 hfilled]
  have hread : readFirst as =
      (as.filter fun a => a.isFilled == false) ++ as.filter fun a => a.isFilled == true := by
    unfold readFirst
    refine congrArg₂ _ (List.filter_congr fun a _ => ?_) (List.filter_congr fun a _ => ?_) <;>
      cases a.isFilled <;> rfl
  rw [hread, List.filter_append, hsame, hsame]
  cases filled <;> simp

section

variable {s : Setting} {m : Model} {f : Function}

/-- A slot has the name of its argument, or is the length of it. -/
theorem exists_of_mem_slots {slot : Slot} (hslot : slot ∈ f.slots) :
    ∃ a ∈ f.arguments, slot.name = a.name ∨ slot.name = lengthSlot a.name := by
  obtain ⟨a, ha, hslot⟩ := List.mem_flatMap.1 hslot
  have hall : ∀ x ∈ a.slots, x.name = a.name ∨ x.name = lengthSlot a.name := by
    unfold Argument.slots
    cases a.passing <;> simp
  exact ⟨a, ha, hall slot hslot⟩

theorem Model.WellFormed.wordy_slot (hm : m.WellFormed) (hf : f ∈ m.functions) {slot : Slot}
    (hslot : slot ∈ f.slots) : Wordy slot.name.toList := by
  obtain ⟨a, ha, h⟩ := exists_of_mem_slots hslot
  have hname := (hm.known hf ha).name
  rcases h with h | h
  · rw [h]
    exact hname
  · rw [h, lengthSlot, String.toList_append]
    exact hname.append (by decide)

/-- The statements of an export behind its checks. -/
def Export.conclusion (e : Export) : List String :=
  (match e.stored with
    | some store =>
      ["let " ++ resultLabel ++ " = " ++ e.call ++ ";", store.statement resultSlot resultLabel]
    | none => [e.call ++ ";"]) ++ ["Ok(())"]

/-- Behind its checks an export states no bounds. -/
theorem ignores_conclusion (e : Export) {mid : String} (h : Apart mid " = simpleapi::") :
    ∀ text ∈ e.conclusion, (Reader.bounded "let " mid ')').Ignores text := by
  have hcall : Apart "let " e.call := by
    have happart : Apart "let " "simpleapi::" := by decide
    exact (((happart.append _).append _).append _)
  have hok : (Reader.bounded "let " mid ')').Ignores "Ok(())" :=
    .of_apart (by decide : Apart "let " "Ok(())")
  unfold Export.conclusion
  cases e.stored with
  | none => exact List.forall_mem_cons.2 ⟨.of_apart (hcall.append ";"), List.forall_mem_singleton.2 hok⟩
  | some store =>
    refine List.forall_mem_cons.2 ⟨?_, List.forall_mem_cons.2 ⟨?_, List.forall_mem_singleton.2 hok⟩⟩
    · have hequals : " = simpleapi::" = " = " ++ "simpleapi::" := by decide
      have hread : "let " ++ resultLabel ++ " = " ++ e.call ++ ";" =
          "let " ++ (resultLabel ++ (" = simpleapi::" ++ (e.callee ++
            inParens (commas (e.passed.map (·.expression))) ++ ".map_err(ffi_return_code)?" ++ ";"))) := by
        rw [hequals]
        simp only [Export.call, fromSafeLayer, String.append_assoc]
      exact Reader.read?_bounded_other _ _ hread (by decide) (by decide) (by decide) h
    · have happart : Apart "let " resultSlot := by decide
      refine .of_apart ?_
      show Apart "let " (store.statement resultSlot resultLabel)
      cases store with
      | bytes => exact ((happart.append _).append _).append _
      | byte => exact ((happart.append _).append _).append _
      | littleEndian => exact ((happart.append _).append _).append _

/-- A slot does not look like a statement, not even one that is called `let`: there is a colon behind
its name. -/
theorem ignoresAll_slots (hm : m.WellFormed) (hf : f ∈ m.functions) (mid : String) :
    (Reader.bounded "let " mid ')').IgnoresAll (f.exported.slots.map fun x =>
      line (x.1 ++ ": " ++ x.2.rust ++ ",")) := by
  refine .map (List.forall_mem_map.2 fun slot hslot => ?_)
  have hhead : "let ".toList = "let".toList ++ ' ' :: [] := by decide
  have htext : (slot.name ++ ": " ++ slot.kind.rust ++ ",").toList =
      slot.name.toList ++ ':' :: (" ".toList ++ slot.kind.rust.toList ++ ",".toList) := by
    simp only [String.toList_append, List.append_assoc]
    rfl
  exact .of_word hhead htext (by decide) (hm.wordy_slot hf hslot) (by decide) (by decide) (by decide)

/-- Among the statements of an export only its checks state bounds. -/
theorem found_statements (e : Export) {mid : String} (h : Apart mid " = simpleapi::") :
    (Reader.bounded "let " mid ')').found (Source.lines e.statements) =
      (Reader.bounded "let " mid ')').found (e.checks.map fun c => line c.statement) := by
  have hrest : (Reader.bounded "let " mid ')').IgnoresAll (Source.lines e.conclusion) :=
    List.forall_mem_map.2 (ignores_conclusion _ h)
  have hsplit : Source.lines e.statements =
      e.checks.map (fun c => line c.statement) ++ Source.lines e.conclusion := by
    unfold Export.statements Source.lines Export.conclusion
    rw [List.append_assoc, List.map_append, List.map_map]
    rfl
  rw [hsplit, Reader.found_append, hrest.found, List.append_nil]

/-- Besides its checks an export states no bounds. -/
theorem found_exported (hm : m.WellFormed) (hf : f ∈ m.functions) {mid : String}
    (h : Apart mid " = simpleapi::") : (Reader.bounded "let " mid ')').found f.exported.lines =
      (Reader.bounded "let " mid ')').found (f.exported.checks.map fun c => line c.statement) := by
  have hlet : ∀ {start : String}, Apart "let " start → ∀ rest,
      (Reader.bounded "let " mid ')').Ignores (start ++ rest) := fun h rest => .of_apart (h.append rest)
  have htop : (Reader.bounded "let " mid ')').IgnoresAll [line "#[no_mangle]",
      line ("pub extern \"C\" fn " ++ f.exported.symbol ++ "(")] :=
    .cons (.of_apart (by decide : Apart "let " "#[no_mangle]"))
      (.cons (.of_apart (((by decide : Apart "let " "pub extern \"C\" fn ").append _).append _)) .nil)
  have hopen : (Reader.bounded "let " mid ')').IgnoresAll [line (") -> i32 " ++ opening)] :=
    .cons (hlet (by decide) _) .nil
  have hguard : (Reader.bounded "let " mid ')').IgnoresAll [line ("ffi_guard(move || " ++ opening)] :=
    .cons (hlet (by decide) _) .nil
  have hend : (Reader.bounded "let " mid ')').IgnoresAll [line (closing ++ ")")] :=
    .cons (hlet (by decide) _) .nil
  have hlast : (Reader.bounded "let " mid ')').IgnoresAll [line closing, gap] :=
    .cons (.of_apart (by decide : Apart "let " closing))
      (.cons (Reader.read?_nil (by decide : "let ".toList ≠ [])) .nil)
  have hlines : f.exported.lines = [line "#[no_mangle]",
      line ("pub extern \"C\" fn " ++ f.exported.symbol ++ "(")] ++
      (indent (f.exported.slots.map fun x => line (x.1 ++ ": " ++ x.2.rust ++ ",")) ++
      ([line (") -> i32 " ++ opening)] ++ (indent ([line ("ffi_guard(move || " ++ opening)] ++
        (indent (Source.lines f.exported.statements) ++ [line (closing ++ ")")])) ++
        [line closing, gap]))) := by
    simp only [Export.lines, List.cons_append, List.nil_append, List.append_assoc]
  rw [hlines, Reader.found_append, Reader.found_append, Reader.found_append, Reader.found_append,
    Reader.found_indent, Reader.found_indent, Reader.found_append, Reader.found_append,
    Reader.found_indent, htop.found, (ignoresAll_slots hm hf mid).found, hopen.found, hguard.found,
    hend.found, hlast.found, found_statements f.exported h]
  simp only [List.nil_append, List.append_nil]

theorem readFirst_perm (as : List Argument) : (readFirst as).Perm as :=
  List.perm_append_comm.trans (List.filter_append_perm _ _)

theorem mem_readFirst {as : List Argument} {a : Argument} : a ∈ readFirst as ↔ a ∈ as :=
  (readFirst_perm as).mem_iff

/-- One kind of checks, read off those of an export. -/
theorem found_checks {r : Reader (String × String)} {q : Argument → Bool}
    {h : Argument → String × String} (filled : Bool) (hq : ∀ a, q a = true → a.isFilled = filled)
    (hread : ∀ a ∈ f.arguments, (a.check?.bind fun c => r.read? c.statement.toList) =
      if q a then some (h a) else none) :
    r.found (f.exported.checks.map fun c => line c.statement) = (f.arguments.filter q).map h := by
  have hchecks : r.found (f.exported.checks.map fun c => line c.statement) =
      (readFirst f.arguments).filterMap fun a => a.check?.bind fun c => r.read? c.statement.toList := by
    unfold Reader.found
    rw [List.filterMap_map]
    exact List.filterMap_filterMap
  rw [hchecks, filterMap_of_ite fun a ha => hread a (mem_readFirst.1 ha), filter_readFirst filled hq]

end

section

variable {m : Model} {a : Argument}

theorem tight_fromSafeLayer {name : String} (h : Wordy name.toList) : Tight (fromSafeLayer name) := by
  have hlayer : Tight "simpleapi::" := by decide
  exact hlayer.append (.of_wordy h)

theorem Argument.tight_exportedSize (hm : m.WellFormed) (ha : a.Known m) :
    Tight (exportedSize a.type.size) := by
  have hconstant := tight_fromSafeLayer (hm.wordy_lengthConstant ha.type)
  exact tight_size (t := a.type) hconstant

/-- The check that an argument has: one for bytes that are read, one for bytes that are filled, one
for numbers of variants, and none for other numbers. -/
theorem Argument.check?_cases (ha : a.Known m) :
    (a.check? = some (.input a.name a.type.size) ∧
      a.passing = .inBuffer ∧ a.isFilled = false ∧ a.isCount = false) ∨
    (a.check? = some (.output a.name a.type.size) ∧
      a.passing ≠ .inBuffer ∧ a.isFilled = true ∧ a.isCount = false) ∨
    (a.check? = some (.variant a.name a.type.name) ∧
      a.passing ≠ .inBuffer ∧ a.isFilled = false ∧ a.isCount = true) ∨
    (a.check? = none ∧ a.passing ≠ .inBuffer ∧ a.isFilled = false ∧ a.isCount = false) := by
  have hfits := ha.fits
  unfold Argument.check? Argument.isCount Argument.isFilled TypeDef.isEnum
  cases hpass : a.passing with
  | inBuffer =>
    have hwidth := hfits.buffer hpass
    cases hshape : a.type.shape with
    | buffer size => exact .inl ⟨rfl, rfl, rfl, rfl⟩
    | _ =>
      rw [hshape] at hwidth
      nomatch hwidth
  | outBuffer => exact .inr (.inl ⟨rfl, nofun, rfl, rfl⟩)
  | inValue w =>
    cases a.type.shape with
    | enum variants => exact .inr (.inr (.inl ⟨rfl, nofun, rfl, rfl⟩))
    | _ => exact .inr (.inr (.inr ⟨rfl, nofun, rfl, rfl⟩))

theorem Argument.read_input (hm : m.WellFormed) (ha : a.Known m) :
    (a.check?.bind fun c => inputChecks.read? c.statement.toList) =
      if a.passing == .inBuffer then some (a.name, exportedSize a.type.size) else none := by
  have hsize := a.tight_exportedSize hm ha
  rcases a.check?_cases ha with ⟨hcheck, hpass, _⟩ | ⟨hcheck, hpass, _⟩ | ⟨hcheck, hpass, _⟩ |
    ⟨hcheck, hpass, _⟩
  · rw [hcheck, hpass, if_pos (by decide)]
    exact SlotCheck.read?_opening (c := .input a.name a.type.size) ha.name hsize
  · rw [hcheck, if_neg (by simpa using hpass)]
    exact SlotCheck.ignores_opening (c := .output a.name a.type.size) ha.name
      (by decide : Apart " = unsafe \x7b ffi_input(" " = unsafe \x7b ffi_output(")
  · rw [hcheck, if_neg (by simpa using hpass)]
    exact SlotCheck.ignores_opening (c := .variant a.name a.type.name) ha.name
      (by decide : Apart " = unsafe \x7b ffi_input(" " = ffi_enum(")
  · rw [hcheck, if_neg (by simpa using hpass)]
    rfl

theorem Argument.read_output (hm : m.WellFormed) (ha : a.Known m) :
    (a.check?.bind fun c => outputChecks.read? c.statement.toList) =
      if a.isFilled then some (a.name, exportedSize a.type.size) else none := by
  have hsize := a.tight_exportedSize hm ha
  rcases a.check?_cases ha with ⟨hcheck, _, hfilled, _⟩ | ⟨hcheck, _, hfilled, _⟩ |
    ⟨hcheck, _, hfilled, _⟩ | ⟨hcheck, _, hfilled, _⟩ <;> rw [hcheck, hfilled]
  · exact SlotCheck.ignores_opening (c := .input a.name a.type.size) ha.name
      (by decide : Apart " = unsafe \x7b ffi_output(" " = unsafe \x7b ffi_input(")
  · exact SlotCheck.read?_opening (c := .output a.name a.type.size) ha.name hsize
  · exact SlotCheck.ignores_opening (c := .variant a.name a.type.name) ha.name
      (by decide : Apart " = unsafe \x7b ffi_output(" " = ffi_enum(")
  · rfl

theorem Argument.read_count (hm : m.WellFormed) (ha : a.Known m) :
    (a.check?.bind fun c => countChecks.read? c.statement.toList) =
      if a.isCount then some (a.name, fromSafeLayer (countConstant a.type.name)) else none := by
  rcases a.check?_cases ha with ⟨hcheck, _, _, hcount⟩ | ⟨hcheck, _, _, hcount⟩ |
    ⟨hcheck, _, _, hcount⟩ | ⟨hcheck, _, _, hcount⟩ <;> rw [hcheck, hcount]
  · exact SlotCheck.ignores_opening (c := .input a.name a.type.size) ha.name
      (by decide : Apart " = ffi_enum(" " = unsafe \x7b ffi_input(")
  · exact SlotCheck.ignores_opening (c := .output a.name a.type.size) ha.name
      (by decide : Apart " = ffi_enum(" " = unsafe \x7b ffi_output(")
  · exact SlotCheck.read?_opening (c := .variant a.name a.type.name) ha.name
      (tight_fromSafeLayer (hm.wordy_countConstant ha.type))
  · rfl

end

/-! ## What the checks come to -/

/-- The name of a slot and the size of its type. -/
def Argument.measure (a : Argument) : String × Option Int := (a.name, some (a.type.byteSize : Int))

/-- The name of a slot and the number of variants of its type. -/
def Argument.count (a : Argument) : String × Option Int :=
  (a.name, some (a.type.shape.variants.length : Int))

theorem Reader.measured_of_found {α : Type} {r : Reader (String × String)}
    {scope : List (String × Int)} {ls : List Line} {as : List α} {name text : α → String} {n : α → Int}
    (hfound : r.found ls = as.map fun a => (name a, text a))
    (h : ∀ a ∈ as, lengthIn scope (text a) = some (n a)) :
    r.measured scope ls = as.map fun a => (name a, some (n a)) := by
  rw [Reader.measured, hfound]
  exact resolved_map h

namespace Model

/-- The numbers of the safe layer, as the exported layer writes them. -/
def exportScope (m : Model) : List (String × Int) :=
  (headerLengths m ++ enumCounts m).map fun d => (fromSafeLayer d.1, d.2)

variable {m : Model} {t : TypeDef}

theorem mem_headerLengths (ht : t ∈ m.types) (h : t.isBuffer = true) :
    (Naming.lengthConstant t.name, (t.byteSize : Int)) ∈ headerLengths m :=
  List.mem_map.2 ⟨t, List.mem_filter.2 ⟨ht, h⟩, rfl⟩

theorem mem_enumCounts (ht : t ∈ m.types) (h : t.isEnum = true) :
    (Naming.countConstant t.name, (t.shape.variants.length : Int)) ∈ enumCounts m :=
  List.mem_map.2 ⟨t, List.mem_filter.2 ⟨ht, h⟩, rfl⟩

theorem WellFormed.lookup_exportScope (hm : m.WellFormed) {d : String × Int}
    (hd : d ∈ headerLengths m ++ enumCounts m) :
    m.exportScope.lookup (fromSafeLayer d.1) = some d.2 := by
  have hnames : m.exportScope.map Prod.fst =
      ((headerLengths m ++ enumCounts m).map Prod.fst).map fromSafeLayer := by
    unfold exportScope
    rw [List.map_map, List.map_map]
    rfl
  refine lookup_of_mem ?_ (List.mem_map.2 ⟨d, hd, rfl⟩)
  rw [hnames]
  exact hm.nodup_numbers.map fun _ _ => append_left_cancel

end Model

section

variable {s : Setting} {m : Model} {f : Function}

theorem fromSafeLayer_colon (name : String) : ':' ∈ (fromSafeLayer name).toList := by
  unfold fromSafeLayer
  rw [String.toList_append]
  exact List.mem_append_left _ (by decide)

theorem lengthIn_exportScope (hm : m.WellFormed) {t : TypeDef} (ht : t ∈ m.types) :
    lengthIn m.exportScope (exportedSize t.size) = some (t.byteSize : Int) := by
  have hcolon := fromSafeLayer_colon (Naming.lengthConstant t.name)
  unfold exportedSize
  refine lengthIn_size (c := ':') hcolon (by decide) fun h => ?_
  exact hm.lookup_exportScope (d := (Naming.lengthConstant t.name, (t.byteSize : Int)))
    (List.mem_append_left _ (Model.mem_headerLengths ht h))

/-- What an export checks of bytes that are read. -/
theorem measured_inputs (hm : m.WellFormed) (hf : f ∈ m.functions) :
    inputChecks.measured m.exportScope f.exported.lines =
      (f.arguments.filter (·.passing == .inBuffer)).map (·.measure) := by
  have hfilled : ∀ a : Argument, (a.passing == .inBuffer) = true → a.isFilled = false := by
    intro a h
    rw [Argument.isFilled, beq_iff_eq.1 h]
    rfl
  refine Reader.measured_of_found ?_ fun a ha =>
    lengthIn_exportScope hm (hm.known hf (List.mem_filter.1 ha).1).type
  exact (found_exported hm hf (by decide)).trans
    (found_checks false hfilled fun a ha => a.read_input hm (hm.known hf ha))

/-- What an export checks of bytes that are filled. -/
theorem measured_outputs (hm : m.WellFormed) (hf : f ∈ m.functions) :
    outputChecks.measured m.exportScope f.exported.lines =
      (f.arguments.filter (·.isFilled)).map (·.measure) := by
  refine Reader.measured_of_found ?_ fun a ha =>
    lengthIn_exportScope hm (hm.known hf (List.mem_filter.1 ha).1).type
  exact (found_exported hm hf (by decide)).trans
    (found_checks true (fun _ h => h) fun a ha => a.read_output hm (hm.known hf ha))

/-- What an export checks of numbers of variants. -/
theorem measured_counts (hm : m.WellFormed) (hf : f ∈ m.functions) :
    countChecks.measured m.exportScope f.exported.lines =
      (f.arguments.filter (·.isCount)).map (·.count) := by
  have hfound : countChecks.found f.exported.lines = (f.arguments.filter (·.isCount)).map fun a =>
      (a.name, fromSafeLayer (countConstant a.type.name)) :=
    (found_exported hm hf (by decide)).trans (found_checks false
      (fun a h => Bool.not_eq_true' _ ▸ (Bool.and_eq_true_iff.1 h).1)
      fun a ha => a.read_count hm (hm.known hf ha))
  refine Reader.measured_of_found hfound fun a ha => ?_
  obtain ⟨ha, hcount⟩ := List.mem_filter.1 ha
  rw [lengthIn_constant _ (fromSafeLayer_colon (countConstant a.type.name)) (by decide)]
  exact hm.lookup_exportScope
    (d := (Naming.countConstant a.type.name, (a.type.shape.variants.length : Int)))
    (List.mem_append_right _ (Model.mem_enumCounts (hm.known hf ha).type
      (Bool.and_eq_true_iff.1 hcount).2))

/-- What is measured in the file of a module is measured function by function. -/
theorem measured_exportLines (scope : List (String × Int)) (mid : String) (module : Module) :
    (Reader.bounded "let " mid ')').measured scope (exportLines s module) =
      module.functions.flatMap fun f =>
        (Reader.bounded "let " mid ')').measured scope f.exported.lines := by
  have htop : (Reader.bounded "let " mid ')').IgnoresAll (Source.lines
      ["use super::*;", "use " ++ s.options.ffiPath ++ "::simpleapi;", ""]) := by
    refine .cons (.of_apart (by decide : Apart "let " "use super::*;")) (.cons (.of_apart ?_)
      (.cons (Reader.read?_nil (by decide : "let ".toList ≠ [])) .nil))
    have happart : Apart "let " "use " := by decide
    exact (happart.append _).append _
  unfold Reader.measured resolved exportLines
  rw [Reader.found_append, htop.found, List.nil_append, Reader.found_flatMap, List.map_flatMap]

end

end Bindery
