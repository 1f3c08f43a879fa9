/-
  LENGTHS IN WORDS: what becomes of a length on its way to the check.

  A length crosses the boundary in 32 bits.  The glue cuts the length of an array off to them, a Swift
  wrapper converts the size of a value and stops the program if it does not fit, and the check of the
  exported layer compares what arrives with the size of the type, which is any positive number.  So an
  array of exactly the right length passes exactly if that length is below 2 ^ 32 (`lengthsPass_glue`,
  `lengthsPass_swift`), and nothing in a description keeps it there (`ofDescription_key`).

  What is told of a length is read off the calls, what it is compared with off the checks of the export
  and the constants of the safe layer, and what the comparison says off the helpers behind the checks.

  On the Java side the size is an `int` besides, which has one bit less.
-/
import Bindery.Proofs.Boundary.LengthsAgree
import Bindery.Proofs.Boundary.Shim
import Bindery.Proofs.Boundary.VariantNumbers

namespace Bindery

open Naming Source Target

/-! ## What is told of a length -/

/-- A number in so many bits where it has room there; Swift stops the program otherwise. -/
def inBits? (bits : Nat) (v : Int) : Option Nat := if 0 ≤ v ∧ v < 2 ^ bits then some v.toNat else none

/-- The helpers of the glue that give the bytes of an array a local. -/
def bytesHelpers : List String := ["jni_read", "jni_alloc"]

/-- The array whose bytes the glue keeps in a local. -/
def keptArray? (g : List Line) (kept : String) : Option String :=
  ((textsAt 2 g).find? fun text => boundInRust? text == some kept).bind fun text =>
    match callIn? text with
    | some (helper, [_, array]) => if helper ∈ bytesHelpers then some array else none
    | _ => none

/-- What the glue tells of a length in a text, where the arrays have so many bytes: a number of Rust is
cut off to its lowest bits when it is cast. -/
def glueTold? (g : List Line) (bytes : String → Nat) (text : String) : Option Nat :=
  if ".len() as ".toList <+: behindWord text then
    (rustBits.lookup (String.ofList ((behindWord text).drop 10))).bind fun bits =>
      (keptArray? g (firstWord text)).map fun array => bytes array % 2 ^ bits
  else none

/-- What a Swift function tells of a length in a text; its values have the sizes of their types. -/
def swiftTold? (scope : List (String × Int)) (w : List Line) (text : String) : Option Nat :=
  (converted? text).bind fun x => (swiftBits.lookup x.1).bind fun bits =>
    ((meant? w (some x)).bind (lengthIn scope)).bind (inBits? bits)

/-! ## What is checked -/

/-- The helpers that check arrays. -/
def arrayHelpers : List String := ["ffi_input", "ffi_output"]

/-- What arrives in a slot of an export for which so much is told, slot by slot. -/
def arrivedIn? (e : List Line) (told : List (Option Nat)) (slot : String) : Option Nat :=
  ((((typedParameters e).map Prod.fst).zip told).lookup slot).join

/-- `Passes helpers scope arrived call` — one of the helpers hands on what it is called with: a pointer
that is not null, the length that has arrived in a slot and the size that it is compared with. -/
def Passes (helpers : List (List Line)) (scope : List (String × Int)) (arrived : String → Option Nat)
    (call : String × List String) : Prop :=
  ∃ ls ∈ helpers, ∃ pointer slot size, call.2 = [pointer, slot, size] ∧
    answer? ls call.1 [none, arrived slot, (lengthIn scope size).map Int.toNat] = some true

/-- `LengthsPass helpers scope e told` — with these lengths every check of an array in the export lets it
through. -/
def LengthsPass (helpers : List (List Line)) (scope : List (String × Int)) (e : List Line)
    (told : List (Option Nat)) : Prop :=
  ∀ text ∈ textsAt 2 e, ∀ slot call, checkIn? text = some (slot, call) → call.1 ∈ arrayHelpers →
    Passes helpers scope (arrivedIn? e told) call

/-- `f.InWords` — every buffer of the function has a length of 32 bits. -/
def Function.InWords (f : Function) : Prop :=
  ∀ t ∈ f.usedTypes, t.isBuffer = true → t.byteSize < 2 ^ 32

theorem inBits?_eq_some {bits n : Nat} : inBits? bits (n : Int) = some n ↔ n < 2 ^ bits := by
  have hpow : ((2 ^ bits : Nat) : Int) = 2 ^ bits := by push_cast; rfl
  unfold inBits?
  rw [Int.toNat_natCast, Option.ite_none_right_eq_some, ← hpow, Int.ofNat_lt]
  exact ⟨fun h => h.1.2, fun h => ⟨⟨Int.natCast_nonneg n, h⟩, rfl⟩⟩

/-! ## The helpers -/

section

variable {s : Setting} {ls : List Line} {name : String}

/-- The test of the helpers of arrays. -/
def arrayTest : String := "if ptr.is_null() || len as usize != expected \x7b"

/-- A helper of arrays leaves early where its test holds, and its last line hands on. -/
theorem textsWithin_array (hls : ls ∈ [inputHelper s, outputHelper s]) :
    ∃ last, "Ok(".toList <+: last.toList ∧
      textsWithin ls = [arrayTest, "return Err(" ++ s.refused ++ ");", closing, last] := by
  have htest : "if ptr.is_null() || len as usize != expected" ++ " " ++ opening = arrayTest := by decide
  rcases List.mem_pair.1 hls with rfl | rfl
  · refine ⟨"Ok(std::slice::from_raw_parts(ptr, expected).to_vec())", by decide, ?_⟩
    unfold inputHelper pointerCheck
    simp [block, ← htest]
  · refine ⟨"Ok(std::slice::from_raw_parts_mut(ptr, expected))", by decide, ?_⟩
    unfold outputHelper pointerCheck
    simp [block, ← htest]

/-- Without a null pointer, the test asks whether two numbers differ. -/
theorem test?_array {g : Given} (hnull : g.null "ptr" = false) : g.test? arrayTest =
    (g.number "len").bind fun a => (g.number "expected").map fun b => decide (a ≠ b) := by
  have hwords : bareWords arrayTest =
      ["if", "ptr.is_null", "||", "len", "as", "usize", "!=", "expected", "\x7b"] := by decide +kernel
  have hcompare : g.holds? ["len", "as", "usize", "!=", "expected"] =
      (g.number "len").bind fun a => (g.number "expected").map fun b => decide (a ≠ b) := rfl
  have hor : g.holds? ["ptr.is_null", "||", "len", "as", "usize", "!=", "expected"] =
      (g.holds? ["len", "as", "usize", "!=", "expected"]).map fun b => g.null "ptr" || b := rfl
  rw [Given.test?, hwords]
  refine (if_pos rfl).trans (hor.trans ?_)
  rw [hnull, hcompare]
  exact Option.map_id'

/-- A helper of arrays compares two numbers, and hands on the bytes if they are equal. -/
theorem handsOn?_array (hls : ls ∈ [inputHelper s, outputHelper s]) {g : Given}
    (hnull : g.null "ptr" = false) : g.handsOn? ls =
      (g.number "len").bind fun a => (g.number "expected").map fun b => decide (a = b) := by
  obtain ⟨last, hlast, htexts⟩ := textsWithin_array hls
  have hearly : "return ".toList <+: ("return Err(" ++ s.refused ++ ");").toList := by
    rw [String.append_assoc, String.toList_append]
    exact (by decide : "return ".toList <+: "return Err(".toList).trans (List.prefix_append _ _)
  rw [Given.handsOn?_early htexts hearly hlast, test?_array hnull]
  cases g.number "len" with
  | none => rfl
  | some a =>
    cases g.number "expected" with
    | none => rfl
    | some b => simp

/-- The helpers of arrays have their names, and parameters of the same names. -/
theorem heads_array : List.Forall₂
    (fun ls name => helperIn? ((textsAt 0 ls).headD "") = some (name, ["ptr", "len", "expected"]))
    [inputHelper s, outputHelper s] arrayHelpers := by
  unfold inputHelper outputHelper
  refine .cons ?_ (.cons ?_ .nil)
  · rw [textsAt_block_zero]
    decide +kernel
  · rw [textsAt_block_zero]
    decide +kernel

/-- Called by their names, the helpers of arrays hand on what has the right length. -/
theorem answer?_array {helper : String} (hhelper : helper ∈ arrayHelpers) {len expected : Option Nat} :
    (∃ ls ∈ [inputHelper s, outputHelper s], answer? ls helper [none, len, expected] = some true) ↔
      ∃ n, len = some n ∧ expected = some n := by
  have hanswer : ∀ {ls : List Line} {name : String}, ls ∈ [inputHelper s, outputHelper s] →
      helperIn? ((textsAt 0 ls).headD "") = some (name, ["ptr", "len", "expected"]) →
      answer? ls helper [none, len, expected] = if name = helper then
        len.bind fun a => expected.map fun b => decide (a = b) else none := by
    intro ls name hls hhead
    rw [answer?, hhead, Option.bind_some]
    split
    · rw [handsOn?_array hls rfl]
      have hlen : ((["ptr", "len", "expected"].zip [none, len, expected]).lookup "len").join = len :=
        Option.join_some
      have hexpected :
          ((["ptr", "len", "expected"].zip [none, len, expected]).lookup "expected").join = expected :=
        Option.join_some
      dsimp only
      rw [hlen, hexpected]
    · rfl
  have hequal : (len.bind fun a => expected.map fun b => decide (a = b)) = some true ↔
      ∃ n, len = some n ∧ expected = some n := by
    cases len with
    | none => simp
    | some a =>
      cases expected with
      | none => simp
      | some b => simp [eq_comm]
  rw [← hequal]
  constructor
  · rintro ⟨ls, hls, h⟩
    obtain ⟨name, _, hhead⟩ := exists_mem_of_forall₂ heads_array ls hls
    rw [hanswer hls hhead] at h
    exact (Option.ite_none_right_eq_some.1 h).2
  · intro h
    obtain ⟨ls, hls, hhead⟩ := exists_mem_of_forall₂ heads_array.flip helper hhelper
    exact ⟨ls, hls, (hanswer hls hhead).trans ((if_pos rfl).trans h)⟩

end

/-! ## The checks of a function -/

section

variable {s : Setting} {m : Model} {f : Function} {a : Argument}

theorem Argument.slot_mem (ha : a ∈ f.arguments) (h : a.isPointed = true) :
    (⟨lengthSlot a.name, .length, a⟩ : Slot) ∈ f.slots := by
  refine List.mem_flatMap.2 ⟨a, ha, ?_⟩
  unfold Argument.slots
  unfold Argument.isPointed at h
  cases hpass : a.passing with
  | inValue w =>
    rw [hpass] at h
    nomatch h
  | _ => exact List.mem_cons_of_mem _ (List.mem_singleton_self _)

/-- What is told of a slot arrives in it, for no two slots have one name. -/
theorem arrivedIn?_eq (hm : m.WellFormed) (hf : f ∈ m.functions) (told : Slot → Option Nat)
    {slot : Slot} (hslot : slot ∈ f.slots) :
    arrivedIn? f.exported.lines (f.slots.map told) slot.name = told slot := by
  have hzip : ((typedParameters f.exported.lines).map Prod.fst).zip (f.slots.map told) =
      f.slots.map fun slot => (slot.name, told slot) := by
    rw [typedParameters_exported hm hf, List.map_map]
    exact List.zip_map'
  have hnodup : ((f.slots.map fun slot => (slot.name, told slot)).map Prod.fst).Nodup := by
    rw [List.map_map]
    have hnative := (hm.function hf).native
    rw [← f.slots_map_name] at hnative
    exact hnative
  unfold arrivedIn?
  rw [hzip, lookup_of_mem hnodup (List.mem_map.2 ⟨slot, hslot, rfl⟩)]
  rfl

/-- Arrays are checked by a helper that is handed the slot of the length and the size. -/
theorem Argument.told_pointed (h : a.isPointed = true) : ∃ c helper, a.check? = some c ∧
    helper ∈ arrayHelpers ∧
      c.told = (a.name, helper, [a.name, lengthSlot a.name, exportedSize a.type.size]) := by
  unfold isPointed at h
  unfold check?
  cases hpassing : a.passing with
  | inBuffer => exact ⟨_, "ffi_input", rfl, by decide, rfl⟩
  | outBuffer => exact ⟨_, "ffi_output", rfl, by decide, rfl⟩
  | inValue w =>
    rw [hpassing] at h
    nomatch h

/-- What a helper of arrays checks is an array. -/
theorem Argument.isPointed_of_told {c : SlotCheck} (hc : a.check? = some c)
    (h : c.told.2.1 ∈ arrayHelpers) : a.isPointed = true := by
  unfold isPointed
  unfold check? at hc
  cases hpassing : a.passing with
  | inValue w =>
    rw [hpassing] at hc
    cases hshape : a.type.shape with
    | enum variants =>
      rw [hshape] at hc
      cases hc
      exact absurd h (by decide : "ffi_enum" ∉ arrayHelpers)
    | _ =>
      rw [hshape] at hc
      nomatch hc
  | _ => rfl

/-- What a line of the export checks is the check of an argument. -/
theorem exists_checkIn? (hm : m.WellFormed) (hf : f ∈ m.functions) {text : String}
    (htext : text ∈ textsAt 2 f.exported.lines) {x : String × String × List String}
    (hx : checkIn? text = some x) : ∃ a ∈ f.arguments, ∃ c, a.check? = some c ∧ c.told = x := by
  have horder := exportInOrder hm hf "" ""
  rw [horder.cut.split] at htext
  rcases List.mem_append.1 htext with hfront | hback
  · have hdue : some x ∈ f.dueChecks.map some := by
      rw [← horder.checks]
      exact List.mem_map.2 ⟨text, hfront, hx⟩
    rw [← f.told_checks, List.map_map] at hdue
    obtain ⟨c, hc, htold⟩ := List.mem_map.1 hdue
    obtain ⟨a, ha, hcheck⟩ := List.mem_filterMap.1 hc
    exact ⟨a, mem_readFirst.1 ha, c, hcheck, Option.some.inj htold⟩
  · rw [horder.checked text hback] at hx
    nomatch hx

/-- The check of an array lets it through exactly if what has arrived is its size. -/
theorem passes_iff (hm : m.WellFormed) (hf : f ∈ m.functions) (ha : a ∈ f.arguments)
    (hpointed : a.isPointed = true) {helper : String} (hhelper : helper ∈ arrayHelpers)
    (told : Slot → Option Nat) :
    Passes [inputHelper s, outputHelper s] m.exportScope (arrivedIn? f.exported.lines (f.slots.map told))
        (helper, [a.name, lengthSlot a.name, exportedSize a.type.size]) ↔
      told ⟨lengthSlot a.name, .length, a⟩ = some a.type.byteSize := by
  have hvalues : [none, arrivedIn? f.exported.lines (f.slots.map told) (lengthSlot a.name),
      (lengthIn m.exportScope (exportedSize a.type.size)).map Int.toNat] =
        [none, told ⟨lengthSlot a.name, .length, a⟩, some a.type.byteSize] := by
    have harrived := arrivedIn?_eq hm hf told (Argument.slot_mem ha hpointed)
    rw [harrived, lengthIn_exportScope hm (hm.known hf ha).type]
    rfl
  have hanswer : (∃ ls ∈ [inputHelper s, outputHelper s], answer? ls helper
      [none, told ⟨lengthSlot a.name, .length, a⟩, some a.type.byteSize] = some true) ↔
        told ⟨lengthSlot a.name, .length, a⟩ = some a.type.byteSize := by
    rw [answer?_array hhelper]
    constructor
    · rintro ⟨n, htold, hn⟩
      rw [htold, hn]
    · exact fun h => ⟨_, h, rfl⟩
  rw [← hanswer, ← hvalues]
  constructor
  · rintro ⟨ls, hls, _, _, _, heq, h⟩
    cases heq
    exact ⟨ls, hls, h⟩
  · rintro ⟨ls, hls, h⟩
    exact ⟨ls, hls, _, _, _, rfl, h⟩

/-- The checks let all arrays through exactly if for each of them what has arrived is its size. -/
theorem lengthsPass_iff (hm : m.WellFormed) (hf : f ∈ m.functions) (told : Slot → Option Nat) :
    LengthsPass [inputHelper s, outputHelper s] m.exportScope f.exported.lines (f.slots.map told) ↔
      ∀ a ∈ f.arguments, a.isPointed = true →
        told ⟨lengthSlot a.name, .length, a⟩ = some a.type.byteSize := by
  constructor
  · intro h a ha hpointed
    obtain ⟨c, helper, hc, hhelper, htold⟩ := Argument.told_pointed hpointed
    obtain ⟨hslot, hargs⟩ := a.listItems hm (hm.known hf ha) (hm.free_name hf ha).1 hc
    have hread : checkIn? c.statement =
        some (a.name, helper, [a.name, lengthSlot a.name, exportedSize a.type.size]) := by
      rw [SlotCheck.checkIn?_statement hslot hargs, htold]
    have hmem : c.statement ∈ textsAt 2 f.exported.lines := by
      rw [(exportInOrder hm hf "" "").cut.split]
      exact List.mem_append_left _ (check_mem_front ha hc)
    exact (passes_iff hm hf ha hpointed hhelper told).1 (h _ hmem _ _ hread hhelper)
  · intro h text htext slot call hread hhelper
    obtain ⟨a, ha, c, hc, htold⟩ := exists_checkIn? hm hf htext hread
    have hpointed : a.isPointed = true := Argument.isPointed_of_told hc (by rw [htold]; exact hhelper)
    obtain ⟨c', helper, hc', hhelper', htold'⟩ := Argument.told_pointed hpointed
    obtain rfl := Option.some.inj (hc.symm.trans hc')
    rw [htold] at htold'
    cases htold'
    exact (passes_iff hm hf ha hpointed hhelper' told).2 (h a ha hpointed)

/-- Only buffers can be long. -/
theorem byteSize_lt {t : TypeDef} (h : t.isBuffer = false) : t.byteSize < 2 ^ 32 := by
  unfold TypeDef.isBuffer at h
  unfold TypeDef.byteSize
  cases hshape : t.shape with
  | buffer size =>
    rw [hshape] at h
    nomatch h
  | scalar w => cases w <;> decide
  | enum variants => exact (by decide : 1 < 2 ^ 32)

/-- The types that a function uses are those of its arguments. -/
theorem Function.mem_usedTypes {t : TypeDef} : t ∈ f.usedTypes ↔ ∃ a ∈ f.arguments, a.type = t := by
  constructor
  · intro ht
    rcases List.mem_append.1 ht with hparameter | hresult
    · obtain ⟨p, hp, rfl⟩ := List.mem_map.1 hparameter
      exact ⟨p.argument, argument_mem hp, rfl⟩
    · exact ⟨_, mem_arguments.2 (Or.inr ⟨t, Option.mem_toList.1 hresult, rfl⟩), rfl⟩
  · rintro ⟨a, ha, rfl⟩
    rcases mem_arguments.1 ha with ⟨p, hp, rfl⟩ | ⟨t, ht, rfl⟩
    · exact List.mem_append_left _ (List.mem_map.2 ⟨p, hp, rfl⟩)
    · exact List.mem_append_right _ (Option.mem_toList.2 ht)

/-- A buffer never goes by value. -/
theorem isPointed_of_isBuffer (hm : m.WellFormed) (hf : f ∈ m.functions) (ha : a ∈ f.arguments)
    (h : a.type.isBuffer = true) : a.isPointed = true := by
  unfold Argument.isPointed
  cases hpassing : a.passing with
  | inValue w =>
    have hwidth := (hm.known hf ha).fits.value w hpassing
    unfold TypeDef.isBuffer at h
    cases hshape : a.type.shape with
    | buffer size =>
      rw [hshape] at hwidth
      nomatch hwidth
    | _ =>
      rw [hshape] at h
      nomatch h
  | _ => rfl

/-- Arrays are buffers, or hold a number or a variant in a few bytes. -/
theorem inWords_iff (hm : m.WellFormed) (hf : f ∈ m.functions) : f.InWords ↔
    ∀ a ∈ f.arguments, a.isPointed = true → a.type.byteSize < 2 ^ 32 := by
  constructor
  · intro h a ha _
    cases hbuffer : a.type.isBuffer with
    | true => exact h a.type (Function.mem_usedTypes.2 ⟨a, ha, rfl⟩) hbuffer
    | false => exact byteSize_lt hbuffer
  · intro h t ht hbuffer
    obtain ⟨a, ha, rfl⟩ := Function.mem_usedTypes.1 ht
    exact h a ha (isPointed_of_isBuffer hm hf ha hbuffer)

/-! ## Through the glue -/

/-- A step for bytes calls a helper with the array. -/
theorem callIn?_bytes {front kept name helper : String} (hfront : '(' ∉ front.toList)
    (hkept : Wordy kept.toList) (hname : Wordy name.toList) (hne : name ≠ "")
    (hhelper : helper ∈ bytesHelpers) :
    callIn? (front ++ kept ++ (" = " ++ helper ++ "(&env, ") ++ name ++ ")?;") =
      some (helper, ["&env", name]) := by
  have hword : Wordy helper.toList := (by decide : ∀ h ∈ bytesHelpers, Wordy h.toList) helper hhelper
  have hread : front ++ kept ++ (" = " ++ helper ++ "(&env, ") ++ name ++ ")?;" =
      (front ++ kept ++ " = ") ++ (helper ++ (inParens (commas ["&env", name]) ++ "?;")) := by
    have hopen : "(&env, " = "(" ++ ("&env" ++ ", ") := by decide
    have hclose : ")?;" = ")" ++ "?;" := by decide
    have hcommas : commas ["&env", name] = "&env" ++ (", " ++ name) := by
      unfold commas
      rw [String.intercalate_cons_cons, String.intercalate_singleton, String.append_assoc]
    rw [hopen, hclose, hcommas, inParens]
    simp only [String.append_assoc]
  refine callIn?_eq _ "?;" hread ?_
    (stops_reverse (getLast?_toList_append (c := ' ') _ (by decide)) (by decide))
    (isPathChar_of_wordy hword) ?_
  · simp +decide only [String.toList_append, List.mem_append, hfront, hkept.notMem (c := '(') (by decide),
      or_self, not_false_eq_true]
  · exact List.forall_mem_cons.2 ⟨⟨⟨'&', _, rfl, by decide⟩, by decide, by decide⟩,
      List.forall_mem_singleton.2 (.of_wordy hname hne)⟩

/-- The line that binds the local of a step is the step. -/
theorem find?_step (hm : m.WellFormed) (hf : f ∈ m.functions) (s : Setting) (package : String)
    {step : GlueStep} (hstep : step ∈ (f.glue package).steps) :
    (textsAt 2 ((f.glue package).lines s)).find? (fun text => boundInRust? text == some step.binds) =
      some (step.statement s) := by
  obtain ⟨rest, hrest⟩ := f.steps_prefix s package
  obtain ⟨front, back, hsteps⟩ := List.append_of_mem hstep
  have hnodup := nodup_steps hm hf package
  rw [hsteps, List.map_append, List.map_cons] at hnodup
  refine List.find?_eq_some_iff_append.2 ⟨?_, front.map (·.statement s),
    back.map (·.statement s) ++ rest, ?_, List.forall_mem_map.2 fun other hother => ?_⟩
  · rw [GlueStep.boundInRust?_statement hm hf hstep]
    exact beq_self_eq_true _
  · rw [← hrest, hsteps, List.map_append, List.map_cons, List.append_assoc, List.cons_append]
  · have hmem : other ∈ (f.glue package).steps := by
      rw [hsteps]
      exact List.mem_append_left _ hother
    have hne : other.binds ≠ step.binds :=
      (List.nodup_append.1 hnodup).2.2 _ (List.mem_map.2 ⟨other, hother, rfl⟩) _ List.mem_cons_self
    rw [GlueStep.boundInRust?_statement hm hf hmem]
    simpa using hne

/-- A step that calls a helper for bytes keeps those of the array that it hands to the helper. -/
theorem keptArray?_step (hm : m.WellFormed) (hf : f ∈ m.functions) (s : Setting) (package : String)
    {step : GlueStep} (hstep : step ∈ (f.glue package).steps) {helper array : String}
    (hcall : callIn? (step.statement s) = some (helper, ["&env", array]))
    (hhelper : helper ∈ bytesHelpers) :
    keptArray? ((f.glue package).lines s) step.binds = some array := by
  unfold keptArray?
  rw [find?_step hm hf s package hstep, Option.bind_some, hcall]
  exact if_pos hhelper

/-- Of every array the glue keeps the bytes. -/
theorem keptArray?_glue (hm : m.WellFormed) (hf : f ∈ m.functions) (s : Setting) (package : String)
    (ha : a ∈ f.arguments) (h : a.isPointed = true) :
    keptArray? ((f.glue package).lines s) (bufferLocal a.name) = some a.name := by
  have hname := (hm.known hf ha).name
  have hlocal := wordy_bufferLocal hname
  have hne := (hm.free_name hf ha).1
  have hmem : ∀ {step}, a.glueStep? = some step → step ∈ (f.glue package).steps :=
    fun hstep => List.mem_filterMap.2 ⟨a, ha, hstep⟩
  unfold Argument.isPointed at h
  unfold Argument.glueStep? at hmem
  cases hpass : a.passing with
  | inBuffer =>
    rw [hpass] at hmem
    have hcall : callIn? ((GlueStep.read a.name).statement s) = some ("jni_read", ["&env", a.name]) := by
      have hread : " = jni_read(&env, " = " = " ++ "jni_read" ++ "(&env, " := by decide
      unfold GlueStep.statement
      rw [hread]
      exact callIn?_bytes (by decide) hlocal hname hne (by decide)
    exact keptArray?_step hm hf s package (hmem rfl) hcall (by decide)
  | outBuffer =>
    rw [hpass] at hmem
    have hcall : callIn? ((GlueStep.allocate a.name).statement s) =
        some ("jni_alloc", ["&env", a.name]) := by
      have halloc : " = jni_alloc(&env, " = " = " ++ "jni_alloc" ++ "(&env, " := by decide
      unfold GlueStep.statement
      rw [halloc]
      exact callIn?_bytes (by decide) hlocal hname hne (by decide)
    exact keptArray?_step hm hf s package (hmem rfl) hcall (by decide)
  | inValue w =>
    rw [hpass] at h
    nomatch h

/-- The glue tells of each array how many bytes it has, cut off to 32 bits. -/
theorem glue_told (hm : m.WellFormed) (hf : f ∈ m.functions) (s : Setting) (package : String)
    (bytes : String → Nat) : ((f.glue package).passed.map (·.expression)).map
        (glueTold? ((f.glue package).lines s) bytes) =
      f.slots.map fun slot =>
        if slot.kind = .length then some (bytes slot.argument.name % 2 ^ 32) else none := by
  have hpassed : (f.glue package).passed.map (·.expression) =
      f.arguments.flatMap fun a => a.glueArgs.map (·.expression) := List.map_flatMap
  rw [hpassed, List.map_flatMap]
  show _ = (f.arguments.flatMap (·.slots)).map _
  rw [List.map_flatMap]
  refine List.flatMap_congr fun a ha => ?_
  have hname := (hm.known hf ha).name
  have hlocal := wordy_bufferLocal hname
  have hother : ∀ {kept : String} (rest), Wordy kept.toList → Text.Stops isIdentifierChar rest.toList →
      ¬ ".len() as ".toList <+: rest.toList →
      glueTold? ((f.glue package).lines s) bytes (kept ++ rest) = none := fun _ hkept hrest h => by
    refine if_neg ?_
    rwa [behindWord_append hkept hrest]
  have hlength : a.isPointed = true → glueTold? ((f.glue package).lines s) bytes
      (bufferLocal a.name ++ ".len() as u32") = some (bytes a.name % 2 ^ 32) := by
    intro hpointed
    unfold glueTold?
    rw [behindWord_append hlocal (by decide), firstWord_append hlocal (by decide),
      keptArray?_glue hm hf s package ha hpointed]
    rfl
  unfold Argument.isPointed at hlength
  unfold Argument.glueArgs Argument.slots
  cases hpass : a.passing with
  | inBuffer =>
    rw [hpass] at hlength
    exact congrArg₂ (fun x y => [x, y]) (hother ".as_ptr()" hlocal (by decide) (by decide))
      (hlength rfl)
  | outBuffer =>
    rw [hpass] at hlength
    exact congrArg₂ (fun x y => [x, y]) (hother ".as_mut_ptr()" hlocal (by decide) (by decide))
      (hlength rfl)
  | inValue w =>
    have hplain := hother "" hname (by decide) (by decide)
    rw [String.append_empty] at hplain
    have hcast : glueTold? ((f.glue package).lines s) bytes (a.name ++ " as " ++ w.rust) = none := by
      rw [String.append_assoc]
      refine hother _ hname (stops_append (by decide) _) ?_
      rw [String.toList_append]
      exact fun hp => absurd (List.cons_prefix_cons.1 hp).1 (by decide)
    dsimp only
    split
    · exact congrArg (fun x => [x]) hplain
    · exact congrArg (fun x => [x]) hcast

/-- **Through the glue**, arrays of exactly the right lengths pass if and only if these have 32 bits. -/
theorem lengthsPass_glue (hm : m.WellFormed) (hf : f ∈ m.functions) (package : String)
    {bytes : String → Nat}
    (hbytes : ∀ a ∈ f.arguments, a.isPointed = true → bytes a.name = a.type.byteSize) :
    LengthsPass [inputHelper s, outputHelper s] m.exportScope f.exported.lines
        (((f.glue package).passed.map (·.expression)).map (glueTold? ((f.glue package).lines s) bytes)) ↔
      f.InWords := by
  rw [glue_told hm hf, lengthsPass_iff hm hf, inWords_iff hm hf]
  refine forall₂_congr fun a ha => forall_congr' fun hpointed => ?_
  rw [if_pos rfl, hbytes a ha hpointed, Option.some_inj]
  omega

/-! ## From Swift -/

/-- A Swift function tells of each length in 32 bits, if there is room. -/
theorem swift_told (hm : m.WellFormed) (hf : f ∈ m.functions) (s : Setting) :
    (f.swift.passed.map (·.expression)).map (swiftTold? m.classScope (f.swift.lines s)) =
      f.slots.map fun slot => slot.length?.bind (inBits? 32) := by
  have hlengths := congrArg (List.map fun x : Option Int => x.bind (inBits? 32)) (swiftLengths hm hf s)
  rw [List.map_map, List.map_map, List.map_map] at hlengths
  rw [List.map_map]
  refine Eq.trans (List.map_congr_left fun x hx => ?_) hlengths
  obtain ⟨a, ha, hx⟩ := List.mem_flatMap.1 hx
  have htype : converted? x.expression = none ∨
      ∃ text, converted? x.expression = some ("UInt32", text) := by
    have hmem : converted? x.expression ∈ (a.swiftArgs.map (·.expression)).map converted? :=
      List.mem_map.2 ⟨_, List.mem_map.2 ⟨x, hx, rfl⟩, rfl⟩
    rw [converted?_swiftArgs hm hf ha] at hmem
    cases hpass : a.passing with
    | inValue w =>
      rw [hpass] at hmem
      exact Or.inl (List.mem_singleton.1 hmem)
    | _ =>
      rw [hpass] at hmem
      exact (List.mem_pair.1 hmem).imp_right fun h => ⟨_, h⟩
  dsimp only [Function.comp_apply]
  unfold swiftTold? swiftLength?
  rcases htype with h | ⟨text, h⟩ <;> rw [h] <;> rfl

/-- **From Swift**, values of exactly the right sizes pass if and only if these have 32 bits. -/
theorem lengthsPass_swift (hm : m.WellFormed) (hf : f ∈ m.functions) :
    LengthsPass [inputHelper s, outputHelper s] m.exportScope f.exported.lines
        ((f.swift.passed.map (·.expression)).map (swiftTold? m.classScope (f.swift.lines s))) ↔
      f.InWords := by
  rw [swift_told hm hf, lengthsPass_iff hm hf, inWords_iff hm hf]
  refine forall₂_congr fun a _ => forall_congr' fun _ => ?_
  have hlength : (⟨lengthSlot a.name, .length, a⟩ : Slot).length? = some (a.type.byteSize : Int) :=
    if_pos rfl
  rw [hlength, Option.bind_some, inBits?_eq_some]

end

/-! ## Sizes that are accepted -/

/-- A description with a buffer of so many bytes and a function that takes one. -/
def keyEntries (size : Nat) : List (Value × Value) :=
  [(.str "types", .list [.map [(.str "name", .str "Key"), (.str "kind", .str "buffer"),
      (.str "size", .int size)]]),
    (.str "modules", .list [.map [(.str "name", .str "vault"), (.str "functions", .list
      [.map [(.str "name", .str "open"),
        (.str "params", .list [.map [(.str "name", .str "key"), (.str "type", .str "Key")]])]])]])]

/-- The model of the description. -/
def keyModel (size : Nat) : Model :=
  ⟨[⟨"Key", .buffer size, none⟩], [⟨"vault",
    [⟨"open", "vault", [⟨"key", ⟨"Key", .buffer size, none⟩, .input⟩], none, false⟩]⟩]⟩

/-- Any positive number is a size. -/
theorem ofDescription_key {size : Nat} (h : 0 < size) :
    Model.ofDescription (keyEntries size) = .ok (keyModel size) := by
  have hkey : TypeNamed ["vault"] "Key" := by
    unfold TypeNamed
    decide +kernel
  have hopen : MemberNamed "open" ∧ MemberNamed "key" := by
    unfold MemberNamed
    decide +kernel
  have hvault : ModuleSpelled "vault" := by
    unfold ModuleSpelled
    decide +kernel
  refine ofDescription_eq_ok.2 ⟨⟨_, _, rfl, ?_, rfl, ?_⟩, ?_⟩
  · exact .cons ⟨_, rfl, rfl, rfl, rfl, rfl⟩ .nil
  · refine .cons ⟨_, _, rfl, rfl, rfl, .cons ⟨_, _, rfl, rfl, rfl, ?_, Or.inl rfl, Or.inr ⟨rfl, rfl⟩⟩ .nil⟩
      .nil
    exact .cons ⟨_, rfl, rfl, Or.inl rfl, rfl⟩ .nil
  · refine ⟨List.forall_mem_singleton.2 hvault, List.nodup_singleton _,
      ⟨List.forall_mem_singleton.2 ⟨hkey, fun _ h => (nomatch h), fun h => (nomatch h), h⟩,
        List.pairwise_singleton _ _⟩, List.forall_mem_singleton.2
      ⟨List.forall_mem_singleton.2 ⟨⟨hopen.1, List.forall_mem_singleton.2
        ⟨hopen.2, List.mem_singleton_self _⟩, List.pairwise_singleton _ _, fun _ h => (nomatch h), ?_⟩,
          rfl⟩, List.pairwise_singleton _ _⟩⟩
    show ["key", "keyLen"].Nodup
    decide

/-! ## The functions of a model -/

/-- `LengthsCross m helpers scope f e g w` — the lines are those of export, glue and wrapper of the
function, and by what they say, arrays and values of exactly the right sizes pass the checks if and only
if the buffers of the function have lengths of 32 bits. -/
structure LengthsCross (m : Model) (helpers : List (List Line)) (scope : List (String × Int))
    (f : Function) (e g w : List Line) : Prop where
  exported : (Reader.declaring exportHead).readAt 0 e = [f.coreSymbol]
  glue : ∃ passed, spreadCall? "code" (textsWithin g) = some (f.coreSymbol, passed) ∧
    ∀ bytes : String → Nat,
      (∀ a ∈ f.arguments, a.isPointed = true → bytes a.name = a.type.byteSize) →
        (LengthsPass helpers scope e (passed.map (glueTold? g bytes)) ↔ f.InWords)
  callee : (Reader.declaring "let ffiResult = ").readWithin w = [f.coreSymbol]
  swift : ∃ passed, exportCalls.readWithin w = [passed] ∧
    (LengthsPass helpers scope e (passed.map (swiftTold? m.classScope w)) ↔ f.InWords)

theorem lengthsCross {m : Model} {f : Function} (hm : m.WellFormed) (hf : f ∈ m.functions) (s : Setting)
    (package : String) : LengthsCross m [inputHelper s, outputHelper s] m.exportScope f f.exported.lines
      ((f.glue package).lines s) (f.swift.lines s) where
  exported := by
    rw [Reader.readAt_declaring]
    exact declared_exported (hm.named hf)
  glue := ⟨_, spreadCall?_glue hm hf s package, fun _ hbytes => lengthsPass_glue hm hf package hbytes⟩
  callee := swiftCallee_within hm hf s
  swift := ⟨_, exportCalls_within hm hf s, lengthsPass_swift hm hf⟩

/-- `LengthsTold s m core jvm swift` — all this is said in the files of the three targets: by the exports
and the helpers behind their checks, the constants that they compare with, the glue and the Swift
wrappers; and the Java classes say the sizes. -/
structure LengthsTold (s : Setting) (m : Model) (core jvm swift : List Source.File) : Prop where
  functions : ∃ safe root helpers glue, Emitted core s "simpleapi/simpleapi.rs" safe ∧
    Emitted core s "ffiapi/ffiapi.rs" root ∧ (∀ ls ∈ helpers, ls <:+: root) ∧
    Emitted jvm s "ffiapijava/ffiapijava.rs" glue ∧
    (∀ t ∈ m.bufferTypes,
      line ("pub const " ++ t.lengthConstant ++ ": usize = " ++ Decimal.integer t.byteSize ++ ";") ∈ safe) ∧
    ∀ module ∈ m.modules, ∃ exports wrappers,
      Emitted core s ("ffiapi/ffiapi_" ++ module.name ++ ".rs") exports ∧
      Emitted swift s ("swift/" ++ moduleClass module.name ++ ".swift") wrappers ∧
      ∀ f ∈ module.functions, ∃ e g w, e <:+: exports ∧ g <:+: glue ∧ indent w <:+: wrappers ∧
        LengthsCross m helpers (borrowedNumbers safe) f e g w
  sizes : ∀ t ∈ m.bufferTypes, ∃ body, Emitted jvm s (javaTypeFile (m.homeModule t) t.name) body ∧
    ⟨1, "public static final int SIZE = " ++ Decimal.integer t.byteSize ++ ";"⟩ ∈ body

/-- The helpers of arrays stand in the root of the exported layer. -/
theorem infix_exportRoot {s : Setting} {m : Model} :
    ∀ ls ∈ [inputHelper s, outputHelper s], ls <:+: exportRootLines s m := by
  refine List.forall_mem_cons.2 ⟨?_, List.forall_mem_singleton.2 ?_⟩
  · exact ((List.suffix_cons _ _).trans (List.suffix_append _ _)).isInfix.trans
      ((List.prefix_append _ _).trans (List.prefix_append _ _)).isInfix
  · exact ((List.suffix_cons _ _).trans (List.suffix_append _ _)).isInfix.trans
      (List.prefix_append _ _).isInfix

theorem lengthsTold {m : Model} {o : Options} {t : ErrorTable} {core jvm swift : List Source.File}
    (hm : m.WellFormed) (hcore : Target.core.emit m o t = .ok core)
    (hjvm : Target.jvm.emit m o t = .ok jvm) (hswift : Target.swift.emit m o t = .ok swift) :
    ∃ s : Setting, s.For o t ∧ LengthsTold s m core jvm swift := by
  obtain ⟨s, hs, refused, library, hv, rfl, rfl, rfl⟩ := emit_targets hcore hjvm hswift
  refine ⟨s, hs, ?_⟩
  constructor
  case functions =>
    have hscope : borrowedNumbers (safeLines s m refused) = m.exportScope := by
      rw [borrowedNumbers, readAt_safeLines hm s refused]
      rfl
    refine ⟨safeLines s m refused, exportRootLines s m, [inputHelper s, outputHelper s], glueLines s m,
      emitted_of_last (List.forall_mem_nil _), emitted_core hm hv List.mem_cons_self, infix_exportRoot,
      emitted_glueFile library, fun t ht => length_mem_safeLines ht, fun module hmodule => ?_⟩
    refine ⟨exportLines s module, swiftModuleLines s module, ?_,
      emitted_swiftModuleFile hm.spelled hm.distinct hmodule, fun f hf => ?_⟩
    · rw [← exportPath module.name]
      exact emitted_exportModule hm.distinct refused hmodule
    · have hmem : f ∈ m.functions := Model.mem_functions.2 ⟨module, hmodule, hf⟩
      have hexport := infix_flatMap (fun f : Function => f.exported.lines) hf
      have hglue := infix_flatMap (fun f : Function => (f.glue s.options.javaPackage).lines s) hmem
      rw [hscope]
      exact ⟨_, _, _, hexport.trans (List.suffix_append _ _).isInfix,
        hglue.trans (List.suffix_append _ _).isInfix, swift_infix hf, lengthsCross hm hmem s _⟩
  case sizes =>
    intro t ht
    refine ⟨_, emitted_javaClass hm library (List.mem_append_left _ (bufferClass_mem ht)), ?_⟩
    refine List.mem_cons_of_mem _ (List.mem_cons_of_mem _ (List.mem_append_right _
      (mem_block (l := line ("public static final int SIZE = " ++ Decimal.integer t.byteSize ++ ";"))
        ?_ _)))
    exact List.mem_append_left _ (List.mem_cons_of_mem _ List.mem_cons_self)

/-- **What lengths cross.**  Any positive number is accepted as the size of a buffer.  By what is said in
the files, arrays and values of exactly the right sizes pass the checks of a function, through the glue
as from Swift, if and only if its buffers are shorter than 2 ^ 32 bytes; and the size of a buffer is a
Java `int` if and only if it is at most 2 ^ 31 - 1. -/
theorem lengths_cross_words {es : List (Value × Value)} {m : Model} {o : Options} {t : ErrorTable}
    {core jvm swift : List Source.File} (hm : Model.ofDescription es = .ok m)
    (hcore : Target.core.emit m o t = .ok core) (hjvm : Target.jvm.emit m o t = .ok jvm)
    (hswift : Target.swift.emit m o t = .ok swift) :
    (∀ size, 0 < size → Model.ofDescription (keyEntries size) = .ok (keyModel size)) ∧
    (∀ t ∈ m.bufferTypes, IsSigned 32 (t.byteSize : Int) ↔ t.byteSize ≤ 2 ^ 31 - 1) ∧
    ∃ s : Setting, s.For o t ∧ LengthsTold s m core jvm swift := by
  have hw : m.WellFormed := (ofDescription_eq_ok.1 hm).2
  refine ⟨fun _ h => ofDescription_key h, fun t _ => ?_, lengthsTold hw hcore hjvm hswift⟩
  unfold IsSigned
  omega

/-- With `2 ^ 32` bytes an array of the right length is refused, and so is a value. -/
theorem lengths_cross_words_long : ∃ m f core jvm swift s helpers scope e g w,
    Model.ofDescription (keyEntries (2 ^ 32)) = .ok m ∧ f ∈ m.functions ∧
    LengthsTold s m core jvm swift ∧ LengthsCross m helpers scope f e g w ∧
    (∃ passed, spreadCall? "code" (textsWithin g) = some (f.coreSymbol, passed) ∧
      ¬ LengthsPass helpers scope e (passed.map (glueTold? g fun _ => 2 ^ 32))) ∧
    (∃ passed, exportCalls.readWithin w = [passed] ∧
      ¬ LengthsPass helpers scope e (passed.map (swiftTold? m.classScope w))) ∧
    ∃ t ∈ m.bufferTypes, ¬ IsSigned 32 (t.byteSize : Int) := by
  have hm := ofDescription_key (by decide : 0 < 2 ^ 32)
  obtain ⟨core, hcore⟩ : ∃ fs, Target.core.emit (keyModel (2 ^ 32)) .standard .standard = .ok fs :=
    exists_eq_ok (by decide +kernel)
  obtain ⟨jvm, hjvm⟩ : ∃ fs, Target.jvm.emit (keyModel (2 ^ 32)) .standard .standard = .ok fs :=
    exists_eq_ok (by decide +kernel)
  obtain ⟨swift, hswift⟩ : ∃ fs, Target.swift.emit (keyModel (2 ^ 32)) .standard .standard = .ok fs :=
    exists_eq_ok (by decide +kernel)
  obtain ⟨_, hint, s, _, hs⟩ := lengths_cross_words hm hcore hjvm hswift
  let key : TypeDef := ⟨"Key", .buffer (2 ^ 32), none⟩
  let f : Function := ⟨"open", "vault", [⟨"key", key, .input⟩], none, false⟩
  let module : Module := ⟨"vault", [f]⟩
  have hmodule : module ∈ (keyModel (2 ^ 32)).modules := List.mem_singleton_self _
  have hf : f ∈ module.functions := List.mem_singleton_self _
  have hkey : key ∈ (keyModel (2 ^ 32)).bufferTypes := List.mem_singleton_self _
  have hlong : ¬ f.InWords := by
    intro h
    have hkeyLength : 2 ^ 32 < 2 ^ 32 := h key (List.mem_singleton_self _) rfl
    omega
  have hbytes : ∀ a ∈ f.arguments, a.isPointed = true → 2 ^ 32 = a.type.byteSize := by
    intro a ha _
    rw [List.mem_singleton.1 ha]
    rfl
  obtain ⟨safe, _, helpers, _, _, _, _, _, _, hmodules⟩ := hs.functions
  obtain ⟨_, _, _, _, hfunctions⟩ := hmodules module hmodule
  obtain ⟨e, g, w, _, _, _, hcross⟩ := hfunctions f hf
  obtain ⟨passed, hpassed, hglue⟩ := hcross.glue
  obtain ⟨told, htold, hwrapper⟩ := hcross.swift
  refine ⟨_, f, core, jvm, swift, s, helpers, _, e, g, w, hm, Model.mem_functions.2 ⟨_, hmodule, hf⟩, hs,
    hcross, ⟨passed, hpassed, ?_⟩, ⟨told, htold, ?_⟩, key, hkey, ?_⟩
  · exact fun h => hlong ((hglue _ hbytes).1 h)
  · exact fun h => hlong (hwrapper.1 h)
  · intro h
    have hkeySize : 2 ^ 32 ≤ 2 ^ 31 - 1 := (hint key hkey).1 h
    omega

end Bindery
