/-
  AGREEMENT AT THE BOUNDARY: four declarations of one function.

  A function has an export in Rust and a prototype in C, and it is called from the glue of the Java
  side and from a Swift wrapper.  The four are generated apart.  `Agree` says what holds them
  together, and says it of their text: one symbol, one list of slots with types that are the same on
  both sides, and for every slot an argument of its kind that comes from the parameter the slot
  belongs to.

  The slots of a function are those of its arguments, one argument after the other, and both
  callers go through the arguments in the same order.  So agreement is proved for one argument
  (`Argument.fillsGlue`, `Argument.fillsSwift`) and then put together.
-/
import Bindery.Proofs.Boundary.HandedOut
import Bindery.Proofs.Source.Passing

namespace Bindery

open Naming Source

/-! ## Types on both sides -/

/-- `SameType rust c` — the two spellings name one type of the native boundary. -/
inductive SameType : String → String → Prop where
  | constPointer : SameType "*const u8" "const uint8_t *"
  | mutPointer : SameType "*mut u8" "uint8_t *"
  | unsigned8 : SameType "u8" "uint8_t"
  | unsigned16 : SameType "u16" "uint16_t"
  | unsigned32 : SameType "u32" "uint32_t"
  | unsigned64 : SameType "u64" "uint64_t"

theorem SlotKind.sameType (k : SlotKind) : SameType k.rust k.c := by
  cases k with
  | inPointer => exact .constPointer
  | outPointer => exact .mutPointer
  | length => exact .unsigned32
  | value w =>
    cases w with
    | one => exact .unsigned8
    | two => exact .unsigned16
    | four => exact .unsigned32
    | eight => exact .unsigned64

/-- `CarriedBy kind type` — a slot of the kind has the Rust type. -/
inductive CarriedBy : SlotKind → String → Prop where
  | constPointer : CarriedBy .inPointer "*const u8"
  | mutPointer : CarriedBy .outPointer "*mut u8"
  | length : CarriedBy .length "u32"
  | value {w : Width} {type : String} : (type, 8 * w.bytes) ∈ rustBits → CarriedBy (.value w) type

theorem Width.rust_mem (w : Width) : (w.rust, 8 * w.bytes) ∈ rustBits := by cases w <;> decide

theorem SlotKind.carriedBy (k : SlotKind) : CarriedBy k k.rust := by
  cases k with
  | inPointer => exact .constPointer
  | outPointer => exact .mutPointer
  | length => exact .length
  | value w => exact .value w.rust_mem

/-! ## What a caller passes for a slot -/

/-- `FillsGlue ls x kind text` — the glue function passes the text for a slot of the kind that belongs to
its parameter `x`: a pointer into the bytes that were copied or allocated for the parameter, their number,
or the number that the parameter holds, in the width of the slot. -/
inductive FillsGlue (ls : List Line) (x : String) : SlotKind → String → Prop where
  | constPointer : (x, "jbyteArray") ∈ typedParameters ls →
      "let " ++ x ++ "_buf = jni_read(&env, " ++ x ++ ")?;" ∈ textsAt 2 ls →
      FillsGlue ls x .inPointer (x ++ "_buf.as_ptr()")
  | mutPointer : (x, "jbyteArray") ∈ typedParameters ls →
      "let mut " ++ x ++ "_buf = jni_alloc(&env, " ++ x ++ ")?;" ∈ textsAt 2 ls →
      FillsGlue ls x .outPointer (x ++ "_buf.as_mut_ptr()")
  | length : "let " ++ x ++ "_buf = jni_read(&env, " ++ x ++ ")?;" ∈ textsAt 2 ls ∨
        "let mut " ++ x ++ "_buf = jni_alloc(&env, " ++ x ++ ")?;" ∈ textsAt 2 ls →
      FillsGlue ls x .length (x ++ "_buf.len() as u32")
  | narrowed {w : Width} {type refused : String} : (x, "jint") ∈ typedParameters ls →
      (type, 8 * w.bytes) ∈ rustBits →
      "let " ++ x ++ " = " ++ type ++ "::try_from(" ++ x ++ ").map_err(|_| " ++ refused ++ ")?;" ∈
        textsAt 2 ls →
      FillsGlue ls x (.value w) x
  | cast {w : Width} {type carrier : String} : (x, carrier) ∈ typedParameters ls →
      (carrier, 8 * w.bytes) ∈ jniBits → (type, 8 * w.bytes) ∈ rustBits →
      FillsGlue ls x (.value w) (x ++ " as " ++ type)

/-- `FillsSwift ls x type kind text` — the Swift wrapper passes the text for a slot of the kind that
belongs to its parameter `x`, which is of the type: the contents of the parameter or their number, the
local array that stands for what is filled or its length, or the number that the parameter holds, in
the width of the slot. -/
inductive FillsSwift (ls : List Line) (x : String) (type : TypeDef) : SlotKind → String → Prop where
  | contents : type.isBuffer = true → x ++ ": " ++ type.name ∈ signatureOf ls →
      FillsSwift ls x type .inPointer (x ++ ".contents")
  | count : type.isBuffer = true → x ++ ": " ++ type.name ∈ signatureOf ls →
      FillsSwift ls x type .length ("UInt32(" ++ x ++ ".contents.count)")
  | filled {size : String} :
      "var " ++ x ++ " = [UInt8](repeating: 0, count: " ++ size ++ ")" ∈ textsAt 1 ls →
      FillsSwift ls x type .outPointer ("&" ++ x)
  | length {size : String} :
      "var " ++ x ++ " = [UInt8](repeating: 0, count: " ++ size ++ ")" ∈ textsAt 1 ls →
      FillsSwift ls x type .length ("UInt32(" ++ size ++ ")")
  | rawValue : type.isEnum = true → x ++ ": " ++ type.name ∈ signatureOf ls →
      FillsSwift ls x type (.value .one) (x ++ ".rawValue")
  | plain {w : Width} {number : String} : (number, 8 * w.bytes) ∈ swiftBits →
      x ++ ": " ++ number ∈ signatureOf ls → FillsSwift ls x type (.value w) x

/-- `Agree f package e p g w` — the lines of export, glue and wrapper and the text of the prototype are
those of one function, and they have one symbol and one list of slots. -/
structure Agree (f : Function) (package : String) (e : List Line) (p : String) (g w : List Line) :
    Prop where
  exportSymbol : (Reader.declaring exportHead).readAt 0 e = [f.coreSymbol]
  exported : List.Forall₂ (fun slot x => x.1 = slot.name ∧ CarriedBy slot.kind x.2) f.slots
    (typedParameters e)
  -- Rust and C declare the same slots.
  declared : ∃ parameters, prototypes.read? p.toList = some (f.coreSymbol, parameters) ∧
    List.Forall₂ (fun r c => r.1 = c.1 ∧ SameType r.2 c.2) (typedParameters e) parameters
  glueSymbol : (Reader.declaring glueHead).readAt 0 g = [f.nativeSymbol package]
  glue : ∃ passed, spreadCall? "code" (textsWithin g) = some (f.coreSymbol, passed) ∧
    List.Forall₂ (fun slot text => FillsGlue g slot.argument.name slot.kind text) f.slots passed
  swiftName : (Reader.declaring "public static func ").readAt 0 w = [f.name]
  swiftCallee : (Reader.declaring "let ffiResult = ").readWithin w = [f.coreSymbol]
  swift : ∃ passed, exportCalls.readWithin w = [passed] ∧ List.Forall₂
    (fun slot text => FillsSwift w slot.argument.name slot.argument.type slot.kind text) f.slots passed

/-! ## One argument -/

section

variable {a : Argument} {ls : List Line}

/-- What the glue keeps of an argument for itself, as far as the slots of the argument ask. -/
theorem Argument.fillsGlue {s : Setting} (hp : (a.name, a.passing.jni) ∈ typedParameters ls)
    (hs : ∀ step, a.glueStep? = some step → step.statement s ∈ textsAt 2 ls) :
    List.Forall₂ (fun slot text => FillsGlue ls slot.argument.name slot.kind text) a.slots
      (a.glueArgs.map (·.expression)) := by
  -- The names of the bytes are spelled out with the endings of what is done with them.
  have hlocal : ∀ ending, a.name ++ "_buf" ++ ending = a.name ++ ("_buf" ++ ending) := fun _ =>
    String.append_assoc
  have hlet : ∀ head rest : String, head ++ (a.name ++ "_buf") ++ rest = head ++ a.name ++ ("_buf" ++ rest) :=
    fun _ _ => by simp only [String.append_assoc]
  unfold Argument.slots Argument.glueArgs
  unfold Argument.glueStep? at hs
  cases hpass : a.passing with
  | inBuffer =>
    rw [hpass] at hp hs
    have hread : "let " ++ a.name ++ "_buf = jni_read(&env, " ++ a.name ++ ")?;" ∈ textsAt 2 ls := by
      have hstep : "let " ++ (a.name ++ "_buf") ++ " = jni_read(&env, " ++ a.name ++ ")?;" ∈
          textsAt 2 ls := hs _ rfl
      rwa [hlet] at hstep
    refine .cons ?_ (.cons ?_ .nil)
    · show FillsGlue ls a.name .inPointer (a.name ++ "_buf" ++ ".as_ptr()")
      rw [hlocal]
      exact .constPointer hp hread
    · show FillsGlue ls a.name .length (a.name ++ "_buf" ++ ".len() as u32")
      rw [hlocal]
      exact .length (Or.inl hread)
  | outBuffer =>
    rw [hpass] at hp hs
    have halloc : "let mut " ++ a.name ++ "_buf = jni_alloc(&env, " ++ a.name ++ ")?;" ∈
        textsAt 2 ls := by
      have hstep : "let mut " ++ (a.name ++ "_buf") ++ " = jni_alloc(&env, " ++ a.name ++ ")?;" ∈
          textsAt 2 ls := hs _ rfl
      rwa [hlet] at hstep
    refine .cons ?_ (.cons ?_ .nil)
    · show FillsGlue ls a.name .outPointer (a.name ++ "_buf" ++ ".as_mut_ptr()")
      rw [hlocal]
      exact .mutPointer hp halloc
    · show FillsGlue ls a.name .length (a.name ++ "_buf" ++ ".len() as u32")
      rw [hlocal]
      exact .length (Or.inr halloc)
  | inValue w =>
    rw [hpass] at hp hs
    dsimp only at hs ⊢
    cases hw : w.isNarrow with
    | true =>
      rw [hw] at hs
      have hcarrier : Passing.jni (.inValue w) = "jint" := by
        cases w <;> first | rfl | nomatch hw
      rw [hcarrier] at hp
      exact .cons (.narrowed hp w.rust_mem (hs _ rfl)) .nil
    | false =>
      have hcarrier : (Passing.jni (.inValue w), 8 * w.bytes) ∈ jniBits := by
        cases w <;> first | decide | nomatch hw
      exact .cons (.cast hp hcarrier w.rust_mem) .nil

/-- A length is converted to the type of its slot. -/
theorem uint32_inParens (text : String) : "UInt32" ++ inParens text = "UInt32(" ++ text ++ ")" := by
  have hopen : "UInt32(" = "UInt32" ++ "(" := by decide
  rw [inParens, hopen]
  simp only [String.append_assoc]

/-- What a wrapper passes for an argument, as far as the slots of the argument ask. -/
theorem Argument.fillsSwift (hfits : a.Fits)
    (hp : a.isFilled = false → typed a.name a.type.swiftValue ∈ signatureOf ls)
    (ha : a.isFilled = true → Function.swiftRoom a ∈ textsAt 1 ls) :
    List.Forall₂ (fun slot text => FillsSwift ls slot.argument.name slot.argument.type slot.kind text)
      a.slots (a.swiftArgs.map (·.expression)) := by
  unfold Argument.slots Argument.swiftArgs
  unfold Argument.isFilled at hp ha
  cases hpass : a.passing with
  | inBuffer =>
    obtain ⟨hbuffer, hvalue⟩ := TypeDef.isBuffer_of_valueWidth? (hfits.buffer hpass)
    have hmem := hp (by rw [hpass]; rfl)
    rw [hvalue] at hmem
    refine .cons (.contents hbuffer hmem) (.cons ?_ .nil)
    have hcount : "UInt32(" ++ (a.name ++ ".contents.count") ++ ")" =
        "UInt32(" ++ a.name ++ ".contents.count)" := by
      have hclose : ".contents.count)" = ".contents.count" ++ ")" := by decide
      rw [hclose]
      simp only [String.append_assoc]
    show FillsSwift ls a.name a.type .length ("UInt32" ++ inParens (a.name ++ ".contents.count"))
    rw [uint32_inParens, hcount]
    exact .count hbuffer hmem
  | outBuffer =>
    have hmem := ha (by rw [hpass]; rfl)
    refine .cons (.filled hmem) (.cons ?_ .nil)
    show FillsSwift ls a.name a.type .length ("UInt32" ++ inParens (a.type.size.spell classSize))
    rw [uint32_inParens]
    exact .length hmem
  | inValue w =>
    have hmem := hp (by rw [hpass]; rfl)
    have hwidth := hfits.value w hpass
    unfold TypeDef.swiftValue at hmem
    cases hshape : a.type.shape with
    | buffer size =>
      rw [hshape] at hwidth
      cases hwidth
    | scalar w' =>
      rw [hshape] at hwidth hmem
      cases hwidth
      have hbits : (w.swift, 8 * w.bytes) ∈ swiftBits := by cases w <;> decide
      exact .cons (.plain hbits hmem) .nil
    | enum variants =>
      rw [hshape] at hwidth hmem
      cases hwidth
      have henum : a.type.isEnum = true := by rw [TypeDef.isEnum, hshape]; rfl
      exact .cons (.rawValue henum hmem) .nil

end

/-! ## What the four declare -/

section

variable {m : Model} {f : Function}

theorem typedParameters_exported (hm : m.WellFormed) (hf : f ∈ m.functions) :
    typedParameters f.exported.lines = f.slots.map fun slot => (slot.name, slot.kind.rust) := by
  have htexts : textsAt 1 f.exported.lines =
      f.slots.map (fun slot => slot.name ++ (": " ++ (slot.kind.rust ++ ","))) ++
        ["ffi_guard(move || " ++ opening, closing ++ ")"] := by
    have hslots : (f.exported.slots.map fun x => x.1 ++ ": " ++ x.2.rust ++ ",") =
        f.slots.map fun slot => slot.name ++ (": " ++ (slot.kind.rust ++ ",")) := by
      show (f.slots.map _).map _ = _
      rw [List.map_map]
      exact List.map_congr_left fun slot _ => by simp only [Function.comp_apply, String.append_assoc]
    rw [← hslots]
    simp [Export.lines]
  have hguard : ["ffi_guard(move || " ++ opening, closing ++ ")"].filterMap typedIn? = [] := by decide
  rw [typedParameters, htexts, List.filterMap_append, hguard, List.append_nil, List.filterMap_map,
    ← List.filterMap_eq_map]
  exact List.filterMap_congr fun slot hslot => typedIn?_append (hm.wordy_slot hf hslot)

/-- A glue function has what every native method has, and then the arguments. -/
theorem typedParameters_glue (hm : m.WellFormed) (hf : f ∈ m.functions) (s : Setting)
    (package : String) : typedParameters ((f.glue package).lines s) =
      [("env", "JNIEnv"), ("_class", "JClass")] ++ f.arguments.map fun a => (a.name, a.passing.jni) := by
  have hnative : ["env: JNIEnv,", "_class: JClass,"].filterMap typedIn? =
      [("env", "JNIEnv"), ("_class", "JClass")] := by decide
  have hcall : ["jni_call(|| " ++ opening, closing ++ ")"].filterMap typedIn? = [] := by decide
  rw [typedParameters, f.textsAt_glue, Function.glueParameters, List.filterMap_append,
    List.filterMap_append, hnative, hcall, List.append_nil, List.filterMap_map, ← List.filterMap_eq_map]
  refine congrArg _ (List.filterMap_congr fun a ha => ?_)
  show typedIn? (typed a.name (a.passing.jni ++ ",")) = _
  rw [typed, String.append_assoc]
  exact typedIn?_append (hm.known hf ha).name

/-- A slot as it is declared in C. -/
theorem cTyped_declareC {k : SlotKind} {name : String} (hname : Wordy name.toList) :
    cTyped (k.declareC name) = (name, k.c) := by
  have hvalue : ∀ type : String, trimEnd (type ++ " ") = type →
      cTyped (type ++ " " ++ name) = (name, type) := by
    intro type htrim
    rw [cTyped_append _ hname (stops_reverse (getLast?_toList_append (c := ' ') _ (by decide))
      (by decide)), htrim]
  cases k with
  | inPointer => exact cTyped_append "const uint8_t *" hname (by decide)
  | outPointer => exact cTyped_append "uint8_t *" hname (by decide)
  | length => exact hvalue "uint32_t" (by decide)
  | value w => cases w <;> exact hvalue _ (by decide)

theorem listItem_declareC {k : SlotKind} {name : String} (hname : Wordy name.toList) :
    ListItem (k.declareC name) := by
  have hfree : ∀ {c : Char}, isIdentifierChar c = false → c ∉ name.toList := fun hc => hname.notMem hc
  have hitem : ∀ type : String, ListItem type → ListItem (type ++ name) := fun _ h =>
    h.append (hfree (by decide)) (hfree (by decide))
  cases k with
  | inPointer => exact hitem "const uint8_t *" ⟨⟨'c', _, rfl, by decide⟩, by decide, by decide⟩
  | outPointer => exact hitem "uint8_t *" ⟨⟨'u', _, rfl, by decide⟩, by decide, by decide⟩
  | length => exact hitem "uint32_t " ⟨⟨'u', _, rfl, by decide⟩, by decide, by decide⟩
  | value w =>
    cases w with
    | one => exact hitem "uint8_t " ⟨⟨'u', _, rfl, by decide⟩, by decide, by decide⟩
    | two => exact hitem "uint16_t " ⟨⟨'u', _, rfl, by decide⟩, by decide, by decide⟩
    | four => exact hitem "uint32_t " ⟨⟨'u', _, rfl, by decide⟩, by decide, by decide⟩
    | eight => exact hitem "uint64_t " ⟨⟨'u', _, rfl, by decide⟩, by decide, by decide⟩

/-- The prototype of a function, with its parameters. -/
theorem prototypes_prototype (hm : m.WellFormed) (hf : f ∈ m.functions) :
    prototypes.read? f.prototype.text.toList =
      some (f.coreSymbol, f.slots.map fun slot => (slot.name, slot.kind.c)) := by
  have hsymbol : '(' ∉ f.coreSymbol.toList := (hm.named hf).wordy_coreSymbol.notMem (by decide)
  have hparameters : f.prototype.slots.map (fun x => x.2.declareC x.1) =
      f.slots.map fun slot => slot.kind.declareC slot.name := List.map_map
  have hempty : f.prototype.slots.isEmpty = f.slots.isEmpty := List.isEmpty_map
  have htext : f.prototype.text = "int32_t " ++ (f.coreSymbol ++ (inParens (commas
      (if f.slots.isEmpty then ["void"] else f.slots.map fun slot => slot.kind.declareC slot.name)) ++
        ";")) := by
    unfold Prototype.text
    dsimp only
    rw [hparameters, hempty]
    have hvoid : commas ["void"] = "void" := by decide
    split <;> simp only [hvoid, String.append_assoc] <;> rfl
  rw [prototypes, Reader.read?_signatures cParameters ";" htext hsymbol]
  · refine congrArg (fun parameters => some (f.coreSymbol, parameters)) ?_
    split
    · rename_i hnone
      rw [List.isEmpty_iff.1 hnone]
      rfl
    · have hother : ¬ (f.slots.map fun slot => slot.kind.declareC slot.name) = ["void"] := by
        intro hvoid
        obtain ⟨slot, hslots, hname⟩ := List.map_eq_singleton_iff.1 hvoid
        have hslot : slot ∈ f.slots := hslots ▸ List.mem_singleton_self _
        -- A slot has a type in front of its name.
        have hread := cTyped_declareC (k := slot.kind) (hm.wordy_slot hf hslot)
        rw [hname] at hread
        have htype : slot.kind.c = "" := (congrArg Prod.snd hread).symm.trans (by decide)
        cases hkind : slot.kind with
        | value w =>
          rw [hkind] at htype
          cases w <;> exact absurd htype (by decide)
        | _ =>
          rw [hkind] at htype
          exact absurd htype (by decide)
      rw [cParameters, if_neg hother, List.map_map]
      exact List.map_congr_left fun slot hslot => cTyped_declareC (hm.wordy_slot hf hslot)
  · split
    · exact List.forall_mem_singleton.2 (.of_wordy (by decide) (by decide))
    · exact List.forall_mem_map.2 fun slot hslot => listItem_declareC (hm.wordy_slot hf hslot)

/-! ## What is passed -/

/-- In front of the call the glue binds nothing to the name of what is called. -/
theorem spreadCall?_glue (hm : m.WellFormed) (hf : f ∈ m.functions) (s : Setting) (package : String) :
    spreadCall? "code" (textsWithin ((f.glue package).lines s)) =
      some (f.coreSymbol, (f.glue package).passed.map (·.expression)) := by
  have hparameters : ∀ text ∈ f.glueParameters, boundInRust? text ≠ some "code" := by
    refine List.forall_mem_append.2 ⟨by decide, List.forall_mem_map.2 fun a ha => ?_⟩
    rw [boundInRust?_typed (hm.known hf ha).name]
    exact fun h => nomatch h
  have hsteps : ∀ text ∈ (f.glue package).steps.map (·.statement s), boundInRust? text ≠ some "code" := by
    refine List.forall_mem_map.2 fun step hstep heq => ?_
    rw [GlueStep.boundInRust?_statement hm hf hstep] at heq
    exact code_notMem_steps hm hf package (List.mem_map.2 ⟨step, hstep, Option.some.inj heq⟩)
  have hread : f.glueCall = "let code = " ++ (f.coreSymbol ++ ("(" ++ "")) := by
    unfold Function.glueCall
    rw [String.append_empty, String.append_assoc]
  have hcallee : callIn? f.glueCall = some (f.coreSymbol, parametersIn f.glueCall) :=
    callIn?_path "" hread (by decide) (by decide) (isPathChar_of_wordy (hm.named hf).wordy_coreSymbol)
  have hcall : boundInRust? f.glueCall = some "code" := by
    have hcode : "let code = " = "let " ++ ("code" ++ " = ") := by decide
    rw [hread, hcode]
    simp only [String.append_assoc]
    exact boundInRust?_let (by decide) (stops_append (by decide) _) (by decide)
  have htexts : textsWithin ((f.glue package).lines s) =
      (f.glueParameters ++ (["jni_call(|| " ++ opening] ++ (f.glue package).steps.map (·.statement s))) ++
        ([f.glueCall] ++ (((f.glue package).passed.map (·.expression)).map (· ++ ",") ++
          ([");"] ++ (f.writing s package ++ [closing ++ ")"])))) := by
    rw [f.textsWithin_glue, List.map_map]
    simp only [List.append_assoc]
    rfl
  rw [htexts]
  refine spreadCall?_append _ ?_ hcall hcallee
  exact List.forall_mem_append.2 ⟨hparameters, List.forall_mem_append.2
    ⟨List.forall_mem_singleton.2 (by decide), hsteps⟩⟩

theorem signatureOf_swift (hm : m.WellFormed) (hf : f ∈ m.functions) (s : Setting) :
    signatureOf (f.swift.lines s) = f.inputs.map fun p => typed p.name p.type.swiftValue := by
  rw [signatureOf, head_swift, parametersIn_append _ (beforeParens_swift hm hf) (listItem_swift hm hf)]

theorem swiftRoom_mem {a : Argument} (ha : a ∈ f.filled) (s : Setting) :
    Function.swiftRoom a ∈ textsAt 1 (f.swift.lines s) := by
  have hrooms : f.swift.allocated.map (fun x => "var " ++ x.1 ++ " = [UInt8](repeating: 0, count: " ++
      x.2.spell classSize ++ ")") = f.filled.map Function.swiftRoom := List.map_map
  have hsub : f.filled.map Function.swiftRoom ⊆ textsAt 1 (f.swift.lines s) := by
    rw [← hrooms]
    simp [SwiftFunction.lines]
  exact hsub (List.mem_map.2 ⟨a, ha, rfl⟩)

/-- A Swift wrapper calls one exported function. -/
theorem exportCalls_within (hm : m.WellFormed) (hf : f ∈ m.functions) (s : Setting) :
    exportCalls.readWithin (f.swift.lines s) = [f.swift.passed.map (·.expression)] := by
  rw [readWithin_swift (by decide), Reader.readAll_eq_nil (ignores_swiftRooms (by decide) f),
    exportCalls_call hm hf, Reader.readAll_eq_nil (ignores_swiftReturn (by decide) f)]
  rfl

theorem swiftCallee_within (hm : m.WellFormed) (hf : f ∈ m.functions) (s : Setting) :
    (Reader.declaring "let ffiResult = ").readWithin (f.swift.lines s) = [f.coreSymbol] := by
  have hcall : (Reader.declaring "let ffiResult = ").read? f.swiftCall.toList = some f.coreSymbol := by
    refine Reader.read?_declaring (commas (f.swift.passed.map (·.expression)) ++ ")") ?_
      ((hm.named hf).wordy_coreSymbol.notMem (by decide))
    rw [swiftCall_eq, String.append_empty, inParens, String.append_assoc]
  rw [readWithin_swift (by decide), Reader.readAll_eq_nil (ignores_swiftRooms (by decide) f), hcall,
    Reader.readAll_eq_nil (ignores_swiftReturn (by decide) f)]
  rfl

end

/-! ## A whole function -/

namespace Function

variable {m : Model} {f : Function}

theorem fillsGlue (hm : m.WellFormed) (hf : f ∈ m.functions) (s : Setting) (package : String) :
    List.Forall₂ (fun slot text => FillsGlue ((f.glue package).lines s) slot.argument.name slot.kind text)
      f.slots ((f.glue package).passed.map (·.expression)) := by
  have hpassed : (f.glue package).passed.map (·.expression) =
      f.arguments.flatMap fun a => a.glueArgs.map (·.expression) := List.map_flatMap
  have hsteps := (f.steps_prefix s package).subset
  rw [hpassed]
  refine forall₂_flatMap fun a ha => Argument.fillsGlue (s := s) ?_ fun step hstep => hsteps ?_
  · rw [typedParameters_glue hm hf]
    exact List.mem_append_right _ (List.mem_map.2 ⟨a, ha, rfl⟩)
  · exact List.mem_map.2 ⟨step, List.mem_filterMap.2 ⟨a, ha, hstep⟩, rfl⟩

theorem fillsSwift (hm : m.WellFormed) (hf : f ∈ m.functions) (s : Setting) :
    List.Forall₂ (fun slot text => FillsSwift (f.swift.lines s) slot.argument.name slot.argument.type
      slot.kind text) f.slots (f.swift.passed.map (·.expression)) := by
  have hpassed : f.swift.passed.map (·.expression) =
      f.arguments.flatMap fun a => a.swiftArgs.map (·.expression) := List.map_flatMap
  rw [hpassed]
  refine forall₂_flatMap fun a ha => Argument.fillsSwift (hm.known hf ha).fits (fun h => ?_) fun h => ?_
  · obtain ⟨p, hp, rfl⟩ := mem_inputs_of_argument ha h
    rw [signatureOf_swift hm hf]
    exact List.mem_map.2 ⟨p, hp, rfl⟩
  · exact swiftRoom_mem (List.mem_filter.2 ⟨ha, h⟩) s

/-- **A function agrees** with itself in its four declarations. -/
theorem agree (hm : m.WellFormed) (hf : f ∈ m.functions) (s : Setting)
    (hp : isPackageName s.options.javaPackage = true) :
    Agree f s.options.javaPackage f.exported.lines f.prototype.text
      ((f.glue s.options.javaPackage).lines s) (f.swift.lines s) := by
  have hnamed := hm.named hf
  have hexported := typedParameters_exported hm hf
  constructor
  case exportSymbol =>
    rw [Reader.readAt_declaring]
    exact declared_exported hnamed
  case exported =>
    rw [hexported, List.forall₂_map_right_iff]
    exact List.forall₂_same.2 fun slot _ => ⟨rfl, slot.kind.carriedBy⟩
  case declared =>
    refine ⟨_, prototypes_prototype hm hf, ?_⟩
    rw [hexported, List.forall₂_map_left_iff, List.forall₂_map_right_iff]
    exact List.forall₂_same.2 fun slot _ => ⟨rfl, slot.kind.sameType⟩
  case glueSymbol =>
    rw [Reader.readAt_declaring]
    exact declared_glue hnamed hp
  case glue => exact ⟨_, spreadCall?_glue hm hf s _, fillsGlue hm hf s _⟩
  case swiftName =>
    have hhead := head_swift f s
    have hgap : gap = line "" := rfl
    unfold SwiftFunction.lines at hhead ⊢
    rw [hgap, textsAt_append, textsAt_block_zero] at hhead
    rw [List.cons_append, List.headD_cons] at hhead
    have hname : (Reader.declaring "public static func ").read? _ = some f.name :=
      Reader.read?_declaring _ (hhead.trans (by
        simp only [inParens, String.append_assoc]
        rfl)) ((wordy_of_plain hnamed.name).notMem (by decide))
    unfold Reader.readAt
    rw [hgap, textsAt_append, textsAt_block_zero, List.cons_append, Reader.readAll_cons, hname]
    rfl
  case swiftCallee => exact swiftCallee_within hm hf s
  case swift => exact ⟨_, exportCalls_within hm hf s, fillsSwift hm hf s⟩

end Function

end Bindery
