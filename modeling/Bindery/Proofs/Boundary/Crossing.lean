/-
  CROSSING FROM JAVA: three declarations of one function, and what becomes of its numbers.

  The Java side declares a native method, calls it from a wrapper, and has it implemented in the
  glue.  All three go through the arguments of the function in one order (`JavaAgree`): the types of
  the method are those of the glue, and what the wrapper passes for an argument has the type that
  the method declares (`Argument.javaTyped`).  All this is read off their lines.

  A number that is read by value crosses in a Java type that is at least as wide as its own and
  signed.  A narrow one is checked, by the wrapper and again by the glue; a number that is as wide
  as its carrier keeps its bits and gets another sign.  Either way nothing is cut off: the Java
  number can be read back from what arrives, and every number of the slot can be sent (`Whole`).
-/
import Bindery.Proofs.Boundary.Agreement
import Bindery.Proofs.Boundary.Linking

namespace Bindery

open Naming Source

/-! ## Types on both sides of a native method -/

/-- `SameJava java jni` — the two spellings name one type of a native method. -/
inductive SameJava : String → String → Prop where
  | bytes : SameJava "byte[]" "jbyteArray"
  | int : SameJava "int" "jint"
  | long : SameJava "long" "jlong"

theorem Passing.sameJava (p : Passing) : SameJava p.java p.jni := by
  cases p with
  | inBuffer => exact .bytes
  | outBuffer => exact .bytes
  | inValue w =>
    cases w with
    | eight => exact .long
    | _ => exact .int

/-- `JavaTyped m ls x text type` — inside the method the text that is passed for the argument `x` has the
Java type: the contents of a buffer and the local arrays are bytes, the number of a variant is an `int`,
and a number has the type it is declared with.  The name of a type stands for its value class. -/
inductive JavaTyped (m : Model) (ls : List Line) (x : String) : String → String → Prop where
  | contents {t : TypeDef} : t ∈ m.types → t.isBuffer = true → t.name ++ " " ++ x ∈ signatureOf ls →
      JavaTyped m ls x (x ++ ".getInternalContentsForJNI()") "byte[]"
  | ordinal {t : TypeDef} : t ∈ m.types → t.isEnum = true → t.name ++ " " ++ x ∈ signatureOf ls →
      JavaTyped m ls x (x ++ ".getValue()") "int"
  | number {type : String} : type = "int" ∨ type = "long" → type ++ " " ++ x ∈ signatureOf ls →
      JavaTyped m ls x x type
  | room {size : String} : "byte[] " ++ x ++ " = new byte[" ++ size ++ "];" ∈ textsAt 1 ls →
      JavaTyped m ls x x "byte[]"

theorem Width.java_cases (w : Width) : w.java = "int" ∨ w.java = "long" := by
  cases w <;> simp [Width.java]

theorem Argument.javaTyped {m : Model} {ls : List Line} {a : Argument} (hfits : a.Fits)
    (htype : a.type ∈ m.types)
    (hp : a.isFilled = false → a.type.javaValue ++ " " ++ a.name ∈ signatureOf ls)
    (ha : a.isFilled = true → Function.javaRoom a ∈ textsAt 1 ls) :
    JavaTyped m ls a.name a.nativeArg.expression a.passing.java := by
  unfold Argument.nativeArg
  unfold Argument.isFilled at hp ha
  cases hpass : a.passing with
  | inBuffer =>
    have hmem := hp (by rw [hpass]; rfl)
    have hwidth := hfits.buffer hpass
    unfold TypeDef.javaValue at hmem
    cases hshape : a.type.shape with
    | buffer size =>
      rw [hshape] at hmem
      exact .contents htype (by rw [TypeDef.isBuffer, hshape]; rfl) hmem
    | scalar w =>
      rw [hshape] at hwidth
      nomatch hwidth
    | enum variants =>
      rw [hshape] at hwidth
      nomatch hwidth
  | outBuffer => exact .room (ha (by rw [hpass]; rfl))
  | inValue w =>
    have hmem := hp (by rw [hpass]; rfl)
    have hwidth := hfits.value w hpass
    unfold TypeDef.javaValue at hmem
    cases hshape : a.type.shape with
    | buffer size =>
      rw [hshape] at hwidth
      nomatch hwidth
    | scalar w' =>
      rw [hshape] at hwidth hmem
      cases hwidth
      exact .number w.java_cases hmem
    | enum variants =>
      rw [hshape] at hwidth hmem
      cases hwidth
      exact .ordinal htype (by rw [TypeDef.isEnum, hshape]; rfl) hmem

/-! ## Numbers that cross by value -/

/-- How a signed number becomes an unsigned one of so many bits. -/
inductive Conversion where
  /-- It is refused where it has no room. -/
  | checked (bits : Nat)
  /-- It keeps its lowest bits. -/
  | cast (bits : Nat)

/-- What arrives in the slot when the Java side sends a number. -/
def Conversion.arriving (v : Int) : Conversion → Option Int
  | checked bits => if 0 ≤ v ∧ v < 2 ^ bits then some v else none
  | cast bits => some (v % 2 ^ bits)

/-- `Whole carrier bits c` — a number in a carrier of so many bits loses nothing on its way: what the Java
side sent can be read back from what arrives, and whatever the slot can hold can be sent. -/
structure Whole (carrier bits : Nat) (c : Conversion) : Prop where
  kept : ∀ v u, IsSigned carrier v → c.arriving v = some u →
    0 ≤ u ∧ u < 2 ^ bits ∧ u.bmod (2 ^ carrier) = v
  reached : ∀ u, 0 ≤ u → u < 2 ^ bits → ∃ v, IsSigned carrier v ∧ c.arriving v = some u

/-- A narrow number has room in its carrier, sign and all. -/
theorem whole_checked {carrier bits : Nat} (h : bits < carrier) : Whole carrier bits (.checked bits) := by
  have harrives : ∀ v u, (Conversion.checked bits).arriving v = some u ↔
      (0 ≤ v ∧ v < 2 ^ bits) ∧ v = u := fun v u => Option.ite_none_right_eq_some.trans (by simp)
  have hpow : (2 : Int) ^ bits ≤ 2 ^ (carrier - 1) := pow_le_pow_right₀ (by decide) (by omega)
  have hpos : (0 : Int) < 2 ^ (carrier - 1) := by positivity
  constructor
  · intro v u hsigned hu
    obtain ⟨⟨hzero, hv⟩, rfl⟩ := (harrives v u).1 hu
    exact ⟨hzero, hv, bmod_of_isSigned (by omega) hsigned⟩
  · intro u hzero hu
    exact ⟨u, ⟨by omega, by omega⟩, (harrives u u).2 ⟨⟨hzero, hu⟩, rfl⟩⟩

/-- A number that is as wide as its carrier keeps its bits. -/
theorem whole_cast {bits : Nat} (h : 0 < bits) : Whole bits bits (.cast bits) := by
  have harrives : ∀ v u, (Conversion.cast bits).arriving v = some u ↔ v % 2 ^ bits = u := fun v u =>
    Option.some_inj
  have hpos : (0 : Int) < 2 ^ bits := by positivity
  have hpow : ((2 ^ bits : Nat) : Int) = 2 ^ bits := by push_cast; rfl
  rw [← hpow] at hpos
  constructor
  · intro v u hsigned hu
    rw [← (harrives v u).1 hu, ← hpow]
    refine ⟨Int.emod_nonneg _ hpos.ne', Int.emod_lt_of_pos _ hpos, ?_⟩
    rw [Int.emod_bmod, bmod_of_isSigned h hsigned]
  · intro u hzero hu
    refine ⟨u.bmod (2 ^ bits), isSigned_bmod h u, (harrives _ _).2 ?_⟩
    rw [← hpow] at hu
    rw [← hpow, Int.bmod_emod, Int.emod_eq_of_lt hzero hu]

/-- `PassedByValue ls x type carrier bits text c` — how the glue passes its parameter `x` to a slot of the
Rust type: one of one or two bytes through a checked conversion to this type, any other as it is, between
types of the same number of bits. -/
inductive PassedByValue (ls : List Line) (x type : String) (carrier bits : Nat) :
    String → Conversion → Prop where
  | checked : bits ≤ 16 → (x, type) ∈ conversions.readAt 2 ls →
      PassedByValue ls x type carrier bits x (.checked bits)
  | cast : 16 < bits → carrier = bits →
      PassedByValue ls x type carrier bits (x ++ " as " ++ type) (.cast bits)

/-- `CrossesWhole ls x type bits text` — the glue declares the number as a Java number, passes it by value
to the slot of the Rust type with so many bits, and nothing of it is lost. -/
def CrossesWhole (ls : List Line) (x type : String) (bits : Nat) (text : String) : Prop :=
  ∃ java carrier c, (x, java) ∈ typedParameters ls ∧ (java, carrier) ∈ jniBits ∧
    (type, bits) ∈ rustBits ∧ PassedByValue ls x type carrier bits text c ∧ Whole carrier bits c

/-- `ValueCrosses e g slot text` — if the slot is for a number, the export has a parameter of that name, and
what the glue passes for it crosses whole. -/
def ValueCrosses (e g : List Line) (slot : Slot) (text : String) : Prop :=
  ∀ w, slot.kind = .value w → ∃ type, (slot.name, type) ∈ typedParameters e ∧
    CrossesWhole g slot.name type (8 * w.bytes) text

theorem Argument.valueCrosses {e g : List Line} {a : Argument}
    (he : ∀ slot ∈ a.slots, (slot.name, slot.kind.rust) ∈ typedParameters e)
    (hp : (a.name, a.passing.jni) ∈ typedParameters g)
    (hs : ∀ w, a.passing = .inValue w → w.isNarrow = true → (a.name, w.rust) ∈ conversions.readAt 2 g) :
    List.Forall₂ (ValueCrosses e g) a.slots (a.glueArgs.map (·.expression)) := by
  unfold Argument.slots at he ⊢
  unfold Argument.glueArgs
  cases hpass : a.passing with
  | inBuffer => exact .cons (fun w h => nomatch h) (.cons (fun w h => nomatch h) .nil)
  | outBuffer => exact .cons (fun w h => nomatch h) (.cons (fun w h => nomatch h) .nil)
  | inValue w =>
    rw [hpass] at he hp
    have htype : (a.name, w.rust) ∈ typedParameters e := he _ (List.mem_singleton_self _)
    dsimp only
    cases hw : w.isNarrow with
    | true =>
      have hcarrier : (Passing.jni (.inValue w), 32) ∈ jniBits ∧ 8 * w.bytes ≤ 16 := by
        cases w <;> first | decide | nomatch hw
      refine .cons (fun w' h => ?_) .nil
      cases h
      exact ⟨_, htype, _, 32, _, hp, hcarrier.1, w.rust_mem, .checked hcarrier.2 (hs w hpass hw),
        whole_checked (by omega)⟩
    | false =>
      have hcarrier : (Passing.jni (.inValue w), 8 * w.bytes) ∈ jniBits ∧ 16 < 8 * w.bytes := by
        cases w <;> first | decide | nomatch hw
      refine .cons (fun w' h => ?_) .nil
      cases h
      exact ⟨_, htype, _, _, _, hp, hcarrier.1, w.rust_mem, .cast hcarrier.2 rfl,
        whole_cast (by omega)⟩

/-! ## What the glue converts -/

/-- The checked conversion of an argument. -/
def Argument.converted? (a : Argument) : Option (String × String) :=
  match a.passing with
  | .inValue w => if w.isNarrow then some (a.name, w.rust) else none
  | _ => none

section

variable {m : Model} {f : Function}

/-- Of what the glue does in front of the call, only the narrowing converts. -/
theorem conversions_glueStep (hm : m.WellFormed) (hf : f ∈ m.functions) (s : Setting) {a : Argument}
    (ha : a ∈ f.arguments) :
    (a.glueStep?.bind fun step => conversions.read? (step.statement s).toList) = a.converted? := by
  have hname := (hm.known hf ha).name
  have hbuffer : Wordy (bufferLocal a.name).toList := by
    rw [bufferLocal, String.toList_append]
    exact hname.append (by decide)
  unfold Argument.glueStep? Argument.converted?
  cases a.passing with
  | inBuffer =>
    have hread : "let " ++ bufferLocal a.name ++ " = jni_read(&env, " ++ a.name ++ ")?;" = "let " ++
        (bufferLocal a.name ++ (" = " ++ ("jni_read" ++ ("(" ++ ("&env, " ++ (a.name ++ ")?;")))))) := by
      have hcall : " = jni_read(&env, " = " = " ++ ("jni_read" ++ ("(" ++ "&env, ")) := by decide
      rw [hcall]
      simp only [String.append_assoc]
    exact conversions_call hread hbuffer (by decide)
  | outBuffer =>
    have hmut : "let mut " ++ bufferLocal a.name ++ " = jni_alloc(&env, " ++ a.name ++ ")?;" =
        "let mut " ++ (bufferLocal a.name ++ (" = jni_alloc(&env, " ++ (a.name ++ ")?;"))) := by
      simp only [String.append_assoc]
    have hne : bufferLocal a.name ≠ "" := fun hempty => by
      have hnil := congrArg String.toList hempty
      rw [bufferLocal, String.toList_append] at hnil
      exact absurd (List.append_eq_nil_iff.1 hnil).2 (by decide)
    exact conversions_mut hmut hbuffer hne
  | inValue w =>
    dsimp only
    split
    · have hchecked : "let " ++ a.name ++ " = " ++ w.rust ++ "::try_from(" ++ a.name ++
          ").map_err(|_| " ++ s.refused ++ ")?;" = "let " ++ (a.name ++ (" = " ++ (w.rust ++
            ("::try_from(" ++ (a.name ++ ")") ++ (".map_err(|_| " ++ (s.refused ++ ")?;")))))) := by
        have hcheck : ").map_err(|_| " = ")" ++ ".map_err(|_| " := by decide
        rw [hcheck]
        simp only [String.append_assoc]
      exact conversions_narrow hchecked hname (by cases w <;> decide)
    · rfl

theorem conversions_glue (hm : m.WellFormed) (hf : f ∈ m.functions) (s : Setting) (package : String) :
    conversions.readAt 2 ((f.glue package).lines s) = f.arguments.filterMap (·.converted?) := by
  have hsteps : conversions.readAll ((f.glue package).steps.map (·.statement s)) =
      f.arguments.filterMap (·.converted?) := by
    have hall : (f.glue package).steps = f.arguments.filterMap (·.glueStep?) := rfl
    unfold Reader.readAll
    rw [hall, List.filterMap_map, List.filterMap_filterMap]
    exact List.filterMap_congr fun a ha => conversions_glueStep hm hf s ha
  have hcall : conversions.Ignores ("let code = " ++ f.coreSymbol ++ "(") := by
    have hlet : "let code = " ++ f.coreSymbol ++ "(" =
        "let " ++ ("code" ++ (" = " ++ (f.coreSymbol ++ ("(" ++ "")))) := by
      have hcode : "let code = " = "let " ++ ("code" ++ " = ") := by decide
      rw [hcode, String.append_empty]
      simp only [String.append_assoc]
    exact conversions_call hlet (by decide) (hm.named hf).wordy_coreSymbol
  have hwritten : conversions.readAll (textsAt 0 (if (f.glue package).written.isEmpty then []
      else block ("if code == " ++ s.ok) (Source.lines ((f.glue package).written.map writeBack)))) = [] := by
    split
    · rfl
    · have hother : Apart conversions.head "if code == " := by decide
      rw [textsAt_block_zero, String.append_assoc, String.append_assoc]
      exact Reader.readAll_eq_nil (List.forall_mem_cons.2 ⟨.of_apart (hother.append _),
        List.forall_mem_singleton.2 (by decide)⟩)
  have htexts : textsAt 2 ((f.glue package).lines s) = (f.glue package).steps.map (·.statement s) ++
      (["let code = " ++ f.coreSymbol ++ "("] ++ ([");"] ++ (textsAt 0 (if (f.glue package).written.isEmpty
        then [] else block ("if code == " ++ s.ok)
          (Source.lines ((f.glue package).written.map writeBack))) ++ ["Ok(code)"]))) := by
    have hcallee : (f.glue package).callee = f.coreSymbol := rfl
    simp [Glue.lines, Glue.body, hcallee]
  have hclose : conversions.readAll [");"] = [] := by decide
  have hlast : conversions.readAll ["Ok(code)"] = [] := by decide
  unfold Reader.readAt
  rw [htexts, Reader.readAll_append, hsteps, Reader.readAll_append,
    Reader.readAll_eq_nil (List.forall_mem_singleton.2 hcall), Reader.readAll_append, hclose,
    Reader.readAll_append, hwritten, hlast]
  exact List.append_nil _

end

/-! ## Ranges that a wrapper checks -/

section

variable {m : Model} {f : Function}

theorem rangeLimits_throw (rest : String) : rangeLimits.Ignores ("throw new " ++ rest) := by
  have hother : Apart rangeLimits.head "throw new " := by decide
  exact .of_apart (hother.append rest)

/-- The check of a narrow number has its greatest value as the limit. -/
theorem rangeLimits_rangeCheck (hm : m.WellFormed) (hf : f ∈ m.functions) (s : Setting)
    {x : String × Width} (hx : x ∈ f.ranged) :
    rangeLimits.readAll ((rangeCheck s x).map (·.text)) = [(x.1, 2 ^ (8 * x.2.bytes) - 1)] := by
  obtain ⟨p, hp, hrange⟩ := List.mem_filterMap.1 hx
  obtain ⟨_, _, hname⟩ := Parameter.ranged?_eq_some.1 hrange
  have hvalue : hexValue (Nat.toDigits 16 x.2.greatest) = 2 ^ (8 * x.2.bytes) - 1 := by
    cases x.2 <;> decide +kernel
  have hdigits : Wordy (Nat.toDigits 16 x.2.greatest) := by
    cases x.2 <;> decide +kernel
  have hread : rangeLimits.read? ("if (" ++ (x.1 ++ " < 0 || " ++ x.1 ++ " > " ++
      ("0x" ++ String.ofList (Nat.toDigits 16 x.2.greatest)) ++ ")" ++ " " ++ opening)).toList =
      some (x.1, 2 ^ (8 * x.2.bytes) - 1) := by
    have hcheck : "if (" ++ (x.1 ++ " < 0 || " ++ x.1 ++ " > " ++
        ("0x" ++ String.ofList (Nat.toDigits 16 x.2.greatest)) ++ ")" ++ " " ++ opening) =
        "if (" ++ (x.1 ++ (" < 0 || " ++ (x.1 ++ " > 0x") ++
          (String.ofList (Nat.toDigits 16 x.2.greatest) ++ (")" ++ (" " ++ opening))))) := by
      have hgreater : " > 0x" = " > " ++ "0x" := by decide
      rw [hgreater]
      simp only [String.append_assoc]
    rw [← hvalue]
    exact rangeLimits_check hcheck (hname ▸ wordy_input hm hf hp) hdigits
  have hmessage : rangeLimits.Ignores ("\"" ++ x.1 ++ " out of range: \" + " ++ x.1 ++ ");") := by
    have hother : Apart rangeLimits.head "\"" := by decide
    rw [rangeMessage_eq]
    exact .of_apart (hother.append _)
  rw [texts_rangeCheck, Reader.readAll_cons, hread, Reader.readAll_eq_nil]
  · rfl
  · exact List.forall_mem_cons.2 ⟨rangeLimits_throw _, List.forall_mem_cons.2 ⟨hmessage,
      List.forall_mem_singleton.2 (by decide)⟩⟩

/-- What a method makes of the result is no check of a range. -/
theorem rangeLimits_outcome (f : Function) (s : Setting) :
    rangeLimits.readAll (((f.javaMethod s).outcome s).map (·.text)) = [] := by
  rw [texts_outcome]
  split
  · have hother : Apart rangeLimits.head baseException := by decide
    exact Reader.readAll_eq_nil (List.forall_mem_singleton.2 (.of_apart (hother.append _)))
  · have hother : rangeLimits.Ignores
        ("if (" ++ ("ffiResult" ++ (" != " ++ (codeConstant s.ok ++ (")" ++ (" " ++ opening)))))) := by
      refine rangeLimits_other rfl (by decide) (stops_append (by decide) _) ?_
      rw [String.toList_append]
      exact fun hp => absurd (List.cons_prefix_cons.1 (List.cons_prefix_cons.1 hp).2).1 (by decide)
    have hresult : "ffiResult != " = "ffiResult" ++ " != " := by decide
    rw [hresult, String.append_assoc]
    exact Reader.readAll_eq_nil (List.forall_mem_cons.2 ⟨hother,
      List.forall_mem_cons.2 ⟨rangeLimits_throw _, List.forall_mem_singleton.2 (by decide)⟩⟩)

/-- The limits that a method checks are the greatest numbers of its narrow widths. -/
theorem rangeLimits_java (hm : m.WellFormed) (hf : f ∈ m.functions) (s : Setting) :
    rangeLimits.readWithin ((f.javaMethod s).lines s) =
      f.ranged.map fun x => (x.1, 2 ^ (8 * x.2.bytes) - 1) := by
  have hranged : rangeLimits.readAll ((f.ranged.flatMap (rangeCheck s)).map (·.text)) =
      f.ranged.map fun x => (x.1, 2 ^ (8 * x.2.bytes) - 1) := by
    rw [List.map_flatMap, List.map_eq_flatMap]
    exact List.filterMap_flatMap.trans
      (List.flatMap_congr fun x hx => rangeLimits_rangeCheck hm hf s hx)
  have hcatch : rangeLimits.readAll [catching ++ (s.codes.invalidInput.exceptionName ++ " e) \x7b"),
      "throw new AssertionError(e);"] = [] := by
    have hother : Apart rangeLimits.head catching := by decide
    exact Reader.readAll_eq_nil (List.forall_mem_cons.2 ⟨.of_apart (hother.append _),
      List.forall_mem_singleton.2 (by decide)⟩)
  have hrooms : rangeLimits.readAll ((f.arguments.filter (·.isFilled)).map Function.javaRoom) = [] :=
    Reader.readAll_eq_nil (ignores_javaRooms (by decide) f)
  have hcall : rangeLimits.readAll [f.javaCall] = [] :=
    Reader.readAll_eq_nil (List.forall_mem_singleton.2 (ignores_javaCall (by decide) f))
  unfold Reader.readWithin
  rw [f.textsWithin_java, Reader.readAll_append, hranged, Reader.readAll_append, hrooms,
    Reader.readAll_append, hcall, Reader.readAll_append, rangeLimits_outcome,
    readAll_conclusion (by decide) (by decide), Reader.readAll_eq_nil (ignores_javaReturn (by decide) f s),
    hcatch, ite_self]
  exact List.append_nil _

/-- What is checked are the narrow numbers that no enumeration stands for. -/
theorem mem_rangeLimits (hm : m.WellFormed) (hf : f ∈ m.functions) (s : Setting) {x : String}
    {limit : Nat} : (x, limit) ∈ rangeLimits.readWithin ((f.javaMethod s).lines s) ↔
      ∃ slot ∈ f.slots, ∃ w, slot.name = x ∧ slot.kind = .value w ∧
        slot.argument.type.isScalar = true ∧ w.bytes ≤ 2 ∧ limit = 2 ^ (8 * w.bytes) - 1 := by
  rw [rangeLimits_java hm hf, List.mem_map]
  constructor
  · rintro ⟨⟨name, w⟩, hx, heq⟩
    obtain ⟨slot, hslot, hname, hkind, hscalar, hw⟩ := Function.mem_ranged.1 hx
    cases heq
    exact ⟨slot, hslot, w, hname, hkind, hscalar, hw, rfl⟩
  · rintro ⟨slot, hslot, w, hname, hkind, hscalar, hw, rfl⟩
    exact ⟨(x, w), Function.mem_ranged.2 ⟨slot, hslot, hname, hkind, hscalar, hw⟩, rfl⟩

end

/-! ## A whole function -/

/-- `JavaAgree m f package e n g j` — the text of the native method and the lines of glue and wrapper are
those of one function, whose export has the lines `e`: they have one list of arguments, in types that are
the same on both sides, and of what crosses by value nothing is lost. -/
structure JavaAgree (m : Model) (f : Function) (package : String) (e : List Line) (n : String)
    (g j : List Line) : Prop where
  exported : (Reader.declaring exportHead).readAt 0 e = [f.coreSymbol] ∧
    (typedParameters e).map Prod.fst = f.slots.map (·.name)
  native : nativeMethods.read? n.toList =
    some (f.nativeMethod, f.arguments.map fun a => (a.passing.java, a.name))
  glueSymbol : (Reader.declaring glueHead).readAt 0 g =
    [jniName (package ++ ".internal.Native") f.nativeMethod]
  glue : typedParameters g = [("env", "JNIEnv"), ("_class", "JClass")] ++
    f.arguments.map fun a => (a.name, a.passing.jni)
  types : ∀ a ∈ f.arguments, SameJava a.passing.java a.passing.jni
  callee : (Reader.declaring "int ffiResult = Native.").readWithin j = [f.nativeMethod]
  scope : (javaScope j).names.Nodup
  passed : ∃ passed, nativeCalls.readWithin j = [passed] ∧
    List.Forall₂ (fun a text => JavaTyped m j a.name text a.passing.java) f.arguments passed
  values : ∃ passed, spreadCall? "code" (textsWithin g) = some (f.coreSymbol, passed) ∧
    List.Forall₂ (ValueCrosses e g) f.slots passed
  limits : ∀ x limit, (x, limit) ∈ rangeLimits.readWithin j ↔
    ∃ slot ∈ f.slots, ∃ w, slot.name = x ∧ slot.kind = .value w ∧
      slot.argument.type.isScalar = true ∧ w.bytes ≤ 2 ∧ limit = 2 ^ (8 * w.bytes) - 1

section

variable {m : Model} {f : Function}

/-- The native method of a function, with its parameters. -/
theorem nativeMethods_native (hm : m.WellFormed) (hf : f ∈ m.functions) :
    nativeMethods.read? f.native.text.toList =
      some (f.nativeMethod, f.arguments.map fun a => (a.passing.java, a.name)) := by
  have hfree : ∀ p : Passing, ' ' ∉ p.java.toList := by
    intro p
    cases p with
    | inValue w => cases w <;> decide
    | _ => decide
  have hitem : ∀ a ∈ f.arguments, ListItem (a.passing.java ++ (" " ++ a.name)) := by
    intro a ha
    have hname := (hm.known hf ha).name
    have hjava : ListItem a.passing.java := by
      cases a.passing with
      | inValue w =>
        cases w with
        | eight => exact .of_wordy (by decide) (by decide)
        | _ => exact (ListItem.of_wordy (by decide) (by decide) : ListItem "int")
      | _ => exact ⟨⟨'b', _, rfl, by decide⟩, by decide, by decide⟩
    refine hjava.append ?_ ?_ <;>
    · rw [String.toList_append, List.mem_append, not_or]
      exact ⟨by decide, hname.notMem (by decide)⟩
  have htext : f.native.text = "public static native int " ++ (f.nativeMethod ++ (inParens (commas
      (f.arguments.map fun a => a.passing.java ++ (" " ++ a.name))) ++ ";")) := by
    have hparameters : f.native.parameters.map (fun p => p.2.java ++ " " ++ p.1) =
        f.arguments.map fun a => a.passing.java ++ (" " ++ a.name) := by
      show (f.arguments.map _).map _ = _
      rw [List.map_map]
      exact List.map_congr_left fun a _ => String.append_assoc
    unfold NativeMethod.text
    rw [hparameters]
    simp only [String.append_assoc]
    rfl
  rw [nativeMethods, Reader.read?_signatures _ ";" htext
    ((hm.named hf).wordy_nativeMethod.notMem (by decide)) (List.forall_mem_map.2 hitem), List.map_map]
  refine congrArg (fun natives => some (f.nativeMethod, natives)) (List.map_congr_left fun a _ => ?_)
  exact typedName_append (hfree a.passing)

theorem javaRoom_mem {a : Argument} (ha : a ∈ f.filled) (s : Setting) :
    Function.javaRoom a ∈ textsAt 1 ((f.javaMethod s).lines s) := by
  have hrooms : (f.javaMethod s).allocated.map (fun x =>
      "byte[] " ++ x.1 ++ " = new byte[" ++ x.2.spell classSize ++ "];") =
        f.filled.map Function.javaRoom := List.map_map
  have hsub : f.filled.map Function.javaRoom ⊆ textsAt 1 ((f.javaMethod s).lines s) := by
    rw [← hrooms]
    simp [JavaMethod.lines]
  exact hsub (List.mem_map.2 ⟨a, ha, rfl⟩)

/-- A wrapper calls one native method. -/
theorem nativeCalls_within (hm : m.WellFormed) (hf : f ∈ m.functions) (s : Setting) :
    nativeCalls.readWithin ((f.javaMethod s).lines s) =
      [f.arguments.map (·.nativeArg.expression)] := by
  rw [readWithin_java (by decide), Reader.readAll_eq_nil (ignores_javaRooms (by decide) f),
    nativeCalls_call hm hf, Reader.readAll_eq_nil (ignores_javaReturn (by decide) f s)]
  rfl

theorem javaCallee_within (hm : m.WellFormed) (hf : f ∈ m.functions) (s : Setting) :
    (Reader.declaring "int ffiResult = Native.").readWithin ((f.javaMethod s).lines s) =
      [f.nativeMethod] := by
  have hcall : (Reader.declaring "int ffiResult = Native.").read? f.javaCall.toList =
      some f.nativeMethod := by
    refine Reader.read?_declaring (commas (f.arguments.map (·.nativeArg.expression)) ++ (")" ++ ";")) ?_
      ((hm.named hf).wordy_nativeMethod.notMem (by decide))
    rw [javaCall_eq, inParens]
    simp only [String.append_assoc]
  rw [readWithin_java (by decide), Reader.readAll_eq_nil (ignores_javaRooms (by decide) f), hcall,
    Reader.readAll_eq_nil (ignores_javaReturn (by decide) f s)]
  rfl

namespace Function

theorem javaTyped (hm : m.WellFormed) (hf : f ∈ m.functions) (s : Setting) :
    List.Forall₂ (fun a text => JavaTyped m ((f.javaMethod s).lines s) a.name text a.passing.java)
      f.arguments (f.arguments.map (·.nativeArg.expression)) := by
  rw [List.forall₂_map_right_iff]
  refine List.forall₂_same.2 fun a ha => ?_
  have hknown := hm.known hf ha
  refine Argument.javaTyped hknown.fits hknown.type (fun h => ?_) fun h => ?_
  · obtain ⟨p, hp, rfl⟩ := mem_inputs_of_argument ha h
    rw [signatureOf_java hm hf, String.append_assoc]
    exact List.mem_map.2 ⟨p, hp, rfl⟩
  · exact javaRoom_mem (List.mem_filter.2 ⟨ha, h⟩) s

theorem valueCrosses (hm : m.WellFormed) (hf : f ∈ m.functions) (s : Setting) (package : String) :
    List.Forall₂ (ValueCrosses f.exported.lines ((f.glue package).lines s)) f.slots
      ((f.glue package).passed.map (·.expression)) := by
  have hpassed : (f.glue package).passed.map (·.expression) =
      f.arguments.flatMap fun a => a.glueArgs.map (·.expression) := List.map_flatMap
  rw [hpassed]
  refine forall₂_flatMap fun a ha => Argument.valueCrosses (fun slot hslot => ?_) ?_ fun w hpass hw => ?_
  · rw [typedParameters_exported hm hf]
    exact List.mem_map.2 ⟨slot, List.mem_flatMap.2 ⟨a, ha, hslot⟩, rfl⟩
  · rw [typedParameters_glue hm hf]
    exact List.mem_append_right _ (List.mem_map.2 ⟨a, ha, rfl⟩)
  · rw [conversions_glue hm hf]
    refine List.mem_filterMap.2 ⟨a, ha, ?_⟩
    rw [Argument.converted?, hpass]
    exact if_pos hw

/-- The declarations of a function on the Java side agree. -/
theorem javaAgree (hm : m.WellFormed) (hf : f ∈ m.functions) (s : Setting)
    (hp : isPackageName s.options.javaPackage = true) :
    JavaAgree m f s.options.javaPackage f.exported.lines f.native.text
      ((f.glue s.options.javaPackage).lines s) ((f.javaMethod s).lines s) where
  exported := by
    rw [Reader.readAt_declaring, declared_exported (hm.named hf), typedParameters_exported hm hf,
      List.map_map]
    exact ⟨rfl, rfl⟩
  native := nativeMethods_native hm hf
  glueSymbol := by
    rw [Reader.readAt_declaring, declared_glue (hm.named hf) hp, nativeSymbol_eq (hm.named hf)]
  glue := typedParameters_glue hm hf s _
  types := fun a _ => a.passing.sameJava
  callee := javaCallee_within hm hf s
  scope := by
    rw [names_java hm hf]
    exact nodup_wrapperNames hm hf (by split <;> decide) (by split <;> decide)
  passed := ⟨_, nativeCalls_within hm hf s, javaTyped hm hf s⟩
  values := ⟨_, spreadCall?_glue hm hf s _, valueCrosses hm hf s _⟩
  limits := fun _ _ => mem_rangeLimits hm hf s

end Function

end

end Bindery
