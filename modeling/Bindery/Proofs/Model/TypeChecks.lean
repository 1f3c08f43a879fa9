/-
  WHAT THE CHECKS OF TYPES COME TO.

  Each check has two lemmas.  `…_eq_ok` says what it accepts, in the words of `WellFormed` and
  `DescribedBy`; `…_eq_unwritable` says when it meets a value that it cannot show.  Whoever uses a
  check uses these and does not open it.
-/
import Bindery.Proofs.Model.Unwritten
import Bindery.Proofs.Text.WordCase

namespace Bindery

open Naming Checked

variable {α : Type}

/-! ## Faults -/

@[simp] theorem invalid_ne_ok {cause : Invalid} {a : α} : invalid cause ≠ .ok a :=
  fun h => nomatch h

@[simp] theorem malformed_ne_ok {cause : Malformed} {a : α} : malformed cause ≠ .ok a :=
  fun h => nomatch h

@[simp] theorem invalid_ne_unwritable {cause : Invalid} :
    (invalid cause : Checked α) ≠ .error .unwritable :=
  fun h => nomatch h

@[simp] theorem malformed_ne_unwritable {cause : Malformed} :
    (malformed cause : Checked α) ≠ .error .unwritable :=
  fun h => nomatch h

/-- A fault that shows a text is a fault, with or without the text. -/
theorem written_bind_ne_ok {text : Option String} {cause : String → Invalid} {a : α} :
    (do invalid (cause (← written text)) : Checked α) ≠ .ok a := by
  cases text <;> exact fun h => nomatch h

theorem written_bind_eq_unwritable {text : Option String} {cause : String → Invalid} :
    (do invalid (cause (← written text)) : Checked α) = .error .unwritable ↔ text = none := by
  cases text with
  | none => exact ⟨fun _ => rfl, fun _ => rfl⟩
  | some s => exact ⟨fun h => (nomatch h), fun h => (nomatch h)⟩

/-- A check that fails on a condition leaves the rest to be checked without it. -/
theorem ite_invalid_eq_ok {c : Prop} [Decidable c] {cause : Invalid} {x : Checked α} {a : α} :
    (if c then invalid cause else x) = .ok a ↔ ¬ c ∧ x = .ok a := by
  by_cases hc : c <;> simp [hc]

@[inherit_doc ite_invalid_eq_ok]
theorem ite_invalid_eq_unwritable {c : Prop} [Decidable c] {cause : Invalid} {x : Checked α} :
    (if c then invalid cause else x) = .error .unwritable ↔ ¬ c ∧ x = .error .unwritable := by
  by_cases hc : c <;> simp [hc]

/-! ## Fields -/

namespace Value

theorem mapping_eq_ok {place : String} {v : Value} {es : List (Value × Value)} :
    v.mapping place = .ok es ↔ v.entries? = some es := by
  unfold mapping
  cases v.entries? <;> simp

theorem mapping_ne_unwritable {place : String} {v : Value} :
    v.mapping place ≠ .error .unwritable := by
  unfold mapping
  cases v.entries? <;> simp

theorem textField_eq_ok {place key s : String} {es : List (Value × Value)} :
    textField place key es = .ok s ↔ textOf? key es = some s := by
  unfold textField textOf?
  cases lookup? key es with
  | none => simp
  | some v => cases v <;> simp [text?]

theorem textField_ne_unwritable {place key : String} {es : List (Value × Value)} :
    textField place key es ≠ .error .unwritable := by
  unfold textField
  cases lookup? key es with
  | none => simp
  | some v => cases v <;> simp

theorem listField_eq_ok {place key : String} {es : List (Value × Value)} {vs : List Value} :
    listField place key es = .ok vs ↔ listOf? key es = some vs := by
  unfold listField listOf?
  cases lookup? key es with
  | none => simp
  | some v =>
    cases hv : v.items? with
    | some items => simp [hv]
    | none => cases ha : v.isAbsent <;> simp [hv, ha]

theorem listField_ne_unwritable {place key : String} {es : List (Value × Value)} :
    listField place key es ≠ .error .unwritable := by
  unfold listField
  cases lookup? key es with
  | none => simp
  | some v =>
    cases hv : v.items? with
    | some items => simp [hv]
    | none => cases ha : v.isAbsent <;> simp [hv, ha]

/-- A field that has a text can be shown. -/
theorem not_textless_of_textOf? {key s : String} {es : List (Value × Value)}
    (h : textOf? key es = some s) : ¬ (fieldOf key es).Textless := by
  unfold textOf? at h
  unfold fieldOf
  cases hv : lookup? key es with
  | none =>
    rw [hv] at h
    nomatch h
  | some v =>
    rw [hv] at h
    cases v with
    | str s => exact fun h => nomatch h
    | codes ps => exact fun h => nomatch h
    | _ => nomatch h

end Value

/-! ## Variants -/

/-- A name that is there already has generated names that are there already. -/
theorem variantsApart_of_find?_eq_none {before : List String} {s : String} :
    (variantForms s).find? (before.reverse.flatMap variantForms).contains = none ↔
      ∀ b ∈ before, VariantsApart b s := by
  simp only [List.find?_eq_none, List.contains_iff_mem, List.mem_flatMap, List.mem_reverse,
    VariantsApart]
  constructor
  · exact fun h b hb form hf hm => h form hf ⟨b, hb, hm⟩
  · rintro h form hf ⟨b, hb, hm⟩
    exact h b hb form hf hm

theorem VariantsApart.ne {v w : String} (h : VariantsApart v w) : v ≠ w := by
  rintro rfl
  exact h (variantCase v) (by simp [variantForms]) (by simp [variantForms])

theorem checkVariant_eq_ok (type : String) (before : List String) (v : Value) (s : String) :
    checkVariant type before.reverse (before.reverse.flatMap variantForms) v = .ok s ↔
      v = .str s ∧ VariantNamed s ∧ ∀ b ∈ before, VariantsApart b s := by
  cases v with
  | str t =>
    unfold checkVariant VariantNamed
    simp only [ite_invalid_eq_ok, Value.str.injEq, Bool.not_eq_true', ← Bool.not_eq_true,
      not_not, List.contains_iff_mem, List.mem_reverse]
    cases hfind : (variantForms t).find? (before.reverse.flatMap variantForms).contains with
    | none =>
      have ha := variantsApart_of_find?_eq_none.1 hfind
      constructor
      · rintro ⟨hname, hres, _, h⟩
        cases h
        exact ⟨rfl, ⟨hname, hres⟩, ha⟩
      · rintro ⟨rfl, ⟨hname, hres⟩, _⟩
        exact ⟨hname, hres, fun hm => (ha t hm).ne rfl, rfl⟩
    | some form =>
      constructor
      · rintro ⟨_, _, _, h⟩
        cases h
      · rintro ⟨rfl, _, ha⟩
        rw [variantsApart_of_find?_eq_none.2 ha] at hfind
        cases hfind
  | _ => exact ⟨fun h => (written_bind_ne_ok h).elim, by rintro ⟨⟨⟩, _⟩⟩

theorem checkVariant_eq_unwritable (type : String) (seen taken : List String) (v : Value) :
    checkVariant type seen taken v = .error .unwritable ↔ v.Textless := by
  rw [← Value.plain_eq_none]
  cases v with
  | str t =>
    unfold checkVariant
    simp only [ite_invalid_eq_unwritable]
    constructor
    · rintro ⟨_, _, _, h⟩
      cases hfind : (variantForms t).find? taken.contains with
      | none =>
        rw [hfind] at h
        cases h
      | some form =>
        rw [hfind] at h
        cases h
    · rintro ⟨⟩
  | _ => exact written_bind_eq_unwritable

theorem each_checkVariant (type : String) (vs : List Value) :
    checkVariantsAfter type [] [] vs =
      each (fun before => checkVariant type before.reverse (before.reverse.flatMap variantForms))
        [] vs := by
  let check := fun before : List String =>
    checkVariant type before.reverse (before.reverse.flatMap variantForms)
  let fresh := fun before : List String =>
    checkVariantsAfter type before.reverse (before.reverse.flatMap variantForms)
  have hcons : ∀ before v vs, fresh before (v :: vs) =
      (do let s ← check before v; return s :: (← fresh (before ++ [s]) vs)) := by
    intro before v vs
    simp [fresh, check, checkVariantsAfter]
  show fresh [] vs = each check [] vs
  rw [each_eq_map check fresh (fun _ => rfl) hcons [] vs]
  exact (id_map _).symm

theorem checkVariants_eq_ok {type : String} {vs : List Value} {ss : List String} :
    checkVariants type vs = .ok ss ↔ vs = ss.map .str ∧ VariantsWellFormed ss := by
  have hcount : (vs.isEmpty || decide (vs.length > maxVariants)) = true ↔
      ¬ (1 ≤ vs.length ∧ vs.length ≤ maxVariants) := by
    rw [Bool.or_eq_true, List.isEmpty_iff, decide_eq_true_eq, ← List.length_eq_zero_iff]
    omega
  have hmeans : List.Forall₂ (fun s v => v = Value.str s) ss vs ↔ vs = ss.map .str := by
    rw [List.forall₂_iff_get]
    constructor
    · rintro ⟨hl, h⟩
      refine List.ext_get (by simp [hl]) fun i hi hj => ?_
      simpa using h i (hl ▸ hi) hi
    · rintro rfl
      exact ⟨by simp, fun i hi hj => by simp⟩
  unfold checkVariants
  split
  · rename_i h
    constructor
    · exact fun h => nomatch h
    · rintro ⟨rfl, hw⟩
      exact absurd ⟨by simpa using hw.one_le, by simpa using hw.le_max⟩ (hcount.1 h)
  · rename_i h
    obtain ⟨h1, h2⟩ := not_not.1 (mt hcount.2 h)
    rw [each_checkVariant, each_nil_eq_ok fun before _ => checkVariant_eq_ok type before]
    constructor
    · rintro ⟨hm, hg, ha⟩
      obtain rfl := hmeans.1 hm
      exact ⟨rfl, ⟨by simpa using h1, by simpa using h2, hg, ha⟩⟩
    · rintro ⟨rfl, hw⟩
      exact ⟨hmeans.2 rfl, hw.named, hw.apart⟩

theorem checkVariants_eq_unwritable {type : String} {vs : List Value} :
    checkVariants type vs = .error .unwritable ↔ VariantsUnwritten vs := by
  have hcount : (vs.isEmpty || decide (vs.length > maxVariants)) = true ↔
      ¬ (1 ≤ vs.length ∧ vs.length ≤ maxVariants) := by
    rw [Bool.or_eq_true, List.isEmpty_iff, decide_eq_true_eq, ← List.length_eq_zero_iff]
    omega
  unfold checkVariants VariantsUnwritten
  rw [← and_assoc]
  split
  · rename_i h
    exact ⟨fun h => (nomatch h), fun ⟨hc, _⟩ => absurd hc (hcount.1 h)⟩
  · rename_i h
    rw [each_checkVariant, each_nil_eq_error (fun before _ => checkVariant_eq_ok type before)
      (fun before _ => checkVariant_eq_unwritable type before.reverse _)]
    exact (and_iff_right (not_not.1 (mt hcount.2 h))).symm

/-! ## Names -/

theorem mem_takenNames {modules : List String} {other : String} :
    other ∈ takenNames modules ↔ other ∈ reservedTypeNames ∨ other ∈ modules.map moduleClass :=
  List.mem_append

theorem sharesFile?_eq_none {modules : List String} {types : List TypeDef} {name : String} :
    sharesFile? modules types name = none ↔
      (∀ other ∈ takenNames modules, lower other ≠ lower name) ∧
        ∀ t ∈ types, lower t.name ≠ lower name := by
  unfold sharesFile?
  rw [List.find?_eq_none]
  show (∀ other ∈ takenNames modules ++ types.map (·.name), _) ↔ _
  rw [List.forall_mem_append, List.forall_mem_map]
  simp only [beq_iff_eq]

theorem sharesStem?_eq_none {types : List TypeDef} {name : String}
    (hspelled : ∀ t ∈ types, isTypeName t.name = true) (hname : isTypeName name = true)
    (hfree : ∀ t ∈ types, lower t.name ≠ lower name) : sharesStem? types name = none := by
  unfold sharesStem?
  rw [Option.map_eq_none_iff, List.find?_eq_none]
  intro t ht hstem
  exact hfree t ht (lower_eq_of_stem_eq (plain_of_isTypeName (hspelled t ht))
    (plain_of_isTypeName hname) (beq_iff_eq.1 hstem))

/-- Whatever else the check of a name asks follows from what it asks of file names. -/
theorem checkTypeName_eq_ok {modules : List String} {types : List TypeDef} {name : String}
    (hspelled : ∀ t ∈ types, isTypeName t.name = true) :
    checkTypeName modules types name = .ok () ↔
      TypeNamed modules name ∧ ∀ t ∈ types, lower t.name ≠ lower name := by
  unfold checkTypeName TypeNamed
  simp only [ite_invalid_eq_ok, Bool.or_eq_true, Bool.not_eq_true', ← Bool.not_eq_true, not_or,
    not_not, List.contains_iff_mem, List.any_eq_true, beq_iff_eq, not_exists, not_and]
  constructor
  · rintro ⟨⟨hname, _⟩, _, _, h⟩
    cases hstem : sharesStem? types name with
    | some other =>
      rw [hstem] at h
      cases h
    | none =>
      cases hfile : sharesFile? modules types name with
      | some other =>
        rw [hstem, hfile] at h
        cases h
      | none =>
        obtain ⟨htaken, hfree⟩ := sharesFile?_eq_none.1 hfile
        exact ⟨⟨hname, htaken⟩, hfree⟩
  · rintro ⟨⟨hname, htaken⟩, hfree⟩
    refine ⟨⟨hname, ?_⟩, ?_, ?_, ?_⟩
    · exact fun hm => htaken name (mem_takenNames.2 (Or.inl hm)) rfl
    · exact fun hm => htaken name (mem_takenNames.2 (Or.inr hm)) rfl
    · rintro t ht rfl
      exact hfree t ht rfl
    · rw [sharesStem?_eq_none hspelled hname hfree, sharesFile?_eq_none.2 ⟨htaken, hfree⟩]

theorem checkTypeName_ne_unwritable {modules : List String} {types : List TypeDef}
    {name : String} : checkTypeName modules types name ≠ .error .unwritable := by
  unfold checkTypeName
  simp only [Ne, ite_invalid_eq_unwritable]
  rintro ⟨_, _, _, h⟩
  cases hstem : sharesStem? types name with
  | some other =>
    rw [hstem] at h
    cases h
  | none =>
    cases hfile : sharesFile? modules types name with
    | some other =>
      rw [hstem, hfile] at h
      cases h
    | none =>
      rw [hstem, hfile] at h
      cases h

/-! ## Placements and sizes -/

theorem checkPlacement_eq_ok {modules : List String} {name : String} {es : List (Value × Value)}
    {placement : Option String} :
    checkPlacement modules name (Value.lookup? "module" es) = .ok placement ↔
      Value.fieldOf "module" es = Value.ofText? placement ∧ Placed modules placement := by
  have hnull : ∀ p : Option String, Value.null = Value.ofText? p ↔ p = none := by
    rintro (_ | s) <;> simp [Value.ofText?]
  have habsent : (Except.ok none : Checked (Option String)) = .ok placement ↔
      Value.null = Value.ofText? placement ∧ Placed modules placement := by
    rw [hnull, Except.ok.injEq]
    constructor
    · rintro rfl
      exact ⟨rfl, by rintro home ⟨⟩⟩
    · exact fun h => h.1.symm
  unfold Value.fieldOf
  cases Value.lookup? "module" es with
  | none => exact habsent
  | some v =>
    cases v with
    | null => exact habsent
    | str home =>
      show (if _ then _ else _) = _ ↔ Value.str home = _ ∧ _
      by_cases hc : (modules.contains home || home == Model.internalModule) = true
      · rw [if_pos hc, Except.ok.injEq]
        rw [Bool.or_eq_true, List.contains_iff_mem, beq_iff_eq] at hc
        constructor
        · rintro rfl
          exact ⟨rfl, fun _ h => Option.some.inj h ▸ hc⟩
        · rintro ⟨h, _⟩
          cases placement with
          | none => cases h
          | some s => rw [Value.str.inj h]
      · rw [if_neg hc]
        refine ⟨by rintro ⟨⟩, ?_⟩
        rintro ⟨h, hp⟩
        cases placement with
        | none => cases h
        | some s =>
          cases Value.str.inj h
          rw [Bool.or_eq_true, List.contains_iff_mem, beq_iff_eq] at hc
          exact absurd (hp home rfl) hc
    | _ =>
      refine ⟨fun h => (written_bind_ne_ok h).elim, ?_⟩
      rintro ⟨h, _⟩
      cases placement <;> cases h

theorem checkPlacement_eq_unwritable {modules : List String} {name : String}
    {es : List (Value × Value)} :
    checkPlacement modules name (Value.lookup? "module" es) = .error .unwritable ↔
      (Value.fieldOf "module" es).Textless := by
  unfold Value.fieldOf
  rw [← Value.plain_eq_none]
  cases Value.lookup? "module" es with
  | none => exact ⟨fun h => (nomatch h), fun h => (nomatch h)⟩
  | some v =>
    cases v with
    | null => exact ⟨fun h => (nomatch h), fun h => (nomatch h)⟩
    | str home =>
      have hne : checkPlacement modules name (some (.str home)) ≠ .error .unwritable := by
        unfold checkPlacement
        dsimp only
        split <;> exact fun h => nomatch h
      exact ⟨fun h => absurd h hne, fun h => (nomatch h)⟩
    | _ => exact written_bind_eq_unwritable

theorem checkSize_eq_ok {name : String} {v : Value} {size : Nat} :
    checkSize name v = .ok size ↔ v = .int size ∧ 0 < size := by
  unfold checkSize
  cases v with
  | int n =>
    dsimp only
    by_cases hn : 0 < n
    · rw [if_pos hn, Except.ok.injEq, Value.int.injEq]
      omega
    · rw [if_neg hn]
      refine ⟨fun h => (written_bind_ne_ok h).elim, ?_⟩
      rintro ⟨h, hs⟩
      have hsize : n = size := Value.int.inj h
      omega
  | _ => exact ⟨fun h => (written_bind_ne_ok h).elim, fun h => (nomatch h.1)⟩

theorem checkSize_eq_unwritable {name : String} {v : Value} :
    checkSize name v = .error .unwritable ↔ SizeUnwritten v := by
  unfold checkSize SizeUnwritten
  cases v with
  | int n =>
    dsimp only
    by_cases hn : 0 < n
    · rw [if_pos hn]
      refine ⟨fun h => (nomatch h), fun h => absurd (h.2 n rfl) (by omega)⟩
    · rw [if_neg hn, written_bind_eq_unwritable]
      refine ⟨fun h => ⟨h, fun m hm => ?_⟩, fun h => h.1⟩
      cases hm
      omega
  | _ =>
    refine written_bind_eq_unwritable.trans ⟨fun h => ⟨h, fun m hm => (nomatch hm)⟩, fun h => h.1⟩

/-! ## Types -/

theorem Kind.ofName?_eq_some {word : String} {kind : Kind} :
    Kind.ofName? word = some kind ↔ word = kind.name := by
  constructor
  · intro h
    unfold Kind.ofName? at h
    split at h
    · cases h
      assumption
    split at h
    · cases h
      assumption
    split at h
    · cases h
      assumption
    · nomatch h
  · rintro rfl
    exact Kind.ofName?_name kind

theorem checkShape_eq_ok {place name : String} {kind : Kind} {es : List (Value × Value)}
    {placement : Option String} {t : TypeDef} :
    checkShape place name kind placement es = .ok t ↔
      t.name = name ∧ t.placement = placement ∧ t.shape.kind = kind ∧ t.shape.DescribedBy es ∧
        t.shape.WellFormed ∧ (t.isScalar = true → t.placement = none) := by
  obtain ⟨name', shape, placement'⟩ := t
  unfold checkShape
  cases kind with
  | enum =>
    simp only [bind_eq_ok, Value.listField_eq_ok, checkVariants_eq_ok]
    constructor
    · rintro ⟨vs, hvs, ss, ⟨rfl, hw⟩, h⟩
      cases h
      exact ⟨rfl, rfl, rfl, hvs, hw, fun h => nomatch h⟩
    · rintro ⟨rfl, rfl, hk, hd, hw, _⟩
      cases shape with
      | enum ss => exact ⟨_, hd, ss, ⟨rfl, hw⟩, rfl⟩
      | _ => nomatch hk
  | buffer =>
    simp only [bind_eq_ok, checkSize_eq_ok]
    constructor
    · rintro ⟨size, ⟨hsize, hpos⟩, h⟩
      cases h
      exact ⟨rfl, rfl, rfl, hsize, hpos, fun h => nomatch h⟩
    · rintro ⟨rfl, rfl, hk, hd, hw, _⟩
      cases shape with
      | buffer size => exact ⟨size, ⟨hd, hw⟩, rfl⟩
      | _ => nomatch hk
  | scalar =>
    simp only [bind_eq_ok, checkSize_eq_ok]
    constructor
    · rintro ⟨size, ⟨hsize, hpos⟩, h⟩
      cases hwidth : Width.ofBytes? size with
      | none =>
        rw [hwidth] at h
        nomatch h
      | some width =>
        rw [hwidth] at h
        cases placement with
        | some home => nomatch h
        | none =>
          cases h
          refine ⟨rfl, rfl, rfl, ?_, trivial, fun _ => rfl⟩
          rw [Width.ofBytes?_eq_some.1 hwidth] at hsize
          exact hsize
    · rintro ⟨rfl, rfl, hk, hd, hw, hplaced⟩
      cases shape with
      | scalar width =>
        have hnone : placement' = none := hplaced rfl
        subst hnone
        refine ⟨width.bytes, ⟨hd, by cases width <;> decide⟩, ?_⟩
        rw [Width.ofBytes?_eq_some.2 rfl]
        rfl
      | _ => nomatch hk

theorem checkShape_eq_unwritable {place name : String} {kind : Kind} {es : List (Value × Value)}
    {placement : Option String} :
    checkShape place name kind placement es = .error .unwritable ↔
      kind.Unwritten es := by
  unfold checkShape
  cases kind with
  | enum =>
    simp only [bind_eq_error, Value.listField_ne_unwritable, Value.listField_eq_ok, false_or,
      checkVariants_eq_unwritable]
    constructor
    · rintro ⟨vs, hvs, h | ⟨ss, _, h⟩⟩
      · exact ⟨vs, hvs, h⟩
      · nomatch h
    · rintro ⟨vs, hvs, h⟩
      exact ⟨vs, hvs, Or.inl h⟩
  | buffer =>
    simp only [bind_eq_error, checkSize_eq_unwritable]
    refine ⟨?_, Or.inl⟩
    rintro (h | ⟨size, _, h⟩)
    · exact h
    · nomatch h
  | scalar =>
    simp only [bind_eq_error, checkSize_eq_unwritable]
    refine ⟨?_, Or.inl⟩
    rintro (h | ⟨size, _, h⟩)
    · exact h
    · cases hwidth : Width.ofBytes? size with
      | none =>
        rw [hwidth] at h
        nomatch h
      | some width =>
        rw [hwidth] at h
        cases placement <;> nomatch h

theorem TypeDef.WellFormed.isTypeName {modules : List String} {t : TypeDef}
    (h : t.WellFormed modules) : Naming.isTypeName t.name = true := h.named.1

theorem checkType_eq_ok {modules : List String} {types : List TypeDef} {place : String}
    (hgood : ∀ s ∈ types, s.WellFormed modules) (v : Value) (t : TypeDef) :
    checkType modules types place v = .ok t ↔
      t.DescribedBy v ∧ t.WellFormed modules ∧ ∀ s ∈ types, TypesApart s t := by
  have hspelled : ∀ s ∈ types, isTypeName s.name = true := fun s hs => (hgood s hs).isTypeName
  unfold checkType
  simp only [bind_eq_ok, Value.mapping_eq_ok, Value.textField_eq_ok]
  constructor
  · rintro ⟨es, hes, name, hname, word, hword, h⟩
    cases hkind : Kind.ofName? word with
    | none =>
      simp only [hkind, bind_eq_ok, malformed_ne_ok, and_false, exists_false] at h
    | some kind =>
      simp only [hkind, bind_eq_ok, checkPlacement_eq_ok, checkShape_eq_ok] at h
      obtain ⟨_, hn, placement, ⟨hfield, hplaced⟩, rfl, rfl, hk, hd, hw, hu⟩ := h
      obtain ⟨hnamed, hapart⟩ := (checkTypeName_eq_ok hspelled).1 hn
      rw [Kind.ofName?_eq_some.1 hkind, ← hk] at hword
      exact ⟨⟨es, hes, hname, hword, hfield, hd⟩, ⟨hnamed, hplaced, hu, hw⟩, hapart⟩
  · rintro ⟨⟨es, hes, hname, hword, hfield, hd⟩, hw, hapart⟩
    refine ⟨es, hes, t.name, hname, t.shape.kind.name, hword, ?_⟩
    simp only [Kind.ofName?_name, bind_eq_ok, checkPlacement_eq_ok, checkShape_eq_ok]
    exact ⟨(), (checkTypeName_eq_ok hspelled).2 ⟨hw.named, hapart⟩, t.placement,
      ⟨hfield, hw.placed⟩, trivial, rfl, trivial, hd, hw.shape, hw.unplaced⟩

theorem checkType_eq_unwritable {modules : List String} {types : List TypeDef} {place : String}
    (hgood : ∀ s ∈ types, s.WellFormed modules) (v : Value) :
    checkType modules types place v = .error .unwritable ↔ TypeUnwritten modules types v := by
  have hspelled : ∀ s ∈ types, isTypeName s.name = true := fun s hs => (hgood s hs).isTypeName
  unfold checkType
  simp only [bind_eq_error, Value.mapping_eq_ok, Value.mapping_ne_unwritable,
    Value.textField_eq_ok, Value.textField_ne_unwritable, false_or]
  constructor
  · rintro ⟨es, hes, name, hname, word, hword, h⟩
    cases hkind : Kind.ofName? word with
    | none =>
      -- The kind is a text, so a kind that there is not can be shown.
      have htext := Value.not_textless_of_textOf? hword
      rw [hkind] at h
      cases hl : (Value.fieldOf "kind" es).literal with
      | none => exact absurd hl htext
      | some literal =>
        rw [hl] at h
        nomatch h
    | some kind =>
      simp only [hkind, bind_eq_error, checkTypeName_ne_unwritable, false_or,
        checkPlacement_eq_unwritable, checkPlacement_eq_ok, checkShape_eq_unwritable] at h
      obtain ⟨_, hn, h⟩ := h
      obtain ⟨hnamed, hapart⟩ := (checkTypeName_eq_ok hspelled).1 hn
      rw [Kind.ofName?_eq_some.1 hkind] at hword
      refine ⟨es, name, kind, hes, hname, hword, hnamed, hapart, h.imp_right ?_⟩
      rintro ⟨placement, hp, hu⟩
      exact ⟨⟨placement, hp⟩, hu⟩
  · rintro ⟨es, name, kind, hes, hname, hword, hnamed, hapart, h⟩
    refine ⟨es, hes, name, hname, kind.name, hword, ?_⟩
    simp only [Kind.ofName?_name, bind_eq_error, checkPlacement_eq_unwritable,
      checkPlacement_eq_ok, checkShape_eq_unwritable]
    refine Or.inr ⟨(), (checkTypeName_eq_ok hspelled).2 ⟨hnamed, hapart⟩, h.imp_right ?_⟩
    rintro ⟨⟨placement, hp⟩, hu⟩
    exact ⟨placement, hp, hu⟩

theorem each_checkType (modules : List String) (types : List TypeDef) (vs : List Value) :
    checkTypesAfter modules types vs =
      each (fun before => checkType modules before (Value.placeAt "types" before.length))
        types vs := by
  induction vs generalizing types with
  | nil => rfl
  | cons v vs ih =>
    rw [checkTypesAfter, each]
    simp only [ih]

theorem checkTypes_eq_ok {modules : List String} {vs : List Value} {types : List TypeDef} :
    checkTypes modules vs = .ok types ↔
      Accepted TypeDef.DescribedBy (TypeDef.WellFormed modules) TypesApart types vs := by
  rw [checkTypes, each_checkType]
  exact each_nil_eq_ok fun _ hgood => checkType_eq_ok hgood

theorem checkTypes_eq_unwritable {modules : List String} {vs : List Value} :
    checkTypes modules vs = .error .unwritable ↔
      StopsAt TypeDef.DescribedBy (TypeDef.WellFormed modules) TypesApart
        (TypeUnwritten modules) vs := by
  rw [checkTypes, each_checkType]
  exact each_nil_eq_error (fun _ hgood => checkType_eq_ok hgood)
    (fun _ hgood => checkType_eq_unwritable hgood)

end Bindery
