/-
  NAMES THAT BODIES BIND, and that they meet with nothing.

  Every body takes the names of the parameters and makes others from them, each layer in a way of its
  own: the length of a slot, the value of a parameter, the bytes behind it; and it adds a few of its
  own.  Names that are declared have no underscore and are not reserved, and the native argument list
  has no name twice; from these three facts it follows that no two of these names meet, and that none
  of them is the name of a helper or of an exported function (`Bindable.free`).

  Underscores tell most of them apart: a declared name has none, what is made from it has one, and an
  exported symbol has two.
-/
import Bindery.Proofs.Boundary.Shim

namespace Bindery

open Naming Source

/-! ## Names that are made -/

/-- The names that the bodies bring along. -/
def ownNames : List String := ["env", "_class", "code", "result", "ffiResult", "e"]

/-- The functions that generated code refers to without saying where they are. -/
def helperNames : List String :=
  "simpleapi" :: exportHelpers ++ safeHelpers ++
    ["jni_call", "jni_read", "jni_alloc", "jni_write", "decodeScalar", "decodeEnum", "precondition"]

/-- `Bindable f name` — a name that a body of the function may bind. -/
inductive Bindable (f : Function) : String → Prop where
  | argument {a : Argument} : a ∈ f.arguments → Bindable f a.name
  | length {a : Argument} : a ∈ f.arguments → Bindable f (lengthSlot a.name)
  | value {a : Argument} : a ∈ f.arguments → Bindable f (valueLocal a.name)
  | buffer {a : Argument} : a ∈ f.arguments → Bindable f (bufferLocal a.name)
  | own {name : String} : name ∈ ownNames → Bindable f name

/-- The number of underscores in a name. -/
def bars (name : String) : Nat := name.toList.count '_'

theorem bars_append (a b : String) : bars (a ++ b) = bars a + bars b := by
  rw [bars, String.toList_append, List.count_append]
  rfl

theorem bars_of_plain {name : String} (h : Plain name.toList) : bars name = 0 :=
  List.count_eq_zero.2 fun hmem => h.ne_bar _ hmem rfl

section

variable {m : Model} {f : Function} {a : Argument} {name : String}

theorem Function.Named.bars_coreSymbol (h : f.Named) : bars f.coreSymbol = 2 := by
  unfold Function.coreSymbol
  simp only [bars_append, bars_of_plain h.module, bars_of_plain h.name]
  decide

theorem Function.Named.bars_safeSymbol (h : f.Named) : bars f.safeSymbol = 1 := by
  unfold Function.safeSymbol
  simp only [bars_append, bars_of_plain h.module, bars_of_plain h.name]
  decide

theorem Model.WellFormed.plain_argument (hm : m.WellFormed) (hf : f ∈ m.functions)
    (ha : a ∈ f.arguments) : Plain a.name.toList := by
  rcases Function.mem_arguments.1 ha with ⟨p, hp, rfl⟩ | ⟨t, _, rfl⟩
  · exact plain_of_isMemberName ((hm.function hf).parameters p hp).1.1
  · exact List.all_eq_true.1 (by decide : resultSlot.toList.all (·.isAlphanum) = true)

/-- No text that ends otherwise is made in that way. -/
theorem append_notMem {names : List String} {ending : String}
    (h : ∀ n ∈ names, ¬ ending.toList <:+ n.toList) (base : String) : base ++ ending ∉ names := by
  intro hmem
  refine h _ hmem ?_
  rw [String.toList_append]
  exact List.suffix_append _ _

/-- A declared name is neither a helper nor one of the bodies' own. -/
theorem Model.WellFormed.argument_notMem (hm : m.WellFormed) (hf : f ∈ m.functions)
    (ha : a ∈ f.arguments) : a.name ∉ ownNames ++ helperNames := by
  intro hmem
  -- Those of these names that are not reserved have an underscore.
  have hcases := (by decide : ∀ n ∈ ownNames ++ helperNames, isReserved n = true ∨ bars n ≠ 0) _ hmem
  rcases hcases with h | h
  · rw [(hm.free_name hf ha).2] at h
    nomatch h
  · exact h (bars_of_plain (hm.plain_argument hf ha))

theorem Model.WellFormed.own_ne (hm : m.WellFormed) (hf : f ∈ m.functions) (ha : a ∈ f.arguments)
    {own : String} (hown : own ∈ ownNames) : a.name ≠ own := by
  rintro rfl
  exact hm.argument_notMem hf ha (List.mem_append_left _ hown)

/-- A name that is made from a declared one has the underscores of what is put behind it. -/
theorem Model.WellFormed.bars_made (hm : m.WellFormed) (hf : f ∈ m.functions) (ha : a ∈ f.arguments)
    (ending : String) : bars (a.name ++ ending) = bars ending := by
  rw [bars_append, bars_of_plain (hm.plain_argument hf ha), Nat.zero_add]

/-- Whether a text can be the name of a local: it starts with a small letter or an underscore. -/
def isLocalName (name : String) : Bool :=
  match name.toList with
  | [] => false
  | c :: s => (c.isLower || c == '_') && s.all isIdentifierChar

theorem isLocalName_append {base ending : String} (hbase : isLocalName base = true)
    (hending : Wordy ending.toList) : isLocalName (base ++ ending) = true := by
  unfold isLocalName at hbase ⊢
  rw [String.toList_append]
  cases hread : base.toList with
  | nil =>
    rw [hread] at hbase
    nomatch hbase
  | cons c s =>
    rw [hread] at hbase
    rw [List.cons_append]
    dsimp only at hbase ⊢
    rw [Bool.and_eq_true] at hbase ⊢
    rw [List.all_append, hbase.2, Bool.true_and]
    exact ⟨hbase.1, List.all_eq_true.2 hending⟩

/-- With a path or an object in front a name is no local. -/
theorem isLocalName_eq_false {name : String} {c : Char} (hmem : c ∈ name.toList)
    (hc : isIdentifierChar c = false) : isLocalName name = false := by
  rw [Bool.eq_false_iff]
  intro hlocal
  unfold isLocalName at hlocal
  cases hread : name.toList with
  | nil =>
    rw [hread] at hmem
    cases hmem
  | cons d s =>
    rw [hread] at hlocal hmem
    rw [Bool.and_eq_true, Bool.or_eq_true, beq_iff_eq, List.all_eq_true] at hlocal
    obtain ⟨hd, hs⟩ := hlocal
    rcases List.mem_cons.1 hmem with rfl | hmem
    · rcases hd with hd | rfl
      · rw [isIdentifierChar, isAlphanum_of_isLower hd, Bool.true_or] at hc
        cases hc
      · exact absurd hc (by decide)
    · rw [hs c hmem] at hc
      cases hc

theorem Model.WellFormed.isLocalName_argument (hm : m.WellFormed) (hf : f ∈ m.functions)
    (ha : a ∈ f.arguments) : isLocalName a.name = true := by
  rcases Function.mem_arguments.1 ha with ⟨p, hp, rfl⟩ | ⟨t, _, rfl⟩
  · have hmember : isMemberName p.name = true := ((hm.function hf).parameters p hp).1.1
    unfold isMemberName Naming.spelled at hmember
    show isLocalName p.name = true
    unfold isLocalName
    cases hread : p.name.toList with
    | nil =>
      rw [hread] at hmember
      nomatch hmember
    | cons c s =>
      rw [hread, spelledChars, Bool.and_eq_true, List.all_eq_true] at hmember
      rw [Bool.and_eq_true, hmember.1, Bool.true_or, List.all_eq_true]
      refine ⟨rfl, fun d hd => ?_⟩
      rw [isIdentifierChar, hmember.2 d hd, Bool.true_or]
  · exact (by decide : isLocalName resultSlot = true)

/-! ## Names that are taken -/

namespace Model

/-- What a body may mean by a name alone, besides what it binds: the helpers of all layers and the
exported functions. -/
def takenNames (m : Model) : List String := helperNames ++ m.functions.map (·.coreSymbol)

/-- The functions of the safe layer; in front of their names there is a path, wherever they are meant. -/
def safeNames (m : Model) : List String := m.functions.map (·.safeSymbol)

/-- `m.Foreign callee` — if it could be the name of a local, it is one that is taken. -/
def Foreign (m : Model) (callee : String) : Prop := isLocalName callee = true → callee ∈ m.takenNames

end Model

/-- **No bindable name is taken**: neither by a helper nor by an exported function. -/
theorem Bindable.notMem_takenNames (hm : m.WellFormed) (hf : f ∈ m.functions) (h : Bindable f name) :
    name ∉ m.takenNames := by
  -- An exported symbol has two underscores, and what is bound has one at most.
  have hfree : name ∉ helperNames → bars name ≤ 1 → name ∉ m.takenNames := by
    intro hhelper hbars hmem
    rcases List.mem_append.1 hmem with hmem | hmem
    · exact hhelper hmem
    · obtain ⟨g, hg, rfl⟩ := List.mem_map.1 hmem
      rw [(hm.named hg).bars_coreSymbol] at hbars
      exact absurd hbars (by decide)
  cases h with
  | @argument a ha =>
    refine hfree (fun hmem => hm.argument_notMem hf ha (List.mem_append_right _ hmem)) ?_
    rw [bars_of_plain (hm.plain_argument hf ha)]
    exact Nat.zero_le 1
  | @length a ha =>
    exact hfree (append_notMem (by decide : ∀ n ∈ helperNames, ¬ "Len".toList <:+ n.toList) _)
      ((hm.bars_made hf ha _).trans_le (by decide))
  | @value a ha =>
    exact hfree (append_notMem (by decide : ∀ n ∈ helperNames, ¬ "_value".toList <:+ n.toList) _)
      ((hm.bars_made hf ha _).trans_le (by decide))
  | @buffer a ha =>
    exact hfree (append_notMem (by decide : ∀ n ∈ helperNames, ¬ "_buf".toList <:+ n.toList) _)
      ((hm.bars_made hf ha _).trans_le (by decide))
  | own hown =>
    exact hfree ((by decide : ∀ n ∈ ownNames, n ∉ helperNames) _ hown)
      ((by decide : ∀ n ∈ ownNames, bars n ≤ 1) _ hown)

theorem Bindable.isLocalName (hm : m.WellFormed) (hf : f ∈ m.functions) (h : Bindable f name) :
    isLocalName name = true := by
  cases h with
  | argument ha => exact hm.isLocalName_argument hf ha
  | length ha => exact isLocalName_append (hm.isLocalName_argument hf ha) (by decide)
  | value ha => exact isLocalName_append (hm.isLocalName_argument hf ha) (by decide)
  | buffer ha => exact isLocalName_append (hm.isLocalName_argument hf ha) (by decide)
  | own hown => exact (by decide : ∀ n ∈ ownNames, Bindery.isLocalName n = true) _ hown

/-- What calls nothing but what is foreign calls no local. -/
theorem Bindable.notMem_calleesIn (hm : m.WellFormed) (hf : f ∈ m.functions) (h : Bindable f name)
    {text : String} (hcalls : Calls m.Foreign text) : name ∉ calleesIn text := fun hmem =>
  h.notMem_takenNames hm hf (hcalls name hmem (h.isLocalName hm hf))

/-- A name without an underscore is no function of the safe layer, either. -/
theorem notMem_safeNames (hm : m.WellFormed) (h : bars name = 0) : name ∉ m.safeNames := by
  intro hmem
  obtain ⟨g, hg, rfl⟩ := List.mem_map.1 hmem
  rw [(hm.named hg).bars_safeSymbol] at h
  exact absurd h (by decide)

theorem foreign_of_mem {callee : String} (h : callee ∈ helperNames) : m.Foreign callee := fun _ =>
  List.mem_append_left _ h

theorem foreign_of_not {callee : String} (h : isLocalName callee = false) : m.Foreign callee := by
  intro hlocal
  rw [h] at hlocal
  nomatch hlocal

/-- A text that names helpers alone, or nothing that a local could be meant by. -/
theorem calls_of_callees {text : String} (h : ∀ callee ∈ calleesIn text, callee ∈ helperNames ∨
    isLocalName callee = false) : Calls m.Foreign text := fun callee hcallee =>
  (h callee hcallee).elim foreign_of_mem foreign_of_not

/-- A method is called on an object. -/
theorem calls_method {object method after : String} (hobject : Wordy object.toList)
    (hmethod : Wordy method.toList) (hafter : Calls m.Foreign after) :
    Calls m.Foreign (object ++ ("." ++ method) ++ ("(" ++ after)) := by
  refine .call ?_ (foreign_of_not (isLocalName_eq_false (c := '.') ?_ (by decide))) hafter
  · simp only [String.toList_append]
    exact List.forall_mem_append.2 ⟨isCalleeChar_of_wordy hobject, List.forall_mem_append.2
      ⟨List.forall_mem_singleton.2 (by decide), isCalleeChar_of_wordy hmethod⟩⟩
  · simp only [String.toList_append, List.mem_append]
    exact Or.inr (Or.inl (by decide))

end

end Bindery
