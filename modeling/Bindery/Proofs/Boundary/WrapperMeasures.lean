/-
  LENGTHS IN USE: what the safe layer and the wrappers go by.

  The safe layer checks the slots that it is handed and makes arrays of its own, both by constants of
  its own file.  A wrapper makes room for what is filled and passes on what is read, and both are as
  long as the value class of the type says: a value of the class has just so many bytes.

  Each of them goes through the arguments of a function in order, so what it states is a list beside
  theirs; resolved by the numbers that are in scope, it is the list of the sizes of their types.
-/
import Bindery.Proofs.Boundary.ExportMeasures

namespace Bindery

open Naming Source

/-! ## Lengths of arguments -/

namespace Argument

/-- Whether an argument travels as a pointer and a length. -/
def isPointed (a : Argument) : Bool :=
  match a.passing with
  | .inValue _ => false
  | _ => true

/-- The number of bytes that an argument points to, if it does. -/
def length? (a : Argument) : Option Int := if a.isPointed then some (a.type.byteSize : Int) else none

/-- The length of an argument, given the spelling of the constants. -/
def stated (constant : String → String) (a : Argument) : String × String :=
  (a.name, a.type.size.spell constant)

/-- Whether bytes are filled that become an array. -/
def isMade (a : Argument) : Bool := a.isFilled && a.type.isBuffer

end Argument

/-- The number of bytes that a slot is the length of, if it is one. -/
def Slot.length? (slot : Slot) : Option Int :=
  if slot.kind = .length then some (slot.argument.type.byteSize : Int) else none

/-! ## The safe layer -/

/-- The slot that is checked in front of the call, with its length. -/
def Prepare.checked? : Prepare → Option (String × String)
  | checkOutput parameter size => some (parameter, size.spell lengthConstant)
  | copyInput parameter type => some (parameter, lengthConstant type)
  | _ => none

/-- The slot that an array is made for, with its length. -/
def Prepare.made? : Prepare → Option (String × String)
  | emptyArray parameter type => some (parameter, lengthConstant type)
  | _ => none

/-- How the length of a slice that is filled is checked. -/
def outputCheck (x : String × String) : String := "check_output" ++ inParens (commas [x.1, x.2]) ++ "?;"

/-- How the length of a slice that is read is checked: it becomes an array. -/
def inputCopy (x : String × String) : String :=
  "let " ++ valueLocal x.1 ++ ": " ++ arrayType x.2 ++ " = fixed" ++ inParens x.1 ++ "?;"

/-- How an array is made. -/
def newArray (x : String × String) : String :=
  "let mut " ++ valueLocal x.1 ++ " = [0u8; " ++ x.2 ++ "];"

/-- The array that is returned, with its length. -/
def SafeReturn.made? : SafeReturn → Option (String × String)
  | array length => some (resultSlot, length)
  | _ => none

namespace SafeFunction

/-- The slots that are checked. -/
def checked (f : SafeFunction) : List (String × String) := f.prepared.filterMap (·.checked?)

/-- The slots that arrays are made for. -/
def made (f : SafeFunction) : List (String × String) :=
  f.prepared.filterMap (·.made?) ++ f.returns.made?.toList

variable {f : SafeFunction} {p : Prepare} {x : String × String}

theorem statement_mem (hp : p ∈ f.prepared) (errorType : String) :
    ⟨1, p.statement⟩ ∈ f.lines errorType :=
  List.mem_append_left _ (mem_block (l := line p.statement)
    (List.mem_map.2 ⟨_, List.mem_append_left _ (List.mem_map.2 ⟨p, hp, rfl⟩), rfl⟩) _)

/-- The checks stand in the text of the function. -/
theorem checked_mem (hx : x ∈ f.checked) (errorType : String) :
    ⟨1, outputCheck x⟩ ∈ f.lines errorType ∨ ⟨1, inputCopy x⟩ ∈ f.lines errorType := by
  obtain ⟨p, hp, hcheck⟩ := List.mem_filterMap.1 hx
  have hmem := statement_mem hp errorType
  cases p with
  | checkOutput parameter size =>
    obtain rfl := Option.some.inj hcheck
    exact Or.inl hmem
  | copyInput parameter type =>
    obtain rfl := Option.some.inj hcheck
    exact Or.inr hmem
  | _ => nomatch hcheck

/-- So do the arrays; the last one is the type of what is returned. -/
theorem made_mem (hx : x ∈ f.made) (errorType : String) :
    ⟨1, newArray x⟩ ∈ f.lines errorType ∨ x.1 = resultSlot ∧ f.returns.rust = arrayType x.2 := by
  rcases List.mem_append.1 hx with hx | hx
  · obtain ⟨p, hp, hmake⟩ := List.mem_filterMap.1 hx
    have hmem := statement_mem hp errorType
    cases p with
    | emptyArray parameter type =>
      obtain rfl := Option.some.inj hmake
      exact Or.inl hmem
    | _ => nomatch hmake
  · right
    cases hreturns : f.returns with
    | array length =>
      rw [hreturns] at hx
      obtain rfl := List.mem_singleton.1 hx
      exact ⟨rfl, rfl⟩
    | _ =>
      rw [hreturns] at hx
      nomatch hx

end SafeFunction

section

variable {m : Model} {f : Function}

theorem filterMap_flatMap_of_ite {α β γ : Type} {as : List α} {g : α → List β} {k : β → Option γ}
    {q : α → Bool} {h : α → γ}
    (hg : ∀ a, (g a).filterMap k = (if q a then some (h a) else none).toList) :
    (as.flatMap g).filterMap k = (as.filter q).map h := by
  rw [List.filterMap_flatMap, ← filterMap_of_ite fun a _ => rfl, List.filterMap_eq_flatMap_toList]
  exact List.flatMap_congr fun a _ => hg a

/-- A safe function checks every parameter that is a slice. -/
theorem checked_safe (f : Function) (api : String) : (f.safe api).checked =
    ((f.parameters.map (·.argument)).filter (·.isPointed)).map (·.stated lengthConstant) := by
  have hprepare : ∀ p : Parameter, p.prepare.filterMap (·.checked?) =
      (if p.argument.isPointed then some (p.argument.stated lengthConstant) else none).toList := by
    rintro ⟨name, ⟨type, shape, placement⟩, direction⟩
    cases direction <;> cases shape <;> rfl
  rw [List.filter_map, List.map_map]
  exact filterMap_flatMap_of_ite hprepare

/-- It makes an array for every buffer that is filled. -/
theorem made_safe (f : Function) (api : String) : (f.safe api).made =
    (f.arguments.filter (·.isMade)).map (·.stated lengthConstant) := by
  have hprepare : ∀ p : Parameter, p.prepare.filterMap (·.made?) =
      (if p.argument.isMade then some (p.argument.stated lengthConstant) else none).toList := by
    rintro ⟨name, ⟨type, shape, placement⟩, direction⟩
    cases direction <;> cases shape <;> rfl
  have hparameters : (f.safe api).prepared.filterMap (·.made?) =
      ((f.parameters.map (·.argument)).filter (·.isMade)).map (·.stated lengthConstant) := by
    rw [List.filter_map, List.map_map]
    exact filterMap_flatMap_of_ite hprepare
  have hreturns : (f.safe api).returns.made?.toList =
      ((f.returns.map fun t => (⟨resultSlot, t, .outBuffer, true⟩ : Argument)).toList.filter
        (·.isMade)).map (·.stated lengthConstant) := by
    unfold Function.safe
    dsimp only
    cases f.returns with
    | none => rfl
    | some t =>
      obtain ⟨type, shape, placement⟩ := t
      cases shape <;> rfl
  unfold SafeFunction.made Function.arguments
  rw [hparameters, hreturns, List.filter_append, List.map_append]

/-- However the safe layer states a length, it comes to the number of bytes. -/
theorem lengthIn_safeLayer (hm : m.WellFormed) {t : TypeDef} (ht : t ∈ m.types) :
    lengthIn (headerLengths m ++ enumCounts m) (t.size.spell lengthConstant) =
      some (t.byteSize : Int) := by
  have hbar : '_' ∈ (lengthConstant t.name).toList := by
    unfold lengthConstant
    rw [String.toList_append]
    exact List.mem_append_right _ (by decide)
  exact lengthIn_size hbar (by decide) fun h =>
    lookup_of_mem hm.nodup_numbers (List.mem_append_left _ (Model.mem_headerLengths ht h))

/-- The safe layer checks each slice by the size of its type. -/
theorem resolved_checked (hm : m.WellFormed) (hf : f ∈ m.functions) (api : String) :
    resolved (headerLengths m ++ enumCounts m) (f.safe api).checked =
      ((f.parameters.map (·.argument)).filter (·.isPointed)).map (·.measure) := by
  rw [checked_safe]
  refine resolved_map fun a ha => lengthIn_safeLayer hm (hm.known hf ?_).type
  exact List.mem_append_left _ (List.mem_filter.1 ha).1

/-- Its arrays have the sizes of their types. -/
theorem resolved_made (hm : m.WellFormed) (hf : f ∈ m.functions) (api : String) :
    resolved (headerLengths m ++ enumCounts m) (f.safe api).made =
      (f.arguments.filter (·.isMade)).map (·.measure) := by
  rw [made_safe]
  exact resolved_map fun a ha => lengthIn_safeLayer hm (hm.known hf (List.mem_filter.1 ha).1).type

end

/-! ## The sizes of value classes -/

namespace Model

/-- The sizes of the value classes, as wrappers write them. -/
def classScope (m : Model) : List (String × Int) :=
  m.bufferTypes.map fun t => (classSize t.name, (t.byteSize : Int))

variable {m : Model} {t : TypeDef}

theorem WellFormed.lookup_classScope (hm : m.WellFormed) (ht : t ∈ m.types)
    (h : t.isBuffer = true) : m.classScope.lookup (classSize t.name) = some (t.byteSize : Int) := by
  have hnames : m.classScope.map Prod.fst = (m.bufferTypes.map (·.name)).map classSize := by
    unfold classScope
    rw [List.map_map, List.map_map]
    rfl
  refine lookup_of_mem ?_ (List.mem_map.2 ⟨t, List.mem_filter.2 ⟨ht, h⟩, rfl⟩)
  have hdistinct : (m.types.map (·.name)).Nodup :=
    List.pairwise_map.2 (hm.types.apart.imp fun hne heq => hne (congrArg lower heq))
  rw [hnames]
  exact (hdistinct.sublist (List.filter_sublist.map _)).map fun _ _ => append_right_cancel

/-- However a wrapper states a length, it comes to the number of bytes. -/
theorem WellFormed.lengthIn_classScope (hm : m.WellFormed) (ht : t ∈ m.types) :
    lengthIn m.classScope (t.size.spell classSize) = some (t.byteSize : Int) := by
  have hdot : '.' ∈ (classSize t.name).toList := by
    unfold classSize
    rw [String.toList_append]
    exact List.mem_append_right _ (by decide)
  exact lengthIn_size hdot (by decide) (hm.lookup_classScope ht)

end Model

/-- A buffer is as long as its value class says. -/
theorem Argument.size_of_inBuffer {a : Argument} (ha : a.Fits) (h : a.passing = .inBuffer) :
    a.type.size.spell classSize = classSize a.type.name ∧ a.type.javaValue = a.type.name ∧
      a.type.swiftValue = a.type.name := by
  have hwidth := ha.buffer h
  unfold TypeDef.size TypeDef.javaValue TypeDef.swiftValue
  cases hshape : a.type.shape with
  | buffer size => exact ⟨rfl, rfl, rfl⟩
  | _ =>
    rw [hshape] at hwidth
    nomatch hwidth

end Bindery
