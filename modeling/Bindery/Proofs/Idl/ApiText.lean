/-
  AN API AS A TEXT, and back.

  An API has a statement for each type and one for each module, and all of them can be printed
  (`printable_statements`): its names are words, and its placements are names of modules.  The
  document that is read from the text describes the API again (`describedBy_toDocument`), so nothing
  that is checked or generated afterwards can tell the text from the description that was first
  accepted.
-/
import Bindery.Description
import Bindery.Proofs.Idl.Printing
import Bindery.Proofs.Model.Acceptance
import Bindery.Proofs.Naming.Symbols
import Bindery.Proofs.Target.Generation

namespace Bindery

open Naming Text

/-! ## What an API declares -/

/-- What is said about the values of a shape. -/
def Shape.toDecl : Shape → Idl.TypeBody
  | .buffer size => .buffer size
  | .scalar width => .scalar width.bytes
  | .enum variants => .enum variants

/-- A type as it is declared. -/
def TypeDef.toDecl (t : TypeDef) : Idl.TypeDecl := ⟨t.name, t.shape.toDecl, t.placement⟩

/-- A parameter as it is declared. -/
def Parameter.toDecl (p : Parameter) : Idl.ParameterDecl := ⟨p.name, p.type.name, p.direction⟩

/-- A function as it is declared. -/
def Function.toDecl (f : Function) : Idl.FunctionDecl :=
  ⟨f.name, f.parameters.map Parameter.toDecl, f.returns.map TypeDef.name, f.fallible⟩

/-- A module as it is declared. -/
def Module.toDecl (m : Module) : Idl.ModuleDecl := ⟨m.name, m.functions.map Function.toDecl⟩

/-- The document that declares an API, with no options. -/
def Model.toDocument (m : Model) : Idl.Document :=
  ⟨[], m.types.map TypeDef.toDecl, m.modules.map Module.toDecl⟩

/-- The statements that declare an API, the types first. -/
def Model.statements (m : Model) : List Idl.Statement :=
  m.types.map (fun t => .type t.toDecl) ++ m.modules.map fun d => .module d.toDecl

/-- The text that declares an API, each statement on lines of its own. -/
def Model.print (m : Model) : List Char := Idl.printAll m.statements

theorem Model.ofStatements_statements (m : Model) :
    Idl.Document.ofStatements m.statements = m.toDocument := by
  have hnone : ∀ {α β : Type} (as : List α), as.filterMap (fun _ => (none : Option β)) = [] :=
    fun _ => List.filterMap_eq_nil_iff.2 fun _ _ => rfl
  have hsome : ∀ {α β : Type} (f : α → β) (as : List α), as.filterMap (some ∘ f) = as.map f :=
    fun f as => congrFun List.filterMap_eq_map as
  unfold Idl.Document.ofStatements statements toDocument
  simp only [List.filterMap_append, List.filterMap_map, Idl.Document.mk.injEq]
  refine ⟨?_, ?_, ?_⟩
  · exact List.append_eq_nil_iff.2 ⟨hnone m.types, hnone m.modules⟩
  · exact (congrArg₂ (· ++ ·) (hsome TypeDef.toDecl m.types) (hnone m.modules)).trans
      (List.append_nil _)
  · exact congrArg₂ (· ++ ·) (hnone m.types) (hsome Module.toDecl m.modules)

/-! ## Names are words -/

theorem spelled_ne_nil {first rest : Char → Bool} {name : String}
    (h : spelled first rest name = true) : name.toList ≠ [] := by
  intro hnil
  rw [spelled, hnil] at h
  nomatch h

theorem isWord_of_plain {name : String} (hne : name.toList ≠ []) (h : Plain name.toList) :
    Idl.IsWord name := by
  refine ⟨hne, fun c hc => ?_⟩
  rw [isWord_of_ascii (toNat_lt_of_isAlphanum (h c hc)), isAsciiWord, h c hc, Bool.true_or]

theorem isWord_of_isTypeName {name : String} (h : isTypeName name = true) : Idl.IsWord name :=
  isWord_of_plain (spelled_ne_nil h) (plain_of_isTypeName h)

theorem isWord_of_isModuleName {name : String} (h : isModuleName name = true) : Idl.IsWord name :=
  isWord_of_plain (spelled_ne_nil h) (plain_of_isModuleName h)

theorem isWord_of_isMemberName {name : String} (h : isMemberName name = true) : Idl.IsWord name :=
  isWord_of_plain (spelled_ne_nil h) (plain_of_isMemberName h)

theorem isWord_of_isVariantName {name : String} (h : isVariantName name = true) :
    Idl.IsWord name := by
  have hletter : ∀ c : Char, c.isAlpha = true → c.isAlphanum = true := fun c hc => by
    rw [Char.isAlphanum, hc, Bool.true_or]
  exact isWord_of_plain (spelled_ne_nil h) (plain_of_spelled hletter (fun _ h => h) h)

/-! ## An API can be printed -/

section

variable {modules : List String} {types : List TypeDef}

theorem Placed.isWord {placement : Option String} (h : Placed modules placement)
    (hmodules : ∀ name ∈ modules, ModuleSpelled name) : ∀ home ∈ placement, Idl.IsWord home := by
  intro home hhome
  rcases h home hhome with hin | rfl
  · exact isWord_of_isModuleName (hmodules home hin).1
  · exact isWord_of_isModuleName (by decide)

theorem TypeDef.WellFormed.printable {t : TypeDef} (h : t.WellFormed modules)
    (hmodules : ∀ name ∈ modules, ModuleSpelled name)
    (hshort : t.isBuffer = true → Decimal.isShort t.byteSize = true) :
    (Idl.Statement.type t.toDecl).Printable := by
  obtain ⟨name, shape, placement⟩ := t
  have hname := isWord_of_isTypeName h.named.1
  have hhome := h.placed.isWord hmodules
  cases shape with
  | buffer size => exact .buffer hname (hshort rfl) hhome
  | scalar width =>
    -- The statement of a scalar has no room for a module, and a scalar is in none.
    obtain rfl : placement = none := h.unplaced rfl
    refine .scalar hname ?_
    cases width <;> decide +kernel
  | enum variants =>
    exact .enum hname (fun v hv => isWord_of_isVariantName (h.shape.named v hv).1) hhome

theorem Function.WellFormed.printable {f : Function} (h : f.WellFormed types)
    (htypes : ∀ t ∈ types, isTypeName t.name = true) : f.toDecl.Printable where
  name := isWord_of_isMemberName h.named.1
  parameters := by
    intro d hd
    obtain ⟨p, hp, rfl⟩ := List.mem_map.1 hd
    obtain ⟨hname, htype⟩ := h.parameters p hp
    exact ⟨isWord_of_isTypeName (htypes _ htype), isWord_of_isMemberName hname.1⟩
  returns := by
    intro type htype
    obtain ⟨t, ht, rfl⟩ := Option.map_eq_some_iff.1 htype
    exact isWord_of_isTypeName (htypes t (h.returns t ht))

end

/-- Whatever is an API can be printed, as far as its sizes can be written. -/
theorem Model.WellFormed.printable_statements {m : Model} (h : m.WellFormed) (hshort : m.Short) :
    ∀ statement ∈ m.statements, statement.Printable := by
  intro statement hin
  rcases List.mem_append.1 hin with hin | hin
  · obtain ⟨t, ht, rfl⟩ := List.mem_map.1 hin
    exact (h.types.each t ht).printable h.spelled (hshort t ht)
  · obtain ⟨module, hmodule, rfl⟩ := List.mem_map.1 hin
    have hspelled := h.spelled module.name (List.mem_map.2 ⟨module, hmodule, rfl⟩)
    refine .module (isWord_of_isModuleName hspelled.1) fun d hd => ?_
    obtain ⟨f, hf, rfl⟩ := List.mem_map.1 hd
    exact ((h.modules module hmodule).functions f hf).1.printable fun t ht =>
      (h.types.each t ht).named.1

/-! ## What is read describes the API -/

theorem forall₂_map_map {α β γ : Type} {R : α → γ → Prop} {f : α → β} {g : β → γ}
    (h : ∀ a, R a (g (f a))) (as : List α) : List.Forall₂ R as ((as.map f).map g) := by
  rw [List.map_map]
  exact List.forall₂_map_right_iff.2 (List.forall₂_same.2 fun a _ => h a)

theorem TypeDef.describedBy_toDecl (t : TypeDef) : t.DescribedBy t.toDecl.toValue := by
  obtain ⟨name, shape, placement⟩ := t
  cases shape <;> cases placement <;> exact ⟨_, rfl, rfl, rfl, rfl, rfl⟩

theorem Parameter.describedBy_toDecl (p : Parameter) : p.DescribedBy p.toDecl.toValue := by
  obtain ⟨name, type, direction⟩ := p
  cases direction with
  | input => exact ⟨_, rfl, rfl, Or.inr rfl, rfl⟩
  | output => exact ⟨_, rfl, rfl, rfl, rfl⟩

theorem Function.describedBy_toDecl (f : Function) : f.DescribedBy f.toDecl.toValue := by
  refine ⟨_, _, rfl, rfl, rfl, forall₂_map_map Parameter.describedBy_toDecl _, ?_, Or.inl rfl⟩
  obtain ⟨name, module, parameters, returns, fallible⟩ := f
  cases returns with
  | none => exact Or.inl rfl
  | some t => rfl

theorem Module.describedBy_toDecl (m : Module) : m.DescribedBy m.toDecl.toValue :=
  ⟨_, _, rfl, rfl, rfl, forall₂_map_map Function.describedBy_toDecl _⟩

theorem Model.describedBy_toDocument (m : Model) :
    ∃ es, m.toDocument.toValue.entries? = some es ∧ m.DescribedBy es :=
  ⟨_, rfl, _, _, rfl, forall₂_map_map TypeDef.describedBy_toDecl _, rfl,
    forall₂_map_map Module.describedBy_toDecl _⟩

/-! ## Both descriptions agree -/

/-- The text of an API is read as the document that declares it. -/
theorem Model.WellFormed.read_print {m : Model} (h : m.WellFormed) (hshort : m.Short) :
    Idl.Document.read m.print = .ok m.toDocument := by
  rw [← m.ofStatements_statements]
  exact Idl.read_printAll (h.printable_statements hshort)

/-- **Descriptions agree.**  An API that is accepted from raw entries, with sizes that can be
written, is printed as a text that is read.  The entries of the text are accepted as the same API,
so every target generates the same files from either description, or none for the same cause. -/
theorem print_agrees {es : List (Value × Value)} {m : Model} (h : Model.ofDescription es = .ok m)
    (hshort : m.Short) :
    Idl.Document.read m.print = .ok m.toDocument ∧
      ∃ es', Description.ofLanguage m.print = .ok es' ∧ Model.ofDescription es' = .ok m ∧
        ∀ m', Model.ofDescription es' = .ok m' → ∀ (t : Target) (o : Options) (table : ErrorTable),
          t.emit m' o table = t.emit m o table := by
  have hwell : m.WellFormed := (ofDescription_eq_ok.1 h).2
  have hread : Idl.Document.read m.print = .ok m.toDocument := hwell.read_print hshort
  obtain ⟨es', hentries, hdescribed⟩ := m.describedBy_toDocument
  have hlanguage : Description.ofLanguage m.print = .ok es' := by
    unfold Description.ofLanguage
    rw [hread]
    show Except.ok (m.toDocument.toValue.entries?.getD []) = _
    rw [hentries]
    rfl
  have haccepted : Model.ofDescription es' = .ok m := ofDescription_eq_ok.2 ⟨hdescribed, hwell⟩
  refine ⟨hread, es', hlanguage, haccepted, fun m' hm' t o table => ?_⟩
  rw [haccepted] at hm'
  cases hm'
  rfl

/-- A description that leaves defaults out and uses words of the language as names. -/
def keywordEntries : List (Value × Value) :=
  [Idl.entry "modules" (.list [.map [
    Idl.entry "functions" (.list [
      .map [Idl.entry "fallible" (.bool true), Idl.entry "name" (.str "fallible"),
        Idl.entry "params" (.list [
          .map [Idl.entry "type" (.str "Key"), Idl.entry "name" (.str "option")],
          .map [Idl.entry "direction" (.str "out"), Idl.entry "name" (.str "module"),
            Idl.entry "type" (.str "Mode")]]),
        Idl.entry "returns" (.str "void")],
      .map [Idl.entry "name" (.str "buffer"), Idl.entry "returns" (.str "Word")]]),
    Idl.entry "name" (.str "scalar")]]),
   Idl.entry "types" (.list [
    .map [Idl.entry "name" (.str "Key"), Idl.entry "kind" (.str "buffer"),
      Idl.entry "size" (.int 32), Idl.entry "module" (.str "internal")],
    .map [Idl.entry "kind" (.str "scalar"), Idl.entry "name" (.str "Word"),
      Idl.entry "size" (.int 8)],
    .map [Idl.entry "variants" (.list [.str "Option", .str "Fallible"]),
      Idl.entry "name" (.str "Mode"), Idl.entry "kind" (.str "enum")]])]

/-- The API of that description. -/
def keywordModel : Model :=
  let key : TypeDef := ⟨"Key", .buffer 32, some "internal"⟩
  let word : TypeDef := ⟨"Word", .scalar .eight, none⟩
  let mode : TypeDef := ⟨"Mode", .enum ["Option", "Fallible"], none⟩
  ⟨[key, word, mode], [⟨"scalar", [
    ⟨"fallible", "scalar", [⟨"option", key, .input⟩, ⟨"module", mode, .output⟩], none, true⟩,
    ⟨"buffer", "scalar", [], some word, false⟩]⟩]⟩

theorem print_agrees_keywords :
    Model.ofDescription keywordEntries = .ok keywordModel ∧
      keywordModel.print = ("buffer Key[32] in internal;\nscalar Word[8];\n" ++
        "enum Mode \x7bOption, Fallible\x7d;\nmodule scalar \x7b\n" ++
        "  fallible fallible(in Key option, out Mode module);\n  buffer() -> Word;\n" ++
        "\x7d;\n").toList ∧
      ∃ es', Description.ofLanguage keywordModel.print = .ok es' ∧
        Model.ofDescription es' = .ok keywordModel := by
  have haccepted : Model.ofDescription keywordEntries = .ok keywordModel := by decide +kernel
  have hshort : keywordModel.Short := Model.checkSizes_eq_ok.1 (by decide +kernel)
  obtain ⟨_, es', hlanguage, hmodel, _⟩ := print_agrees haccepted hshort
  exact ⟨haccepted, by decide +kernel, es', hlanguage, hmodel⟩

end Bindery
