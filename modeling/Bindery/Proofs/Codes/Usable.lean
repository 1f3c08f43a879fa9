/-
  USABLE TABLES of error codes, and what makes their texts harmless.

  A table of its own may stand in for the standard one.  It serves if it has the two entries that the
  bindings rely on, and if what it puts into the files is what the languages take there: identifiers,
  numbers of 32 bits, and different cases for different failures.  No name may end like the length
  of a buffer, for both stand in one header.

  That is not all that the files depend on.  Descriptions are comments, and one that holds a line
  feed ends where nobody meant it to; and the name `LEN` ends like a length only behind the head of
  its constant.  Neither is asked for here.
-/
import Bindery.Proofs.Source.Defined
import Bindery.Proofs.Target.Files

namespace Bindery

open Naming Source

/-! ## Tables -/

namespace ErrorTable

/-- How the constant for the length of a buffer ends. -/
def lengthEnding : String := "_LEN"

/-- A table that the bindings can be generated with. -/
structure Usable (t : ErrorTable) : Prop where
  internal : ∃ c, t.internalError? = some c
  /-- Refused arguments have a variant of the library and an exception. -/
  refused : ∃ c, t.invalidInput? = some c ∧ c.libraryVariants ≠ [] ∧
    ∃ e, c.javaException = some e ∧ e ≠ ""
  narrow : ∀ c ∈ t.codes, -2 ^ 31 ≤ c.value ∧ c.value < 2 ^ 31
  names : ∀ c ∈ t.codes, isIdentifier c.name = true
  noLength : ∀ c ∈ t.codes, ¬ lengthEnding.toList <:+ c.name.toList
  variants : ∀ c ∈ t.codes, ∀ v ∈ c.libraryVariants, isIdentifier v = true
  exceptions : ∀ c ∈ t.codes, ∀ e, c.javaException = some e → e = "" ∨ isIdentifier e = true
  cases : ∀ c ∈ t.codes, ∀ n, c.swiftCase = some n → n = "" ∨ isIdentifier n = true
  named : ∀ c ∈ t.failures, ∃ n, c.swiftCase = some n ∧ n ≠ ""
  distinctCases : (t.failures.map (·.caseName)).Nodup

/-- The constants of a table with their numbers. -/
def constants (t : ErrorTable) : List (String × Int) := t.codes.map fun c => (c.constant, c.value)

variable {t : ErrorTable}

theorem mem_failures {c : ErrorCode} : c ∈ t.failures ↔ c ∈ t.codes ∧ c.value ≠ 0 := by
  unfold failures ErrorCode.isOk
  rw [List.mem_filter, Bool.not_eq_true', beq_eq_false_iff_ne]

theorem nodup_constants (t : ErrorTable) : (t.constants.map Prod.fst).Nodup := by
  have hnames : t.constants.map Prod.fst = (t.codes.map (·.name)).map ("FFI_RETURN_" ++ ·) := by
    unfold constants
    rw [List.map_map, List.map_map]
    rfl
  rw [hnames]
  exact t.names.map fun a b heq => append_left_cancel heq

theorem lookup_constant {c : ErrorCode} (hc : c ∈ t.codes) :
    t.constants.lookup c.constant = some c.value :=
  lookup_of_mem t.nodup_constants (List.mem_map.2 ⟨c, hc, rfl⟩)

theorem eq_of_value_eq {a b : ErrorCode} (ha : a ∈ t.codes) (hb : b ∈ t.codes)
    (h : a.value = b.value) : a = b := by
  have hn : (t.codes.map (·.value)).Nodup := by
    refine List.pairwise_map.2 (t.ascending.imp fun hlt heq => ?_)
    omega
  exact List.inj_on_of_nodup_map hn ha hb h

theorem eq_of_variant {a b : ErrorCode} (ha : a ∈ t.codes) (hb : b ∈ t.codes) {v : String}
    (hva : v ∈ a.libraryVariants) (hvb : v ∈ b.libraryVariants) : a = b := by
  by_contra hne
  have : Std.Symm (Function.onFun List.Disjoint ErrorCode.libraryVariants) :=
    ⟨fun _ _ h => h.symm⟩
  have hdisjoint := (List.nodup_flatMap.1 t.variants).2.forall ha hb hne
  exact hdisjoint hva hvb

theorem ok_eq (t : ErrorTable) : t.ok ∈ t.codes ∧ t.ok.value = 0 := by
  have hfind : t.codes.find? (·.isOk) = some t.ok := (Option.some_get _).symm
  have hok : t.ok.isOk = true := List.find?_some hfind
  exact ⟨List.mem_of_find?_eq_some hfind, beq_iff_eq.1 hok⟩

theorem find?_eq_some {name : String} {c : ErrorCode} (h : t.find? name = some c) :
    c ∈ t.codes ∧ c.name = name := by
  unfold find? at h
  have hname := List.find?_some h
  exact ⟨List.mem_of_find?_eq_some h, beq_iff_eq.1 hname⟩

end ErrorTable

namespace ErrorTable.Usable

variable {t : ErrorTable}

theorem wordy_constant (ht : t.Usable) {c : ErrorCode} (hc : c ∈ t.codes) :
    Wordy c.constant.toList := by
  unfold ErrorCode.constant
  rw [String.toList_append]
  exact Wordy.append (by decide) (wordy_of_isIdentifier (ht.names c hc))

/-- Only one name makes a constant end like a length without ending so itself. -/
theorem constant_noLength (ht : t.Usable) {c : ErrorCode} (hc : c ∈ t.codes) (hne : c.name ≠ "LEN") :
    ¬ lengthEnding.toList <:+ c.constant.toList := by
  intro hends
  have hown : c.name.toList <:+ c.constant.toList := by
    rw [ErrorCode.constant, String.toList_append]
    exact List.suffix_append _ _
  rcases List.suffix_or_suffix_of_suffix hends hown with h | h
  · exact ht.noLength c hc h
  · obtain ⟨front, hfront⟩ := h
    -- What is in front of the name is the end of the head, which has no letter behind the bar.
    have hhead : front <:+ "FFI_RETURN_".toList := by
      obtain ⟨more, hmore⟩ := hends
      rw [ErrorCode.constant, String.toList_append, ← hfront, ← List.append_assoc] at hmore
      exact ⟨more, List.append_cancel_right hmore⟩
    have hsplit : front <+: lengthEnding.toList := ⟨_, hfront⟩
    have hfronts : front ∈ lengthEnding.toList.inits := (List.mem_inits _ _).2 hsplit
    have hcases : front = [] ∨ front = ['_'] := by
      revert hhead
      exact (by decide : ∀ w ∈ lengthEnding.toList.inits, w <:+ "FFI_RETURN_".toList →
        w = [] ∨ w = ['_']) front hfronts
    rcases hcases with rfl | rfl
    · refine ht.noLength c hc ?_
      rw [List.nil_append] at hfront
      rw [hfront]
    · refine hne (String.toList_inj.1 ?_)
      exact (List.cons.inj hfront).2

theorem wordy_variant (ht : t.Usable) {c : ErrorCode} (hc : c ∈ t.codes) {v : String}
    (hv : v ∈ c.libraryVariants) : Wordy v.toList :=
  wordy_of_isIdentifier (ht.variants c hc v hv)

theorem wordy_getD {name : Option String} (h : ∀ n, name = some n → n = "" ∨ isIdentifier n = true) :
    Wordy (name.getD ErrorCode.absentName).toList := by
  cases name with
  | none => exact (by decide : Wordy "None".toList)
  | some n =>
    rcases h n rfl with rfl | hid
    · exact fun d hd => (nomatch hd)
    · exact wordy_of_isIdentifier hid

theorem wordy_exceptionName (ht : t.Usable) {c : ErrorCode} (hc : c ∈ t.codes) :
    Wordy c.exceptionName.toList := wordy_getD (ht.exceptions c hc)

theorem wordy_caseName (ht : t.Usable) {c : ErrorCode} (hc : c ∈ t.codes) :
    Wordy c.caseName.toList := wordy_getD (ht.cases c hc)

end ErrorTable.Usable

theorem ErrorTable.usable_standard : standard.Usable where
  internal := ⟨_, rfl⟩
  refused := ⟨_, rfl, by decide, _, rfl, by decide⟩
  narrow := by decide
  names := by decide
  noLength := by decide
  variants := by decide
  exceptions := by decide
  cases := by decide
  named := by decide
  distinctCases := by decide

/-! ## The entries that are relied on -/

section

variable {o : Options} {t : ErrorTable} {s : Setting}

theorem ErrorTable.need_eq_ok {name : String} {c : ErrorCode} :
    t.need name = .ok c ↔ t.find? name = some c := by
  unfold ErrorTable.need
  cases t.find? name with
  | none => exact ⟨fun h => (nomatch h), fun h => (nomatch h)⟩
  | some d => exact ⟨fun h => congrArg some (Except.ok.inj h), fun h => congrArg _ (Option.some.inj h)⟩

theorem Codes.internalFirst_eq_ok {c : Codes} : internalFirst t = .ok c ↔
    c.table = t ∧ t.internalError? = some c.internalError ∧
      t.invalidInput? = some c.invalidInput := by
  unfold internalFirst ErrorTable.internalError? ErrorTable.invalidInput?
  simp only [bind_eq_ok, ErrorTable.need_eq_ok]
  constructor
  · rintro ⟨internal, hinternal, refused, hrefused, h⟩
    cases h
    exact ⟨rfl, hinternal, hrefused⟩
  · rintro ⟨rfl, hinternal, hrefused⟩
    exact ⟨_, hinternal, _, hrefused, rfl⟩

/-- With a usable table there is all that the files depend on. -/
theorem ErrorTable.Usable.exists_for (ht : t.Usable) (hheader : o.header.Shown) :
    ∃ s : Setting, s.For o t ∧ ∃ v, s.codes.invalidInput.libraryVariants.head? = some v := by
  obtain ⟨internal, hinternal⟩ := ht.internal
  obtain ⟨refused, hrefused, hvariants, _⟩ := ht.refused
  have hcodes : Codes.internalFirst t = .ok ⟨t, refused, internal⟩ :=
    Codes.internalFirst_eq_ok.2 ⟨rfl, hinternal, hrefused⟩
  obtain ⟨s, hs, heq⟩ := Setting.exists_for hheader hcodes
  obtain ⟨v, vs, hv⟩ := List.exists_cons_of_ne_nil hvariants
  exact ⟨s, hs, v, by rw [heq, hv]; rfl⟩

/-- What is in the files of a setting, besides the API: nothing of it holds a line feed. -/
structure Setting.Harmless (s : Setting) : Prop where
  options : s.options.Valid
  header : ∀ x ∈ s.header, Unbroken x.text
  usable : s.codes.table.Usable
  internal : s.codes.table.internalError? = some s.codes.internalError
  refused : s.codes.table.invalidInput? = some s.codes.invalidInput

/-- `o.HeaderUnbroken` — no line of the header has a line feed inside. -/
def Options.HeaderUnbroken (o : Options) : Prop :=
  ∀ header, o.header.texts = .ok header → ∀ x ∈ header, Unbroken x.text

theorem Setting.For.harmless (hs : s.For o t) (ho : o.Valid) (hheader : o.HeaderUnbroken)
    (ht : t.Usable) : s.Harmless := by
  obtain ⟨htable, hinternal, hrefused⟩ := Codes.internalFirst_eq_ok.1 hs.codes
  refine ⟨hs.options ▸ ho, hheader _ hs.header, htable.symm ▸ ht, ?_, ?_⟩
  · rw [htable, hinternal]
  · rw [htable, hrefused]

/-- What is read from a file is read from its body. -/
theorem Setting.Harmless.readIn_file (hs : s.Harmless) {β : Type} {r : Reader β}
    (hr : r.head.toList ≠ []) (hc : r.head.toList.head? ≠ some '/') (path : String)
    (body : List Line) : r.readIn (s.file path body).text = r.readLines body :=
  Reader.readIn_file_of_unbroken hr hc hs.header path body

end

/-! ## Texts without line feeds -/

theorem unbroken_of_isPackageName {name : String} (h : isPackageName name = true) :
    Unbroken name := fun hmem =>
  absurd (isIdentifierChar_of_isPackageName h hmem (by decide)) (by decide)

/-- A character of a path that is no colon is in one of the segments. -/
theorem mem_pathSegments {s : List Char} {c : Char} (hc : c ∈ s) (hcolon : c ≠ ':') :
    ∃ w ∈ pathSegments s, c ∈ w := by
  fun_induction pathSegments s with
  | case1 => nomatch hc
  | case2 s ih =>
    have hs : c ∈ s := by
      rcases List.mem_cons.1 hc with rfl | hc
      · exact absurd rfl hcolon
      · exact (List.mem_cons.1 hc).elim (fun h => absurd h hcolon) id
    obtain ⟨w, hw, hcw⟩ := ih hs
    exact ⟨w, List.mem_cons_of_mem _ hw, hcw⟩
  | case3 d s _ hnil ih =>
    rcases List.mem_cons.1 hc with rfl | hc
    · exact ⟨[c], List.mem_singleton_self _, List.mem_singleton_self _⟩
    · obtain ⟨w, hw, _⟩ := ih hc
      rw [hnil] at hw
      nomatch hw
  | case4 d s _ w ws hsegments ih =>
    rcases List.mem_cons.1 hc with rfl | hc
    · exact ⟨c :: w, List.mem_cons_self, List.mem_cons_self⟩
    · obtain ⟨v, hv, hcv⟩ := ih hc
      rw [hsegments] at hv
      rcases List.mem_cons.1 hv with rfl | hv
      · exact ⟨d :: v, List.mem_cons_self, List.mem_cons_of_mem _ hcv⟩
      · exact ⟨v, List.mem_cons_of_mem _ hv, hcv⟩

theorem wordy_of_mem_pathSegments {path : String} (h : isPath path = true) {w : List Char}
    (hw : w ∈ pathSegments path.toList) : Wordy w :=
  wordy_of_spelledChars (List.all_eq_true.1 h w hw)

theorem unbroken_of_isPath {path : String} (h : isPath path = true) : Unbroken path := by
  intro hmem
  obtain ⟨w, hw, hc⟩ := mem_pathSegments hmem (by decide)
  exact (wordy_of_mem_pathSegments h hw).notMem (by decide) hc

theorem wordy_lastSegment {path : String} (h : isPath path = true) :
    Wordy (lastSegment path).toList := by
  unfold lastSegment
  rw [String.toList_ofList]
  cases hlast : (pathSegments path.toList).getLast? with
  | none => exact fun c hc => (nomatch hc)
  | some w => exact wordy_of_mem_pathSegments h (List.mem_of_mem_getLast? hlast)

end Bindery
