/-
  WHAT VALIDATES IS GENERATED, as far as numbers can be written.

  A target asks three things of an API and its options: that the sizes of buffers are short enough
  to be written, that the header has lines and each of them a text, and, on the Java side, that the
  library has a name (`exists_emit`).  Nothing else that a target looks up can be missing.  Options
  that come from a description always have these texts (`shown_of_ofValue`), and overrides have them
  where they are texts themselves (`shown_of_merged`).
-/
import Bindery.Proofs.Options.Valid
import Bindery.Proofs.Target.Paths

namespace Bindery

/-! ## Texts of options -/

/-- A header with lines that all have a text. -/
def Header.Shown : Header → Prop
  | .lines items => ∀ v ∈ items, v.plain.isSome = true
  | .notLines _ => False

/-- `o.Shown` — the lines of the header and the library of the Java side have a text. -/
structure Options.Shown (o : Options) : Prop where
  header : o.header.Shown
  library : o.jniLibrary.plain.isSome = true

/-- An override that has the texts it needs. -/
def Options.ShownOverride (e : String × Value) : Prop :=
  (e.1 = OptionDraft.headerKey → (overridingHeader e.2).Shown) ∧
    (e.1 = OptionDraft.jniKey → e.2.plain.isSome = true)

/-- `m.Short` — the sizes of the buffers are short enough to be written. -/
def Model.Short (m : Model) : Prop :=
  ∀ t ∈ m.types, t.isBuffer = true → Decimal.isShort t.byteSize = true

theorem FileText.exists_ofValue {v : Value} :
    (∃ text, FileText.ofValue v = .ok text) ↔ v.plain.isSome = true := by
  unfold FileText.ofValue
  cases v.plain with
  | none => exact ⟨fun ⟨_, h⟩ => (nomatch h), fun h => (nomatch h)⟩
  | some text => exact ⟨fun _ => rfl, fun _ => ⟨_, rfl⟩⟩

theorem Header.exists_texts {h : Header} : (∃ texts, h.texts = .ok texts) ↔ h.Shown := by
  cases h with
  | notLines kind => exact ⟨fun ⟨_, h⟩ => (nomatch h), fun h => h.elim⟩
  | lines items =>
    show (∃ texts, items.mapM FileText.ofValue = .ok texts) ↔ ∀ v ∈ items, v.plain.isSome = true
    induction items with
    | nil => exact ⟨fun _ _ h => (nomatch h), fun _ => ⟨[], rfl⟩⟩
    | cons v items ih =>
      rw [List.forall_mem_cons, ← ih, ← FileText.exists_ofValue, List.mapM_cons]
      constructor
      · rintro ⟨texts, h⟩
        obtain ⟨text, htext, h⟩ := bind_eq_ok.1 h
        obtain ⟨rest, hrest, _⟩ := bind_eq_ok.1 h
        exact ⟨⟨text, htext⟩, rest, hrest⟩
      · rintro ⟨⟨text, htext⟩, rest, hrest⟩
        exact ⟨text :: rest, bind_eq_ok.2 ⟨text, htext, bind_eq_ok.2 ⟨rest, hrest, rfl⟩⟩⟩

theorem Model.checkSizes_eq_ok {m : Model} : m.checkSizes = .ok () ↔ m.Short := by
  have hall : (m.bufferTypes.all fun t => Decimal.isShort t.byteSize) = true ↔ m.Short := by
    rw [List.all_eq_true]
    constructor
    · exact fun h t ht hb => h t (List.mem_filter.2 ⟨ht, hb⟩)
    · exact fun h t ht => h t (List.mem_filter.1 ht).1 (List.mem_filter.1 ht).2
  unfold Model.checkSizes
  rw [← hall]
  split
  · rename_i h
    exact ⟨fun _ => h, fun _ => rfl⟩
  · rename_i h
    exact ⟨fun he => (nomatch he), fun he => absurd he h⟩

theorem Options.plain_jniLibraryName {o : Options} (h : o.jniLibrary.plain.isSome = true) :
    o.jniLibraryName.plain.isSome = true := by
  unfold jniLibraryName
  split
  · rfl
  · exact h

/-! ## Targets -/

/-- What a target is generated from: the header and the sizes of all, the library of the Java
side. -/
theorem Target.exists_emit {t : Target} {m : Model} {o : Options} :
    (∃ files, t.emit m o .standard = .ok files) ↔
      o.header.Shown ∧ m.Short ∧ (t = .jvm → o.jniLibraryName.plain.isSome = true) := by
  obtain ⟨codes, hcodes⟩ : ∃ codes, Codes.internalFirst .standard = .ok codes :=
    exists_eq_ok (by decide)
  obtain ⟨codes', hcodes'⟩ : ∃ codes, Codes.invalidFirst .standard = .ok codes :=
    exists_eq_ok (by decide)
  rw [← Header.exists_texts, ← Model.checkSizes_eq_ok, ← FileText.exists_ofValue]
  cases t with
  | core =>
    have hvariants : ∃ refused rest, codes.invalidInput.libraryVariants = refused :: rest := by
      cases hcodes
      exact ⟨_, _, rfl⟩
    obtain ⟨refused, rest, hvariants⟩ := hvariants
    unfold Target.emit
    simp only [bind_eq_ok, hcodes, Except.ok.injEq, exists_eq_left', hvariants, reduceCtorEq,
      false_implies, and_true]
    constructor
    · rintro ⟨_, texts, htexts, _, hsizes, _⟩
      exact ⟨⟨texts, htexts⟩, hsizes⟩
    · rintro ⟨⟨texts, htexts⟩, hsizes⟩
      exact ⟨_, texts, htexts, (), hsizes, rfl⟩
  | jvm =>
    unfold Target.emit
    simp only [bind_eq_ok, hcodes', Except.ok.injEq, exists_eq_left', true_implies]
    constructor
    · rintro ⟨_, texts, htexts, library, hlibrary, _, hsizes, _⟩
      exact ⟨⟨texts, htexts⟩, hsizes, library, hlibrary⟩
    · rintro ⟨⟨texts, htexts⟩, hsizes, library, hlibrary⟩
      exact ⟨_, texts, htexts, library, hlibrary, (), hsizes, rfl⟩
  | swift =>
    unfold Target.emit
    simp only [bind_eq_ok, hcodes, Except.ok.injEq, exists_eq_left', reduceCtorEq, false_implies,
      and_true]
    constructor
    · rintro ⟨_, texts, htexts, _, hsizes, _⟩
      exact ⟨⟨texts, htexts⟩, hsizes⟩
    · rintro ⟨⟨texts, htexts⟩, hsizes⟩
      exact ⟨_, texts, htexts, (), hsizes, rfl⟩

/-! ## Options with texts -/

namespace Options

theorem plain_of_asText {v w : Value} (h : v.asText = some w) : w.plain.isSome = true := by
  unfold Value.asText at h
  split at h
  · rename_i hbroken
    cases h
    cases v with
    | codes ps => rfl
    | _ => nomatch hbroken
  · obtain ⟨text, _, rfl⟩ := Option.map_eq_some_iff.1 h
    rfl

theorem plain_of_points {v : Value} (h : v.points?.isSome = true) : v.plain.isSome = true := by
  cases v with
  | str s => rfl
  | codes ps => rfl
  | _ => nomatch h

theorem plain_of_mapM_asText {lines items : List Value} (h : lines.mapM Value.asText = some items) :
    ∀ w ∈ items, w.plain.isSome = true := by
  intro w hw
  obtain ⟨v, _, hv⟩ := exists_of_mapM_eq_some h w hw
  exact plain_of_asText hv

theorem shown_of_headerOf {v : Value} {header : Header} (h : headerOf v = .ok header) :
    header.Shown := by
  obtain ⟨lines, _, h⟩ := bind_eq_ok.1 h
  cases hitems : lines.mapM Value.asText with
  | none =>
    rw [hitems] at h
    nomatch h
  | some items =>
    rw [hitems] at h
    cases h
    exact plain_of_mapM_asText hitems

/-- The texts that a draft has are those that its options have. -/
theorem shown_of_check {d : OptionDraft} {o : Options} (h : d.check = .ok o)
    (hheader : d.header.Shown) (hlibrary : d.jniLibrary.plain.isSome = true) : o.Shown := by
  obtain ⟨hsame, hlib⟩ := OptionDraft.free_of_check h
  exact ⟨hsame ▸ hheader, hlib ▸ hlibrary⟩

theorem set_header (d : OptionDraft) (key : String) (v : Value) :
    (d.set key v).header = d.header := by
  unfold OptionDraft.set
  repeat' split
  all_goals rfl

/-- Setting an option changes the library only by its own name. -/
theorem set_jniLibrary (d : OptionDraft) (key : String) (v : Value) :
    (d.set key v).jniLibrary = if key = OptionDraft.jniKey then v else d.jniLibrary := by
  unfold OptionDraft.set
  by_cases hjni : key = OptionDraft.jniKey
  · subst hjni
    rfl
  · rw [if_neg hjni, if_neg hjni]
    repeat' split
    all_goals rfl

theorem header_of_setTexts {d d' : OptionDraft} {es : List (Value × Value)}
    (h : setTexts d es = .ok d') : d'.header = d.header := by
  induction es generalizing d with
  | nil =>
    cases h
    rfl
  | cons e es ih =>
    obtain ⟨k, v⟩ := e
    unfold setTexts at h
    dsimp only at h
    split at h
    · exact ih h
    · split at h
      · exact (ih h).trans (set_header _ _ _)
      · nomatch h

theorem plain_of_setTexts {d d' : OptionDraft} {es : List (Value × Value)}
    (h : setTexts d es = .ok d') (hlibrary : d.jniLibrary.plain.isSome = true) :
    d'.jniLibrary.plain.isSome = true := by
  induction es generalizing d with
  | nil =>
    cases h
    exact hlibrary
  | cons e es ih =>
    obtain ⟨k, v⟩ := e
    unfold setTexts at h
    dsimp only at h
    split at h
    · exact ih h hlibrary
    · split at h
      · rename_i hpoints
        refine ih h ?_
        rw [set_jniLibrary]
        split
        · exact plain_of_points hpoints
        · exact hlibrary
      · nomatch h

/-- Options of a description have their texts. -/
theorem shown_of_ofValue {v : Value} {o : Options} (h : ofValue v = .ok o) : o.Shown := by
  obtain ⟨es, header, d, _, hheader, hd, hcheck⟩ := exists_draft_of_ofValue h
  refine shown_of_check hcheck ?_ (plain_of_setTexts hd rfl)
  rw [header_of_setTexts hd]
  cases hlines : Value.lookup? OptionDraft.headerKey es with
  | some lines =>
    rw [hlines] at hheader
    exact shown_of_headerOf hheader
  | none =>
    rw [hlines] at hheader
    cases hheader
    exact fun _ h => (nomatch h)

theorem shown_of_foldl_override {said : List (String × Value)} {d : OptionDraft}
    (hsaid : ∀ e ∈ said, ShownOverride e) (hheader : d.header.Shown)
    (hlibrary : d.jniLibrary.plain.isSome = true) :
    (said.foldl (fun d e => override d e.1 e.2) d).header.Shown ∧
      (said.foldl (fun d e => override d e.1 e.2) d).jniLibrary.plain.isSome = true := by
  induction said generalizing d with
  | nil => exact ⟨hheader, hlibrary⟩
  | cons e said ih =>
    obtain ⟨he, hsaid⟩ := List.forall_mem_cons.1 hsaid
    obtain ⟨hd, hlib⟩ : (override d e.1 e.2).header.Shown ∧
        (override d e.1 e.2).jniLibrary.plain.isSome = true := by
      unfold override
      by_cases hkey : e.1 = OptionDraft.headerKey
      · rw [if_pos (beq_iff_eq.2 hkey)]
        exact ⟨he.1 hkey, hlibrary⟩
      · rw [if_neg (by simpa using hkey), set_header, set_jniLibrary]
        refine ⟨hheader, ?_⟩
        split
        · rename_i hjni
          exact he.2 hjni
        · exact hlibrary
    exact ih hsaid hd hlib

/-- Options keep their texts under overrides that have them. -/
theorem shown_of_merged {o o' : Options} {overrides : List (String × Value)} (ho : o.Shown)
    (hsaid : ∀ e ∈ present overrides, ShownOverride e) (h : o.merged overrides = .ok o') :
    o'.Shown := by
  obtain ⟨hheader, hlibrary⟩ := shown_of_foldl_override (d := o.draft) hsaid ho.header ho.library
  exact shown_of_check (check_of_merged h) hheader hlibrary

end Options

/-- A target of an API with short sizes is generated, and its files are let through. -/
theorem Target.generates {t : Target} {m : Model} {o : Options} (hm : m.WellFormed) (ho : o.Valid)
    (hsizes : m.Short) (hshown : o.Shown) :
    ∃ files, t.emit m o .standard = .ok files ∧ t.emitter.checkPaths files = .ok () := by
  obtain ⟨files, hfiles⟩ := exists_emit.2
    ⟨hshown.header, hsizes, fun _ => Options.plain_jniLibraryName hshown.library⟩
  exact ⟨files, hfiles, Source.File.Tidy.checkPaths (emit_tidy hm ho hfiles).1⟩

end Bindery
