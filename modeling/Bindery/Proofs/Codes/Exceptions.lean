/-
  FROM ERRORS TO NUMBERS TO EXCEPTIONS.

  The match of the exported layer has one arm for each variant of a failing code, and the switch of
  the base exception one label for each code that it tells from the rest.  No variant has two codes
  and no number two names, so it does not matter in which order arms and groups are written: whatever
  decides first is the only one that can.
-/
import Bindery.Proofs.Codes.Dispatch

namespace Bindery

open Source

/-! ## Exceptions of their own -/

namespace ErrorTable

variable {t : ErrorTable}

/-- One more code, while exceptions are gathered. -/
def addException (names : List String) (c : ErrorCode) : List String :=
  match c.javaException with
  | some e => if e.isEmpty || names.contains e then names else names ++ [e]
  | none => names

theorem mem_addException {names : List String} {c : ErrorCode} {e : String} :
    e ∈ addException names c ↔ e ∈ names ∨ c.javaException = some e ∧ e ≠ "" := by
  unfold addException
  cases c.javaException with
  | none => exact ⟨Or.inl, fun h => h.elim id fun h => (nomatch h.1)⟩
  | some f =>
    dsimp only
    split
    · rename_i h
      refine ⟨Or.inl, fun h' => h'.elim id ?_⟩
      rintro ⟨heq, hne⟩
      cases heq
      rcases (Bool.or_eq_true _ _).mp h with h | h
      · exact absurd (String.isEmpty_iff.1 h) hne
      · exact List.contains_iff_mem.1 h
    · rename_i h
      rw [List.mem_append, List.mem_singleton, Option.some.injEq]
      refine or_congr_right ⟨?_, fun h => h.1.symm⟩
      rintro rfl
      refine ⟨rfl, ?_⟩
      rintro rfl
      exact h rfl

theorem mem_javaExceptions {e : String} :
    e ∈ t.javaExceptions ↔ ∃ c ∈ t.failures, c.javaException = some e ∧ e ≠ "" := by
  have hfold : ∀ (cs : List ErrorCode) (names : List String), e ∈ cs.foldl addException names ↔
      e ∈ names ∨ ∃ c ∈ cs, c.javaException = some e ∧ e ≠ "" := by
    intro cs
    induction cs with
    | nil => simp
    | cons c cs ih =>
      intro names
      rw [List.foldl_cons, ih, mem_addException, List.exists_mem_cons_iff, or_assoc]
  have hstart := hfold t.failures []
  rw [show t.failures.foldl addException [] = t.javaExceptions from rfl] at hstart
  rw [hstart]
  exact ⟨fun h => h.elim (fun h => (nomatch h)) id, Or.inr⟩

theorem mem_derivedExceptions {e : String} : e ∈ t.derivedExceptions ↔
    ∃ c ∈ t.failures, c.javaException = some e ∧ e ≠ "" ∧ e ≠ baseException := by
  unfold derivedExceptions
  rw [List.mem_filter, mem_javaExceptions, bne_iff_ne]
  constructor
  · rintro ⟨⟨c, hc, he, hne⟩, hbase⟩
    exact ⟨c, hc, he, hne, hbase⟩
  · rintro ⟨c, hc, he, hne, hbase⟩
    exact ⟨⟨c, hc, he, hne⟩, hbase⟩

theorem nodup_derivedExceptions (t : ErrorTable) : t.derivedExceptions.Nodup := by
  have hadd : ∀ (names : List String) (c : ErrorCode), names.Nodup → (addException names c).Nodup := by
    intro names c h
    unfold addException
    cases c.javaException with
    | none => exact h
    | some e =>
      dsimp only
      split
      · exact h
      · rename_i hnew
        have hfresh : e ∉ names := fun hmem => hnew (by rw [List.contains_iff_mem.2 hmem, Bool.or_true])
        exact List.Nodup.append h (List.nodup_singleton _) (List.disjoint_singleton.2 hfresh)
  have hfold : ∀ (cs : List ErrorCode) (names : List String), names.Nodup →
      (cs.foldl addException names).Nodup := by
    intro cs
    induction cs with
    | nil => exact fun _ h => h
    | cons c cs ih => exact fun names h => ih _ (hadd names c h)
  exact (hfold t.failures [] List.nodup_nil).filter _

theorem mem_reportedBy {e : String} {c : ErrorCode} :
    c ∈ t.reportedBy e ↔ c ∈ t.failures ∧ c.javaException = some e := by
  unfold reportedBy
  rw [List.mem_filter, beq_iff_eq]

/-- The codes that have a label, in the order of the labels. -/
def labelled (t : ErrorTable) : List ErrorCode :=
  t.ok :: t.derivedExceptions.flatMap t.reportedBy

theorem labelled_subset {c : ErrorCode} (h : c ∈ t.labelled) : c ∈ t.codes := by
  rcases List.mem_cons.1 h with rfl | h
  · exact t.ok_eq.1
  · obtain ⟨e, _, hc⟩ := List.mem_flatMap.1 h
    exact (mem_failures.1 (mem_reportedBy.1 hc).1).1

theorem nodup_labelled (t : ErrorTable) : t.labelled.Nodup := by
  have hcodes : t.codes.Nodup := t.names.of_map _
  refine List.nodup_cons.2 ⟨fun h => ?_, List.nodup_flatMap.2 ⟨fun e _ => ?_, ?_⟩⟩
  · obtain ⟨e, _, hc⟩ := List.mem_flatMap.1 h
    exact (mem_failures.1 (mem_reportedBy.1 hc).1).2 t.ok_eq.2
  · exact (hcodes.filter _).filter _
  · refine t.nodup_derivedExceptions.imp fun hne c hc hc' => hne ?_
    exact Option.some.inj ((mem_reportedBy.1 hc).2.symm.trans (mem_reportedBy.1 hc').2)

end ErrorTable

/-! ## The switch of the base exception -/

/-- The lines of the switch. -/
def switchLines (s : Setting) : List Line :=
  line ("case " ++ s.ok ++ ":") :: indent [line "return;"] ++
    s.codes.table.throwCases.flatMap (fun x =>
      x.2.map (fun constant => line ("case " ++ constant ++ ":")) ++
        indent [line ("throw new " ++ x.1 ++ "(code);")]) ++
    line "default:" :: indent [line ("throw new " ++ baseException ++ "(code);")]

theorem checkResultMethod_eq (s : Setting) : checkResultMethod s =
    block ("public static void checkResult(int code) throws " ++ baseException)
      (block "switch (code)" (switchLines s)) := rfl

/-- The groups of the switch: success, then the exceptions of their own. -/
def ErrorTable.groups (t : ErrorTable) : List Instruction.Group :=
  ⟨[t.ok.constant], .leave⟩ ::
    t.derivedExceptions.map fun e => ⟨(t.reportedBy e).map (·.constant), .throw e⟩

/-- `SwitchAgrees t scope ls` — run with these constants, the lines return for success, throw the
exception of a failing code that has one of its own, and throw the base exception for every other
number; no two labels have one number. -/
structure SwitchAgrees (t : ErrorTable) (scope : List (String × Int)) (ls : List Line) : Prop where
  success : switched scope ls 0 = some .returns
  own : ∀ c ∈ t.failures, ∀ e, c.javaException = some e → e ≠ "" → e ≠ "ZkGroupException" →
    switched scope ls c.value = some (.throws e)
  rest : ∀ code, code ≠ 0 →
    (∀ c ∈ t.failures, c.value = code →
      ∀ e, c.javaException = some e → e = "" ∨ e = "ZkGroupException") →
    switched scope ls code = some (.throws "ZkGroupException")
  defined : ∀ l ∈ labelsOf ls, (scope.lookup l).isSome = true
  once : ((labelsOf ls).map fun l => scope.lookup l).Nodup

section

variable {s : Setting}

theorem read_switchLines (hs : s.Harmless) : (switchLines s).map Instruction.read =
    s.codes.table.groups.flatMap Instruction.Group.flat ++
      [.default, .throw baseException] := by
  have hconstant : ∀ c ∈ s.codes.table.codes, Wordy c.constant.toList :=
    fun c hc => hs.usable.wordy_constant hc
  have hgroup : ∀ e ∈ s.codes.table.derivedExceptions,
      ((s.codes.table.reportedBy e).map (fun c => line ("case " ++ c.constant ++ ":")) ++
        indent [line ("throw new " ++ e ++ "(code);")]).map Instruction.read =
      Instruction.Group.flat ⟨(s.codes.table.reportedBy e).map (·.constant), .throw e⟩ := by
    intro e he
    obtain ⟨c, hc, hexception, hne, _⟩ := ErrorTable.mem_derivedExceptions.1 he
    have hwordy : Wordy e.toList := by
      rcases hs.usable.exceptions c (ErrorTable.mem_failures.1 hc).1 e hexception with h | h
      · exact absurd h hne
      · exact wordy_of_isIdentifier h
    have hthrow : Instruction.read ⟨0 + 1, "throw new " ++ e ++ "(code);"⟩ = .throw e :=
      Instruction.read_throw hwordy
    unfold Instruction.Group.flat
    rw [List.map_append, List.map_map, List.map_map]
    refine congrArg₂ _ (List.map_congr_left fun d hd => ?_) (congrArg (fun i => [i]) hthrow)
    exact Instruction.read_label
      (hconstant d (ErrorTable.mem_failures.1 (ErrorTable.mem_reportedBy.1 hd).1).1)
  have hgroups : (s.codes.table.throwCases.flatMap fun x =>
      x.2.map (fun constant => line ("case " ++ constant ++ ":")) ++
        indent [line ("throw new " ++ x.1 ++ "(code);")]).map Instruction.read =
      (s.codes.table.derivedExceptions.map fun e =>
        (⟨(s.codes.table.reportedBy e).map (·.constant), .throw e⟩ : Instruction.Group)).flatMap
          Instruction.Group.flat := by
    unfold ErrorTable.throwCases
    rw [List.map_flatMap, List.flatMap_map, List.flatMap_map]
    refine List.flatMap_congr fun e he => ?_
    rw [← hgroup e he, List.map_map (l := s.codes.table.reportedBy e)]
    rfl
  have hok : Instruction.read (line ("case " ++ s.ok ++ ":")) = .label s.ok :=
    Instruction.read_label (hconstant _ s.codes.table.ok_eq.1)
  have hbase : Instruction.read ⟨0 + 1, "throw new " ++ baseException ++ "(code);"⟩ =
      .throw baseException := Instruction.read_throw (by decide)
  have hreturn : Instruction.read ⟨0 + 1, "return;"⟩ = .leave := by decide
  have hdefault : Instruction.read (line "default:") = .default := by decide
  unfold switchLines ErrorTable.groups
  rw [List.map_append, List.map_append, hgroups, List.flatMap_cons]
  show (Instruction.read (line ("case " ++ s.ok ++ ":")) ::
    [Instruction.read ⟨0 + 1, "return;"⟩] ++ _) ++
      [Instruction.read (line "default:"),
        Instruction.read ⟨0 + 1, "throw new " ++ baseException ++ "(code);"⟩] = _
  rw [hok, hreturn, hdefault, hbase]
  rfl

theorem ErrorTable.groups_statement (t : ErrorTable) :
    ∀ g ∈ t.groups, ∃ o, g.statement.outcome? = some o :=
  List.forall_mem_cons.2 ⟨⟨_, rfl⟩, List.forall_mem_map.2 fun _ _ => ⟨_, rfl⟩⟩

theorem ErrorTable.labels_groups (t : ErrorTable) :
    t.groups.flatMap (·.labels) = t.labelled.map (·.constant) := by
  unfold ErrorTable.groups ErrorTable.labelled
  rw [List.flatMap_cons, List.flatMap_map, List.map_cons, List.map_flatMap]
  rfl

theorem labelsOf_switchLines (hs : s.Harmless) :
    labelsOf (switchLines s) = s.codes.table.labelled.map (·.constant) := by
  have hflat : ∀ g : Instruction.Group, (∃ o, g.statement.outcome? = some o) →
      g.flat.filterMap (·.labelOf?) = g.labels := by
    rintro ⟨labels, statement⟩ ⟨o, ho⟩
    have hstatement : statement.labelOf? = none := by
      cases statement with
      | label _ => nomatch ho
      | _ => rfl
    unfold Instruction.Group.flat
    rw [List.filterMap_append, List.filterMap_map, List.filterMap_cons, hstatement]
    show labels.filterMap (fun l => some l) ++ [] = labels
    rw [List.filterMap_some, List.append_nil]
  unfold labelsOf
  rw [read_switchLines hs, List.filterMap_append, List.filterMap_flatMap,
    ← ErrorTable.labels_groups]
  show _ ++ [] = _
  rw [List.append_nil]
  exact List.flatMap_congr fun g hg => hflat g (s.codes.table.groups_statement g hg)

/-- What has a label with a number: the code of the number, and its group. -/
theorem ErrorTable.mem_groups_of_lookup {t : ErrorTable} {code : Int} {g : Instruction.Group}
    (hg : g ∈ t.groups) (h : ∃ l ∈ g.labels, t.constants.lookup l = some code) :
    (code = 0 ∧ g.statement = .leave) ∨
      ∃ c ∈ t.failures, c.value = code ∧ ∃ e ∈ t.derivedExceptions,
        c.javaException = some e ∧ g.statement = .throw e := by
  obtain ⟨l, hl, hcode⟩ := h
  rcases List.mem_cons.1 hg with rfl | hg
  · rw [List.mem_singleton.1 hl, lookup_constant t.ok_eq.1, t.ok_eq.2] at hcode
    exact Or.inl ⟨(Option.some.inj hcode).symm, rfl⟩
  · obtain ⟨e, he, rfl⟩ := List.mem_map.1 hg
    obtain ⟨c, hc, rfl⟩ := List.mem_map.1 hl
    obtain ⟨hfailure, hexception⟩ := mem_reportedBy.1 hc
    rw [lookup_constant (mem_failures.1 hfailure).1] at hcode
    exact Or.inr ⟨c, hfailure, Option.some.inj hcode, e, he, hexception, rfl⟩

/-- **The switch agrees with the table.** -/
theorem switchAgrees (hs : s.Harmless) :
    SwitchAgrees s.codes.table s.codes.table.constants (switchLines s) := by
  have hrun : ∀ {code : Int} {o : Outcome},
      (∃ g ∈ s.codes.table.groups, ∃ l ∈ g.labels,
        s.codes.table.constants.lookup l = some code) →
      (∀ g ∈ s.codes.table.groups,
        (∃ l ∈ g.labels, s.codes.table.constants.lookup l = some code) →
          g.statement.outcome? = some o) →
      switched s.codes.table.constants (switchLines s) code = some o := by
    intro code o hhit hsame
    unfold switched
    rw [read_switchLines hs]
    exact Instruction.exec_enter_of_hit
      (Instruction.exec_groups s.codes.table.groups_statement hhit hsame)
  constructor
  case success =>
    refine hrun ⟨_, List.mem_cons_self, _, List.mem_singleton_self _, ?_⟩ fun g hg h => ?_
    · rw [ErrorTable.lookup_constant s.codes.table.ok_eq.1, s.codes.table.ok_eq.2]
    · rcases ErrorTable.mem_groups_of_lookup hg h with ⟨_, hleave⟩ | ⟨c, hc, hzero, _⟩
      · rw [hleave]
        rfl
      · exact absurd hzero (ErrorTable.mem_failures.1 hc).2
  case own =>
    intro c hc e he hne hbase
    have hderived := ErrorTable.mem_derivedExceptions.2 ⟨c, hc, he, hne, hbase⟩
    have hcodes := (ErrorTable.mem_failures.1 hc).1
    refine hrun ⟨_, List.mem_cons_of_mem _ (List.mem_map.2 ⟨e, hderived, rfl⟩), c.constant,
      List.mem_map.2 ⟨c, ErrorTable.mem_reportedBy.2 ⟨hc, he⟩, rfl⟩,
      ErrorTable.lookup_constant hcodes⟩ fun g hg h => ?_
    rcases ErrorTable.mem_groups_of_lookup hg h with ⟨hzero, _⟩ | ⟨d, hd, hvalue, f, _, hf, hthrow⟩
    · exact absurd hzero (ErrorTable.mem_failures.1 hc).2
    · -- A number has one code, and a code one exception.
      obtain rfl := ErrorTable.eq_of_value_eq (ErrorTable.mem_failures.1 hd).1 hcodes hvalue
      rw [hthrow, Option.some.inj (he.symm.trans hf)]
      rfl
  case rest =>
    intro code hzero hother
    unfold switched
    rw [read_switchLines hs]
    refine Instruction.exec_enter_default s.codes.table.groups_statement fun g hg l hl hcode => ?_
    rcases ErrorTable.mem_groups_of_lookup hg ⟨l, hl, hcode⟩ with ⟨h, _⟩ | ⟨c, hc, hvalue, e, he, hce, _⟩
    · exact hzero h
    · obtain ⟨d, hd, hde, hne, hbase⟩ := ErrorTable.mem_derivedExceptions.1 he
      exact (hother c hc hvalue e hce).elim hne hbase
  case defined =>
    rw [labelsOf_switchLines hs]
    refine List.forall_mem_map.2 fun c hc => ?_
    rw [ErrorTable.lookup_constant (ErrorTable.labelled_subset hc)]
    rfl
  case once =>
    rw [labelsOf_switchLines hs, List.map_map]
    have hvalues : s.codes.table.labelled.map
        ((fun l => s.codes.table.constants.lookup l) ∘ (·.constant)) =
        s.codes.table.labelled.map fun c => some c.value :=
      List.map_congr_left fun c hc => ErrorTable.lookup_constant (ErrorTable.labelled_subset hc)
    rw [hvalues]
    refine s.codes.table.nodup_labelled.map_on fun a ha b hb heq => ?_
    exact ErrorTable.eq_of_value_eq (ErrorTable.labelled_subset ha) (ErrorTable.labelled_subset hb)
      (Option.some.inj heq)

/-! ## The match of the exported layer -/

/-- The lines of the match. -/
def matchLines (s : Setting) : List Line :=
  (errorArms s).map (fun arm =>
      line (s.options.errorTypeName ++ "::" ++ arm.1 ++ " => " ++ arm.2 ++ ",")) ++
    Source.lines ["#[allow(unreachable_patterns)]", "_ => " ++ s.broken ++ ","]

theorem returnCodeHelper_eq (s : Setting) : returnCodeHelper s =
    block ("pub(crate) fn ffi_return_code(err: " ++ s.options.errorTypeName ++ ") -> i32")
      (block "match err" (matchLines s)) := rfl

/-- `MatchAgrees t type ls` — the lines have one arm for each variant of a failing code, which gives
the constant of the code, and give the constant of the internal error for every other variant. -/
structure MatchAgrees (t : ErrorTable) (type : String) (ls : List Line) : Prop where
  own : ∀ c ∈ t.failures, ∀ v ∈ c.libraryVariants, matched ls type v = some c.constant
  rest : ∀ v, (∀ c ∈ t.failures, v ∉ c.libraryVariants) →
    matched ls type v = some "FFI_RETURN_INTERNAL_ERROR"
  arms : (armsOf ls).map (·.pattern) =
    (t.failures.flatMap (·.libraryVariants)).map (type ++ "::" ++ ·) ++ ["_"]
  once : ((armsOf ls).map (·.pattern)).Nodup

theorem Setting.Harmless.broken_eq (hs : s.Harmless) :
    s.codes.internalError ∈ s.codes.table.codes ∧ s.broken = "FFI_RETURN_INTERNAL_ERROR" := by
  obtain ⟨hmem, hname⟩ := ErrorTable.find?_eq_some hs.internal
  refine ⟨hmem, ?_⟩
  unfold Setting.broken ErrorCode.constant
  rw [hname]
  decide

theorem mem_errorArms {arm : String × String} : arm ∈ errorArms s ↔
    ∃ c ∈ s.codes.table.failures, arm.1 ∈ c.libraryVariants ∧ arm.2 = c.constant := by
  unfold errorArms
  rw [List.mem_flatMap]
  refine exists_congr fun c => and_congr_right fun _ => ?_
  rw [List.mem_map]
  constructor
  · rintro ⟨v, hv, rfl⟩
    exact ⟨hv, rfl⟩
  · rintro ⟨hv, hconstant⟩
    exact ⟨arm.1, hv, Prod.ext rfl hconstant.symm⟩

theorem armsOf_matchLines (hs : s.Harmless) : armsOf (matchLines s) =
    (errorArms s).map (fun arm => ⟨Arm.pathTo s.options.errorTypeName arm.1, arm.2⟩) ++
      [⟨Arm.wildcard, "FFI_RETURN_INTERNAL_ERROR"⟩] := by
  have htype : Wordy s.options.errorTypeName.toList := wordy_lastSegment hs.options.errorType
  have harm : ∀ arm ∈ errorArms s, Arm.read?
      (line (s.options.errorTypeName ++ "::" ++ arm.1 ++ " => " ++ arm.2 ++ ",")) =
      some ⟨Arm.pathTo s.options.errorTypeName arm.1, arm.2⟩ := by
    intro arm harm
    obtain ⟨c, hc, hv, hconstant⟩ := mem_errorArms.1 harm
    have hcodes := (ErrorTable.mem_failures.1 hc).1
    refine Arm.read?_line (Arm.pathTo s.options.errorTypeName arm.1) ?_ ?_ (by decide)
    · unfold Arm.pathTo
      rw [String.toList_append, String.toList_append, List.mem_append, List.mem_append, not_or, not_or]
      exact ⟨⟨htype.notMem (by decide), by decide⟩,
        (hs.usable.wordy_variant hcodes hv).notMem (by decide)⟩
    · rw [hconstant]
      exact hs.usable.wordy_constant hcodes
  have hattribute : Arm.read? (line "#[allow(unreachable_patterns)]") = none := by decide
  have hlast : Arm.read? (line ("_ => " ++ s.broken ++ ",")) =
      some ⟨Arm.wildcard, "FFI_RETURN_INTERNAL_ERROR"⟩ := by
    have harrow : "_ => " = "_" ++ Arm.arrow := by decide
    rw [hs.broken_eq.2, harrow]
    exact Arm.read?_line "_" (by decide) (by decide) (by decide)
  have harms : ((errorArms s).map fun arm =>
      line (s.options.errorTypeName ++ "::" ++ arm.1 ++ " => " ++ arm.2 ++ ",")).filterMap Arm.read? =
      (errorArms s).map fun arm => ⟨Arm.pathTo s.options.errorTypeName arm.1, arm.2⟩ := by
    rw [List.filterMap_map, ← List.filterMap_eq_map]
    refine List.filterMap_congr fun arm hmem => ?_
    rw [Function.comp_apply, Function.comp_apply, harm arm hmem]
  have hrest : (Source.lines ["#[allow(unreachable_patterns)]", "_ => " ++ s.broken ++ ","]).filterMap
      Arm.read? = [⟨Arm.wildcard, "FFI_RETURN_INTERNAL_ERROR"⟩] := by
    unfold Source.lines
    rw [List.map_cons, List.map_cons, List.filterMap_cons, hattribute]
    dsimp only
    rw [List.filterMap_cons, hlast]
    rfl
  unfold armsOf matchLines
  rw [List.filterMap_append, harms, hrest]

theorem patterns_matchLines (hs : s.Harmless) : (armsOf (matchLines s)).map (·.pattern) =
    (s.codes.table.failures.flatMap (·.libraryVariants)).map (Arm.pathTo s.options.errorTypeName) ++
      [Arm.wildcard] := by
  rw [armsOf_matchLines hs, List.map_append, List.map_map]
  refine congrArg₂ _ ?_ rfl
  unfold errorArms
  rw [List.map_flatMap, List.map_flatMap]
  refine List.flatMap_congr fun c _ => ?_
  rw [List.map_map]
  rfl

theorem nodup_patterns (hs : s.Harmless) : ((armsOf (matchLines s)).map (·.pattern)).Nodup := by
  have hvariants : (s.codes.table.failures.flatMap (·.libraryVariants)).Nodup :=
    s.codes.table.variants.sublist (List.Sublist.flatMap List.filter_sublist _)
  rw [patterns_matchLines hs]
  refine List.Nodup.append (hvariants.map Arm.pathTo_injective) (List.nodup_singleton _)
    (List.disjoint_singleton.2 fun hmem => ?_)
  obtain ⟨v, _, heq⟩ := List.mem_map.1 hmem
  exact Arm.pathTo_ne_wildcard _ v heq

/-- Whichever arm of a variant is found first, it is one of the code that has the variant. -/
theorem matched_of_variant (hs : s.Harmless) {c : ErrorCode} {v : String}
    (hc : c ∈ s.codes.table.failures) (hv : v ∈ c.libraryVariants) :
    matched (matchLines s) s.options.errorTypeName v = some c.constant := by
  have hmem : (v, c.constant) ∈ errorArms s := mem_errorArms.2 ⟨c, hc, hv, rfl⟩
  obtain ⟨a, ha⟩ : ∃ a, ((errorArms s).map fun arm =>
      (⟨Arm.pathTo s.options.errorTypeName arm.1, arm.2⟩ : Arm)).find?
        (·.fits s.options.errorTypeName v) = some a :=
    Option.isSome_iff_exists.1
      (List.find?_isSome.2 ⟨_, List.mem_map.2 ⟨_, hmem, rfl⟩, Arm.fits_pathTo.2 rfl⟩)
  obtain ⟨arm, harm, rfl⟩ := List.mem_map.1 (List.mem_of_find?_eq_some ha)
  obtain ⟨d, hd, hvd, hconstant⟩ := mem_errorArms.1 harm
  rw [Arm.fits_pathTo.1 (List.find?_some ha)] at hvd
  obtain rfl := ErrorTable.eq_of_variant (ErrorTable.mem_failures.1 hd).1
    (ErrorTable.mem_failures.1 hc).1 hvd hv
  unfold matched
  rw [armsOf_matchLines hs, List.find?_append, ha]
  exact congrArg some hconstant

/-- A variant of no failing code is left to the last arm. -/
theorem matched_of_other (hs : s.Harmless) {v : String}
    (hv : ∀ c ∈ s.codes.table.failures, v ∉ c.libraryVariants) :
    matched (matchLines s) s.options.errorTypeName v = some "FFI_RETURN_INTERNAL_ERROR" := by
  have hnone : ((errorArms s).map fun arm =>
      (⟨Arm.pathTo s.options.errorTypeName arm.1, arm.2⟩ : Arm)).find?
        (·.fits s.options.errorTypeName v) = none := by
    refine List.find?_eq_none.2 (List.forall_mem_map.2 fun arm harm hfits => ?_)
    obtain ⟨c, hc, hmem, _⟩ := mem_errorArms.1 harm
    rw [Arm.fits_pathTo.1 hfits] at hmem
    exact hv c hc hmem
  unfold matched
  rw [armsOf_matchLines hs, List.find?_append, hnone, Option.none_or,
    List.find?_cons_of_pos (Arm.fits_wildcard _ _ _)]
  rfl

/-- **The match agrees with the table.** -/
theorem matchAgrees (hs : s.Harmless) :
    MatchAgrees s.codes.table s.options.errorTypeName (matchLines s) where
  own := fun _ hc _ hv => matched_of_variant hs hc hv
  rest := fun _ hv => matched_of_other hs hv
  arms := patterns_matchLines hs
  once := nodup_patterns hs

end

end Bindery
