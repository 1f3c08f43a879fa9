/-
  THE TEXT OF OPTIONS, and whether it keeps to its place.

  Two options are free texts.  The items of the header stand in front of every file as comments; the library
  that the Java side loads stands between quotes.  Nothing is done to either on the way.  A header that is
  given as one text is cut into lines before, and an override of it into characters, so both are comments
  (`confined_headerOf`, `confined_overridingHeader`); but a list is taken item by item, and an item may have
  lines of its own.  The library is any text at all, unless it is the native library, which is an identifier.

  So for each of the two there is exactly one condition, on the text alone (`option_text_told`).
-/
import Bindery.Proofs.Boundary.Linking
import Bindery.Proofs.Source.Heading
import Bindery.Proofs.Source.JavaString
import Bindery.Proofs.Target.Generation

namespace Bindery

open Source Target

/-! ## Ends of lines among code points -/

namespace Text

theorem endsLine_ofNat {n : Nat} (h : endsLine (Char.ofNat n) = true) : isLineBreak n = true := by
  unfold Char.ofNat at h
  split at h
  · rename_i hvalid
    have hcases : n = 0x0A ∨ n = 0x0D := by
      rcases (Bool.or_eq_true _ _).mp h with h | h
      · exact Or.inl (congrArg Char.toNat (beq_iff_eq.1 h))
      · exact Or.inr (congrArg Char.toNat (beq_iff_eq.1 h))
    rcases hcases with rfl | rfl <;> rfl
  · exact absurd h (by decide)

theorem endsLine_pointChar {n : Nat} (h : endsLine (pointChar n) = true) : isLineBreak n = true := by
  unfold pointChar at h
  split at h
  · exact absurd h (by decide)
  · exact endsLine_ofNat h

/-- Two halves make no end of a line. -/
theorem not_endsLine_pairChar (high low : Nat) : endsLine (pairChar high low) = false := by
  rw [Bool.eq_false_iff]
  intro h
  have hbreak := endsLine_ofNat h
  simp only [isLineBreak, Bool.or_eq_true, Bool.and_eq_true, decide_eq_true_eq, beq_iff_eq] at hbreak
  omega

theorem not_endsLine_joined {ps : List Nat} (h : ∀ p ∈ ps, isLineBreak p = false) :
    ∀ c ∈ joined ps, endsLine c = false := by
  have hpoint : ∀ p, isLineBreak p = false → endsLine (pointChar p) = false := fun p hp =>
    Bool.eq_false_iff.2 fun hc => absurd (hp.symm.trans (endsLine_pointChar hc)) (by decide)
  induction ps using joined.induct with
  | case1 a b ps hpair ih =>
    rw [joined, if_pos hpair]
    exact List.forall_mem_cons.2 ⟨not_endsLine_pairChar a b,
      ih fun p hp => h p (List.mem_cons_of_mem _ (List.mem_cons_of_mem _ hp))⟩
  | case2 a b ps hpair ih =>
    rw [joined, if_neg hpair]
    exact List.forall_mem_cons.2 ⟨hpoint a (h a List.mem_cons_self),
      ih fun p hp => h p (List.mem_cons_of_mem _ hp)⟩
  | case3 a => exact List.forall_mem_singleton.2 (hpoint a (h a List.mem_cons_self))
  | case4 => exact fun _ hc => (nomatch hc)

/-- No line of a text has a break in it. -/
theorem not_isLineBreak_splitLines (ps : List Nat) :
    ∀ l ∈ splitLines ps, ∀ p ∈ l, isLineBreak p = false := by
  induction ps using splitLines.induct with
  | case1 => exact fun _ hl => (nomatch hl)
  | case2 s ih =>
    rw [splitLines]
    exact List.forall_mem_cons.2 ⟨fun _ hp => (nomatch hp), ih⟩
  | case3 c s hne hbreak ih =>
    rw [splitLines, if_pos hbreak]
    · exact List.forall_mem_cons.2 ⟨fun _ hp => (nomatch hp), ih⟩
    · exact hne
  | case4 c s hne hbreak hnone ih =>
    have hc : isLineBreak c = false := Bool.eq_false_iff.2 hbreak
    rw [splitLines, if_neg hbreak, hnone]
    · exact List.forall_mem_singleton.2 (List.forall_mem_singleton.2 hc)
    · exact hne
  | case5 c s hne hbreak l ls hsome ih =>
    have hc : isLineBreak c = false := Bool.eq_false_iff.2 hbreak
    rw [hsome] at ih
    rw [splitLines, if_neg hbreak, hsome]
    · obtain ⟨hl, hls⟩ := List.forall_mem_cons.1 ih
      exact List.forall_mem_cons.2 ⟨List.forall_mem_cons.2 ⟨hc, hl⟩, hls⟩
    · exact hne

/-- Where no code point is a half, each is a character by itself. -/
theorem joined_of_no_half {ps : List Nat} (h : ps.any isHalf = false) : joined ps = ps.map Char.ofNat := by
  have hpoint : ∀ p, isHalf p = false → pointChar p = Char.ofNat p := fun p hp => by
    rw [pointChar, hp, if_neg (by decide)]
  induction ps using joined.induct with
  | case1 a b ps hpair ih =>
    rw [List.any_cons, Bool.or_eq_false_iff, isHalf, Bool.or_eq_false_iff] at h
    rw [h.1.1, Bool.false_and] at hpair
    exact absurd hpair (by decide)
  | case2 a b ps hpair ih =>
    rw [List.any_cons, Bool.or_eq_false_iff] at h
    rw [joined, if_neg hpair, ih h.2, hpoint a h.1]
    rfl
  | case3 a =>
    rw [List.any_cons, Bool.or_eq_false_iff] at h
    rw [joined, hpoint a h.1]
    rfl
  | case4 => rfl

end Text

/-! ## Headers that are comments -/

/-- A header whose lines, as far as they have a text, are all contained. -/
def Header.Confined : Header → Prop
  | .lines items => ∀ v ∈ items, ∀ text, v.plain = some text → Contained text
  | .notLines _ => True

theorem FileText.plain_of_ofValue {v : Value} {x : FileText} (h : FileText.ofValue v = .ok x) :
    v.plain = some x.text := by
  unfold FileText.ofValue at h
  cases hplain : v.plain with
  | none =>
    rw [hplain] at h
    nomatch h
  | some text =>
    rw [hplain] at h
    cases h
    rfl

/-- The lines of a file's heading are contained. -/
theorem Header.Confined.texts {h : Header} (hc : h.Confined) {texts : List FileText}
    (htexts : h.texts = .ok texts) : ∀ x ∈ texts, Contained x.text := by
  cases h with
  | notLines kind => nomatch htexts
  | lines items =>
    intro x hx
    obtain ⟨v, hv, hvx⟩ := exists_of_mapM_eq_ok htexts x hx
    exact hc v hv x.text (FileText.plain_of_ofValue hvx)

namespace Options

theorem plain_ofPoints (ps : List Nat) :
    (Value.ofPoints ps).plain = some (String.ofList (Text.joined ps)) := by
  unfold Value.ofPoints Text.ofPoints?
  cases hhalf : ps.any Text.isHalf with
  | true => rfl
  | false =>
    rw [Text.joined_of_no_half hhalf]
    rfl

theorem plain_asText {v w : Value} (h : v.asText = some w) : w.plain = v.plain := by
  unfold Value.asText at h
  split at h
  · cases h
    rfl
  · obtain ⟨text, htext, rfl⟩ := Option.map_eq_some_iff.1 h
    exact htext.symm

/-- A header that is given as one text has lines that are lines. -/
theorem confined_headerOf {v : Value} {header : Header} (hv : v.points?.isSome = true)
    (h : headerOf v = .ok header) : header.Confined := by
  obtain ⟨ps, hps⟩ := Option.isSome_iff_exists.1 hv
  obtain ⟨lines, hlines, h⟩ := bind_eq_ok.1 h
  unfold linesOf at hlines
  rw [hps] at hlines
  cases hlines
  cases hitems : ((Text.splitLines ps).map Value.ofPoints).mapM Value.asText with
  | none =>
    rw [hitems] at h
    nomatch h
  | some items =>
    rw [hitems] at h
    cases h
    intro w hw text htext
    obtain ⟨_, hline, hw⟩ := exists_of_mapM_eq_some hitems w hw
    obtain ⟨l, hl, rfl⟩ := List.mem_map.1 hline
    rw [plain_asText hw, plain_ofPoints] at htext
    cases htext
    refine contained_of_free fun c hc => ?_
    rw [String.toList_ofList] at hc
    exact Text.not_endsLine_joined (Text.not_isLineBreak_splitLines ps l hl) c hc

/-- An override by a text makes a line of each character. -/
theorem confined_overridingHeader {v : Value} (hv : v.points?.isSome = true) :
    (overridingHeader v).Confined := by
  obtain ⟨ps, hps⟩ := Option.isSome_iff_exists.1 hv
  have hparts : parts? v = some (ps.map fun p => .ofPoints [p]) := by
    cases v with
    | str s =>
      cases hps
      rfl
    | codes qs =>
      cases hps
      rfl
    | _ => nomatch hps
  unfold overridingHeader
  rw [hparts]
  intro w hw text htext
  obtain ⟨p, _, rfl⟩ := List.mem_map.1 hw
  rw [plain_ofPoints] at htext
  cases htext
  exact contained_singleton _

/-- `HeaderAsText v` — what a description says about the header, if anything, is one text. -/
def HeaderAsText (v : Value) : Prop :=
  ∀ es, entriesOf v = .ok es → ∀ lines, Value.lookup? OptionDraft.headerKey es = some lines →
    lines.points?.isSome = true

theorem confined_ofValue {v : Value} {o : Options} (hv : HeaderAsText v) (h : ofValue v = .ok o) :
    o.header.Confined := by
  obtain ⟨es, header, d, hes, hheader, hd, hcheck⟩ := exists_draft_of_ofValue h
  rw [(OptionDraft.free_of_check hcheck).1, header_of_setTexts hd]
  cases hlines : Value.lookup? OptionDraft.headerKey es with
  | some lines =>
    rw [hlines] at hheader
    exact confined_headerOf (hv es hes lines hlines) hheader
  | none =>
    rw [hlines] at hheader
    cases hheader
    exact fun _ hw => (nomatch hw)

/-- `OverridesHeader overrides` — one of the overrides is of the header, and says something. -/
def OverridesHeader (overrides : List (String × Value)) : Prop :=
  ∃ e ∈ present overrides, e.1 = OptionDraft.headerKey

/-- Texts that override leave a header that is contained, or put one in its place. -/
theorem confined_foldl_override {said : List (String × Value)} {d : OptionDraft}
    (hsaid : ∀ e ∈ said, e.2.points?.isSome = true)
    (hd : d.header.Confined ∨ ∃ e ∈ said, e.1 = OptionDraft.headerKey) :
    (said.foldl (fun d e => override d e.1 e.2) d).header.Confined := by
  induction said generalizing d with
  | nil => exact hd.resolve_right fun ⟨_, he, _⟩ => (nomatch he)
  | cons e said ih =>
    obtain ⟨he, hsaid⟩ := List.forall_mem_cons.1 hsaid
    refine ih hsaid ?_
    by_cases hkey : e.1 = OptionDraft.headerKey
    · have hover : (override d e.1 e.2).header = overridingHeader e.2 := by
        rw [override, if_pos (beq_iff_eq.2 hkey)]
      exact Or.inl (hover ▸ confined_overridingHeader he)
    · have hsame : (override d e.1 e.2).header = d.header := by
        rw [override, if_neg (by simpa using hkey), set_header]
      rw [hsame]
      refine hd.imp_right ?_
      rintro ⟨e', he', hkey'⟩
      rcases List.mem_cons.1 he' with rfl | he'
      · exact absurd hkey' hkey
      · exact ⟨e', he', hkey'⟩

theorem confined_merged {o o' : Options} {overrides : List (String × Value)}
    (htexts : ∀ e ∈ overrides, e.2.points?.isSome = true)
    (ho : o.header.Confined ∨ OverridesHeader overrides) (h : o.merged overrides = .ok o') :
    o'.header.Confined := by
  rw [(OptionDraft.free_of_check (check_of_merged h)).1]
  exact confined_foldl_override (d := o.draft) (fun e he => htexts e (List.mem_filter.1 he).1) ho

end Options

/-! ## The heading of every file -/

/-- `Headed header f` — the file starts with the heading, and the marker is below it. -/
def Headed (header : List FileText) (f : Source.File) : Prop :=
  ∃ rest, f.text = heading (header.map (·.text)) ++ (markerLine ++ "\n" ++ rest)

section

variable {s : Setting} {m : Model}

theorem headed_file (path : String) (body : List Line) : Headed s.header (s.file path body) :=
  renderFile_eq _ _

theorem headed_coreFiles (refused : String) : ∀ f ∈ coreFiles s m refused, Headed s.header f := by
  refine List.forall_mem_append.2 ⟨List.forall_mem_cons.2 ⟨headed_file _ _, ?_⟩, ?_⟩
  · exact List.forall_mem_map.2 fun module _ => headed_file _ _
  · exact List.forall_mem_singleton.2 (headed_file _ _)

theorem headed_jvmFiles (library : FileText) : ∀ f ∈ jvmFiles s m library, Headed s.header f := by
  refine List.forall_mem_cons.2 ⟨headed_file _ _, List.forall_mem_append.2 ⟨List.forall_mem_append.2
    ⟨List.forall_mem_append.2 ⟨List.forall_mem_cons.2 ⟨headed_file _ _, ?_⟩, ?_⟩, ?_⟩, ?_⟩⟩
  · exact List.forall_mem_map.2 fun name _ => headed_file _ _
  · refine List.forall_mem_cons.2 ⟨?_, List.forall_mem_singleton.2 (headed_file _ _)⟩
    exact renderFile_eq _ _
  · intro f hf
    obtain ⟨home, _, hf⟩ := List.mem_flatMap.1 hf
    obtain ⟨t, _, ht⟩ := List.mem_filterMap.1 hf
    obtain ⟨_, rfl⟩ := exists_javaValueFile ht
    exact headed_file _ _
  · exact List.forall_mem_map.2 fun module _ => headed_file _ _

theorem headed_swiftFiles : ∀ f ∈ swiftFiles s m, Headed s.header f := by
  refine List.forall_mem_append.2 ⟨List.forall_mem_append.2 ⟨List.forall_mem_cons.2
    ⟨headed_file _ _, List.forall_mem_cons.2 ⟨headed_file _ _,
      List.forall_mem_singleton.2 (headed_file _ _)⟩⟩, ?_⟩, ?_⟩
  · intro f hf
    obtain ⟨home, _, hf⟩ := List.mem_flatMap.1 hf
    obtain ⟨t, _, ht⟩ := List.mem_filterMap.1 hf
    obtain ⟨_, rfl⟩ := exists_swiftValueFile ht
    exact headed_file _ _
  · exact List.forall_mem_map.2 fun module _ => headed_file _ _

/-- Every file of a target starts with the header of the options. -/
theorem Target.emit_headed {target : Target} {o : Options} {t : ErrorTable} {files : List Source.File}
    (h : target.emit m o t = .ok files) :
    ∃ header, o.header.texts = .ok header ∧ ∀ f ∈ files, Headed header f := by
  cases target with
  | core =>
    obtain ⟨s, hs, refused, rfl⟩ := emit_core h
    exact ⟨s.header, hs.header, fun f hf => headed_coreFiles refused f (mem_of_mem_collect hf)⟩
  | jvm =>
    obtain ⟨s, hs, library, rfl⟩ := emit_jvm h
    exact ⟨s.header, hs.header, fun f hf => headed_jvmFiles library f (mem_of_mem_collect hf)⟩
  | swift =>
    obtain ⟨s, hs, rfl⟩ := emit_swift h
    exact ⟨s.header, hs.header, fun f hf => headed_swiftFiles f (mem_of_mem_collect hf)⟩

/-! ## The library between its quotes -/

/-- What loads the library. -/
def loading : String := "System.loadLibrary("

/-- What stands in front of that in the class of the native methods. -/
def loadingFront (header : List FileText) (package : String) : String :=
  heading (header.map (·.text)) ++
    stacked [markerLine, "", "package " ++ package ++ ".internal;", "",
      "public final class Native " ++ opening, "", "    static " ++ opening] ++
    "        "

/-- A line that ends in a semicolon has nothing to trim. -/
theorem trimEnd_semicolon {text front : String} (h : text = front ++ ";") : trimEnd text = text := by
  rw [h]
  exact trimEnd_concat front (by decide)

/-- The lines in front of the one that loads the library, below the marker. -/
def linesBeforeLoading (package : String) : List Line :=
  [line ("package " ++ (package ++ ".internal") ++ ";"), gap,
    line ("public final class Native " ++ opening), ⟨1, ""⟩, ⟨1, "static " ++ opening⟩]

/-- The line that loads the library. -/
def loadingLine (library : FileText) : Line :=
  ⟨2, "System.loadLibrary(\"" ++ library.text ++ "\");"⟩

theorem map_trimEnd_linesBeforeLoading (package : String) :
    (linesBeforeLoading package).map (fun l => trimEnd l.toString) =
      ["package " ++ package ++ ".internal;", "", "public final class Native " ++ opening, "",
        "    static " ++ opening] := by
  have hpackage : trimEnd (line ("package " ++ (package ++ ".internal") ++ ";")).toString =
      "package " ++ package ++ ".internal;" := by
    have htext : (line ("package " ++ (package ++ ".internal") ++ ";")).toString =
        "package " ++ package ++ ".internal" ++ ";" := by
      simp [Line.toString, line, String.append_assoc]
    rw [trimEnd_semicolon htext, htext, String.append_assoc]
    rfl
  have hshort : trimEnd gap.toString = "" ∧
      trimEnd (line ("public final class Native " ++ opening)).toString =
        "public final class Native " ++ opening ∧
      trimEnd (Line.toString ⟨1, ""⟩) = "" ∧
      trimEnd (Line.toString ⟨1, "static " ++ opening⟩) = "    static " ++ opening := by decide
  obtain ⟨hgap, hclass, hempty, hstatic⟩ := hshort
  simp only [linesBeforeLoading, List.map_cons, List.map_nil, hpackage, hgap, hclass, hempty, hstatic]

theorem trimEnd_loadingLine (library : FileText) : trimEnd (loadingLine library).toString =
    "        " ++ (loading ++ ("\"" ++ library.text ++ "\");")) := by
  have htext : (loadingLine library).toString =
      "        " ++ (loading ++ ("\"" ++ library.text ++ "\");")) := by
    have hspaces : String.ofList (List.replicate (4 * 2) ' ') = "        " := by decide
    have hopen : "System.loadLibrary(\"" = loading ++ "\"" := by decide
    simp only [loadingLine, Line.toString, hspaces, hopen, String.append_assoc]
  have hend : (loadingLine library).toString =
      "        " ++ (loading ++ ("\"" ++ library.text ++ "\")")) ++ ";" := by
    have hclose : "\");" = "\")" ++ ";" := by decide
    rw [htext, hclose]
    simp only [String.append_assoc]
  rw [trimEnd_semicolon hend, htext]

/-- The class of the native methods, up to the library and behind it. -/
theorem exists_nativeFile (library : FileText) : ∃ back, (nativeFile s m library).text =
    loadingFront s.header s.options.javaPackage ++
      (loading ++ ("\"" ++ library.text ++ "\");\n" ++ back)) := by
  obtain ⟨after, hbody⟩ : ∃ after, line ("package " ++ (s.options.javaPackage ++ ".internal") ++ ";") ::
      gap :: block "public final class Native" (nativeBody m library) =
        linesBeforeLoading s.options.javaPackage ++ loadingLine library :: after := ⟨_, rfl⟩
  have hne : trimEnd (loadingLine library).toString ≠ "" := by
    rw [trimEnd_loadingLine]
    exact fun he => absurd (congrArg (·.toList.head?) he) (by simp)
  obtain ⟨back, hback⟩ := renderFile_append hne (s.header.map (·.text))
    (linesBeforeLoading s.options.javaPackage) after
  refine ⟨back, ?_⟩
  rw [nativeFile_text, hbody, hback, map_trimEnd_linesBeforeLoading, trimEnd_loadingLine]
  simp only [loadingFront, String.append_assoc]
  rfl

end

/-! ## What the texts come to -/

/-- `OptionTextTold v overrides o header target files` — where the texts of the options stand in the files
of a target, and when they keep to their places. -/
structure OptionTextTold (v : Value) (overrides : List (String × Value)) (o : Options)
    (header : List FileText) (target : Target) (files : List Source.File) : Prop where
  /-- The items of the header are in front of the marker, in every file. -/
  headed : ∀ f ∈ files, Headed header f
  /-- All lines there are comments exactly if each item is contained. -/
  commented : Commented (heading (header.map (·.text))) ↔ ∀ item ∈ header, Contained item.text
  /-- That is so for a header that is one text, and for one that overrides. -/
  oneText : Options.HeaderAsText v ∨ Options.OverridesHeader overrides →
    Commented (heading (header.map (·.text)))
  /-- The class of the native methods has the library between quotes.  They hold it, and nothing else is
  read as part of it, exactly if it has no quote, no backslash and no line break. -/
  loaded : target = .jvm → ∃ library file back, FileText.ofValue o.jniLibraryName = .ok library ∧
    (∀ f, f ∈ files ∧ f.path = nativePath ↔ f = file) ∧
    file.text = loadingFront header o.javaPackage ++
      (loading ++ ("\"" ++ library.text ++ "\");\n" ++ back)) ∧
    (Java.argument? ("\"" ++ library.text ++ "\");\n" ++ back) =
        some (Java.unitsOf library.text, Java.unitsOf ");") ↔
      ∀ c ∈ Java.stops, c ∉ library.text.toList)
  /-- The native library has none of them, so it can be loaded where no other is named. -/
  native : o.jniLibrary.isAbsent = true →
    o.jniLibraryName = .str o.libraryName ∧ ∀ c ∈ Java.stops, c ∉ o.libraryName.toList

/-- **The text of options** is told by what it is: a header keeps to its comments where it is given as one
text, and otherwise where its items do; the library keeps to its quotes where it has none of the
characters that end or change a literal. -/
theorem option_text_told {es : List (Value × Value)} {m : Model} {v : Value} {given o : Options}
    {overrides : List (String × Value)} {target : Target} {t : ErrorTable} {files : List Source.File}
    (hm : Model.ofDescription es = .ok m) (hgiven : Options.ofValue v = .ok given)
    (htexts : ∀ e ∈ overrides, e.2.points?.isSome = true) (ho : given.merged overrides = .ok o)
    (hfiles : target.emit m o t = .ok files) :
    ∃ header, o.header.texts = .ok header ∧ OptionTextTold v overrides o header target files := by
  have hw : m.WellFormed := (ofDescription_eq_ok.1 hm).2
  obtain ⟨header, hheader, hheaded⟩ := Target.emit_headed hfiles
  have hcommented : Commented (heading (header.map (·.text))) ↔
      ∀ item ∈ header, Contained item.text :=
    (commented_heading _).trans List.forall_mem_map
  refine ⟨header, hheader, hheaded, hcommented, fun hone => ?_, ?_, ?_⟩
  · have hconfined := hone.imp_left fun htext => Options.confined_ofValue htext hgiven
    exact hcommented.2 ((Options.confined_merged htexts hconfined ho).texts hheader)
  · rintro rfl
    obtain ⟨s, hs, library, hlibrary, rfl⟩ := emit_jvm_library hfiles
    obtain ⟨back, hback⟩ := exists_nativeFile (s := s) (m := m) library
    have hmem := nativeFile_mem (s := s) hw library
    obtain rfl : s.header = header := Except.ok.inj (hs.header.symm.trans hheader)
    refine ⟨library, nativeFile s m library, back, hlibrary, fun f => ?_, hs.options ▸ hback,
      Java.argument?_eq_iff _ _⟩
    constructor
    · rintro ⟨hf, hpath⟩
      exact eq_of_mem_collect hf hmem hpath
    · rintro rfl
      exact ⟨hmem, rfl⟩
  · intro habsent
    have hword := wordy_of_isIdentifier (Options.valid_of_merged ho).libraryName
    have hstops : (Java.stops.all fun c => !Naming.isIdentifierChar c) = true := by decide
    exact ⟨if_pos habsent, fun c hc => hword.notMem (by simpa using List.all_eq_true.1 hstops c hc)⟩

/-- Options that name a header of one item, and a library. -/
def namingOptions (item library : String) : Value :=
  .map [(.str "header_lines", .list [.str item]), (.str "jni_library", .str library)]

/-- Neither keeps to its place: an item of two lines is no comment from the second on, and a library with a
quote ends where that stands. -/
theorem option_text_told_escaping : ∃ m given o files header,
    Model.ofDescription [] = .ok m ∧
    Options.ofValue (namingOptions "first\nsecond" "a\"b") = .ok given ∧
    given.merged [("library_name", .str "keys")] = .ok o ∧
    Target.jvm.emit m o .standard = .ok files ∧ header.map (·.text) = ["first\nsecond"] ∧
    (∀ f ∈ files, Headed header f) ∧ ¬ Commented (heading ["first\nsecond"]) ∧
    ∃ file ∈ files, ∃ back, file.path = nativePath ∧
      file.text = loadingFront header "org.signal.zkgroup" ++
        (loading ++ ("\"" ++ "a\"b" ++ "\");\n" ++ back)) ∧
      Java.argument? ("\"" ++ "a\"b" ++ "\");\n" ++ back) ≠
        some (Java.unitsOf "a\"b", Java.unitsOf ");") := by
  let given : Options := { Options.standard with
    header := .lines [.str "first\nsecond"], jniLibrary := .str "a\"b" }
  let o : Options := { given with libraryName := "keys" }
  have hm : Model.ofDescription [] = .ok ⟨[], []⟩ := by decide +kernel
  have hgiven : Options.ofValue (namingOptions "first\nsecond" "a\"b") = .ok given := rfl
  have ho : given.merged [("library_name", .str "keys")] = .ok o := by cbv
  obtain ⟨files, hfiles⟩ : ∃ files, Target.jvm.emit ⟨[], []⟩ o .standard = .ok files :=
    exists_eq_ok (by decide +kernel)
  obtain ⟨header, hheader, htold⟩ := option_text_told hm hgiven (by decide) ho hfiles
  obtain rfl : [⟨"first\nsecond", true⟩] = header := Except.ok.inj hheader
  obtain ⟨library, file, back, hlibrary, hfile, htext, hread⟩ := htold.loaded rfl
  obtain rfl : ⟨"a\"b", true⟩ = library := Except.ok.inj hlibrary
  obtain ⟨hmem, hpath⟩ := (hfile file).2 rfl
  refine ⟨_, given, o, files, _, hm, hgiven, ho, hfiles, rfl, htold.headed, ?_, file, hmem, back, hpath,
    htext, ?_⟩
  · show ¬ ∀ l ∈ (pieces (heading ["first\nsecond"])).dropLast, lineComment.toList <+: l
    decide
  · exact fun heq => hread.1 heq '"' (by decide) (by decide)

end Bindery
