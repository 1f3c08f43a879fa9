/-
  CHECKED EXCEPTIONS of the Java side: nothing leaves a method that it does not declare, and nothing is
  caught that cannot come.

  Which exceptions there are and who throws them is read off the classes that stand beside the wrappers:
  one exception extends another, and constructors and methods declare what they throw.  Then every method
  of a wrapper is gone through line by line.  The three things that decide about it, whether it can fail,
  whether it checks ranges and whether it decodes a value, meet in one equation for what leaves it and what
  is caught (`flow_java`); all that is asked of a method follows from that.
-/
import Bindery.Proofs.Boundary.HandedOut
import Bindery.Proofs.Boundary.JavaUnits
import Bindery.Proofs.Source.Raising

namespace Bindery

open Naming Source Target

/-! ## What throws -/

/-- What is called to make a value of the type out of bytes, or of a number. -/
def TypeDef.maker (t : TypeDef) : String := if t.isEnum then t.name ++ ".fromValue" else t.name

/-- Which class extends which one. -/
def hierarchyOf (units : List JavaUnit) : List (String × String) :=
  units.flatMap fun u => extensions.readAt 0 u.lines

/-- Who declares to throw what. -/
def throwersOf (units : List JavaUnit) : List (String × String) :=
  units.flatMap fun u => throwersIn u.name u.lines

section

variable {s : Setting} {m : Model} {library : FileText} {o : Options}

/-- A class that extends another one. -/
theorem read?_extensions {x y : String} (hx : Wordy x.toList) (hy : Wordy y.toList) :
    extensions.read? ("public class " ++ (x ++ ((" extends " ++ y) ++ (" " ++ opening)))).toList =
      some (x, y) := by
  have hread : (x ++ ((" extends " ++ y) ++ (" " ++ opening))).toList =
      x.toList ++ (" extends ".toList ++ (y.toList ++ (" " ++ opening).toList)) := by
    simp only [String.toList_append, List.append_assoc]
  have hmark : Text.Stops isIdentifierChar
      (" extends ".toList ++ (y.toList ++ (" " ++ opening).toList)) := Text.stops_cons.2 rfl
  have hend : Text.Stops isIdentifierChar (" " ++ opening).toList := stops_append (by decide) _
  have hdrop : (" extends ".toList ++ (y.toList ++ (" " ++ opening).toList)).drop 9 =
      y.toList ++ (" " ++ opening).toList := drop_word " extends " _
  refine (Reader.read?_behind (r := extensions) rfl).trans ?_
  unfold extensions
  dsimp only
  rw [hread, Text.dropWhile_append_stops hx hmark, if_pos (List.prefix_append _ _),
    Text.takeWhile_append_stops hx hmark, hdrop, Text.takeWhile_append_stops hy hend,
    String.ofList_toList, String.ofList_toList]

namespace JavaUnit.Laid

variable {u : JavaUnit} {imports : List String} {kind rest : String}

theorem readAt_extensions (h : u.Laid s imports kind rest) : extensions.readAt 0 u.lines =
    (extensions.read? (kind ++ (u.name ++ (rest ++ (" " ++ opening)))).toList).toList := by
  have hpackage : extensions.read? ("package " ++ (u.package s ++ ";")).toList = none := by
    have happart : Apart extensions.head "package " := by decide
    exact Reader.Ignores.of_apart (happart.append _)
  have himports : ∀ text ∈ imports.map (fun i => "import " ++ (i ++ ";")), extensions.Ignores text := by
    have happart : Apart extensions.head "import " := by decide
    exact List.forall_mem_map.2 fun i _ => .of_apart (happart.append _)
  have hfront : extensions.readAll (u.front s imports []) = [] :=
    Reader.readAll_eq_nil (List.forall_mem_cons.2 ⟨hpackage, List.forall_mem_cons.2
      ⟨by decide, List.forall_mem_append.2 ⟨himports, List.forall_mem_nil _⟩⟩⟩)
  rw [h.readAt (by decide) (by decide) (by decide), hfront]
  rfl

/-- A class that is not open to be extended is no exception. -/
theorem extensions_eq_nil (h : u.Laid s imports kind rest) (hkind : Apart extensions.head kind) :
    extensions.readAt 0 u.lines = [] := by
  have hnone : extensions.read? (kind ++ (u.name ++ (rest ++ (" " ++ opening)))).toList = none :=
    Reader.Ignores.of_apart (hkind.append _)
  rw [h.readAt_extensions, hnone]
  rfl

theorem extensions_eq {y : String} (h : u.Laid s imports "public class " (" extends " ++ y))
    (hname : Wordy u.name.toList) (hy : Wordy y.toList) :
    extensions.readAt 0 u.lines = [(u.name, y)] := by
  rw [h.readAt_extensions, read?_extensions hname hy]
  rfl

end JavaUnit.Laid

/-- The exceptions, each with the one that it extends. -/
theorem hierarchyOf_supportUnits (hs : s.Standard) :
    hierarchyOf (supportUnits s m library) = [(baseException, "Exception"),
      (refusedException, baseException), ("VerificationFailedException", baseException)] := by
  have hderived : s.codes.table.derivedExceptions =
      [refusedException, "VerificationFailedException"] := by
    rw [hs.table]
    decide
  have hbase : extensions.readAt 0 (baseExceptionLines s) = [(baseException, "Exception")] := by
    have hrest : " extends Exception" = " extends " ++ "Exception" := by decide
    have hlaid := laid_base (s := s)
    rw [hrest] at hlaid
    exact hlaid.extensions_eq (by decide : Wordy baseException.toList) (by decide)
  have hexception : ∀ {name : String}, Wordy name.toList →
      extensions.readAt 0 (exceptionLines s name) = [(name, baseException)] := fun {name} hname =>
    (laid_exception hs name).extensions_eq hname (by decide)
  have hrefused := hexception (by decide : Wordy refusedException.toList)
  have hfailed := hexception (by decide : Wordy "VerificationFailedException".toList)
  have hvalues : m.placedTypes.flatMap (fun x => extensions.readAt 0 (valueUnit s x).lines) = [] := by
    refine List.flatMap_eq_nil_iff.2 fun x hx => ?_
    have hscalar := (Model.mem_placedTypes.1 (show (x.1, x.2) ∈ m.placedTypes from hx)).2.1
    refine (laid_value hscalar).extensions_eq_nil (s := s) ?_
    unfold valueKind
    split <;> decide
  unfold hierarchyOf
  rw [flatMap_supportUnits, hvalues, hderived, hbase, laid_native.extensions_eq_nil (by decide),
    laid_byteArray.extensions_eq_nil (by decide), List.flatMap_cons, List.flatMap_cons]
  show _ ++ ((extensions.readAt 0 (exceptionLines s _) ++ (extensions.readAt 0 (exceptionLines s _) ++
    [])) ++ _) = _
  rw [hrefused, hfailed]
  rfl

/-! ## Who throws -/

/-- What is declared by a line with this end throws nothing. -/
theorem silent_statements {texts : List String} (h : ∀ text ∈ texts, ∃ front, text = front ++ ";") :
    texts.filterMap thrower? = [] := by
  refine List.filterMap_eq_nil_iff.2 fun text htext => ?_
  obtain ⟨front, rfl⟩ := h text htext
  exact thrower?_statement (c := ';') (getLast?_toList_append _ rfl) (by decide)

theorem throwersIn_base : throwersIn baseException (baseExceptionLines s) =
    [(baseException ++ ".checkResult", baseException)] := by
  have hconstants : (textsAt 0 (baseExceptionConstants s)).filterMap thrower? = [] := by
    unfold baseExceptionConstants
    rw [textsAt_map_line]
    exact silent_statements (List.forall_mem_map.2 fun c _ => ⟨_, rfl⟩)
  have hmembers : (textsAt 0 (baseExceptionMembers s)).filterMap thrower? =
      [("checkResult", baseException)] := by
    simp only [baseExceptionMembers, checkResultMethod, textsAt_append, textsAt_lines, textsAt_gap_zero,
      textsAt_block_zero]
    decide
  have htexts : textsAt 1 (baseExceptionLines s) =
      "" :: (textsAt 0 (baseExceptionConstants s) ++ textsAt 0 (baseExceptionMembers s)) := by
    simp [baseExceptionLines]
  have hempty : thrower? "" = none := by decide
  rw [throwersIn, htexts, List.filterMap_cons, hempty, List.filterMap_append, hconstants, hmembers]
  decide

theorem throwersIn_exception (name : String) : throwersIn name (exceptionLines s name) = [] := by
  have htexts : textsAt 1 (exceptionLines s name) = ["", "public " ++ name ++ "(int code" ++ ") \x7b",
      closing, "", "public " ++ name ++ "(int code, String message" ++ ") \x7b", closing] := by
    simp [exceptionLines, String.append_assoc]
    exact ⟨by decide, by decide⟩
  have hempty : thrower? "" = none := by decide
  have hclosing : thrower? closing = none := by decide
  rw [throwersIn, htexts]
  simp only [List.filterMap_cons, hempty, hclosing, thrower?_eq_none rfl, List.filterMap_nil, List.map_nil]

theorem throwersIn_native : throwersIn "Native" (nativeLines s m library) = [] := by
  have hnatives : (textsAt 0 (m.functions.map fun f => line f.native.text)).filterMap thrower? = [] := by
    rw [textsAt_map_line]
    exact silent_statements (List.forall_mem_map.2 fun f _ => ⟨_, rfl⟩)
  have htexts : textsAt 1 (nativeLines s m library) = ["", "static \x7b", closing, "",
      "private Native() \x7b", closing, ""] ++ textsAt 0 (m.functions.map fun f => line f.native.text) := by
    simp [nativeLines, nativeBody]
    decide
  rw [throwersIn, htexts, List.filterMap_append, hnatives]
  decide

theorem throwersIn_byteArray (hs : s.Standard) :
    throwersIn "ByteArray" (byteArrayLines s) = [("ByteArray", refusedException)] := by
  have htexts : textsAt 1 (byteArrayLines s) = textsAt 0 (byteArrayBody refusedException s.refused) := by
    simp [byteArrayLines, hs.refused]
  rw [throwersIn, htexts]
  simp only [byteArrayBody, decodeMethod, textsAt_append, textsAt_lines, textsAt_gap_zero,
    textsAt_block_zero]
  decide

/-- The class of a buffer: its constructor. -/
theorem throwersIn_buffer {home name : String} {size : Nat} (hname : Wordy name.toList)
    (hs : s.Standard) :
    throwersIn name (bufferClassLines s home name size) = [(name, refusedException)] := by
  have htexts : textsAt 1 (bufferClassLines s home name size) =
      ["", "public static final int SIZE = " ++ Decimal.integer size ++ ";", "",
        "public " ++ (name ++ ("(" ++ ("byte[] contents" ++ (") throws " ++ (refusedException ++ " \x7b"))))),
        closing] := by
    have hthrows : "(byte[] contents) throws " = "(" ++ "byte[] contents" ++ ") throws " := by decide
    simp [bufferClassLines, hs.refused, hthrows, String.append_assoc]
    rfl
  have hsize : thrower? ("public static final int SIZE = " ++ Decimal.integer size ++ ";") = none :=
    thrower?_statement (c := ';') (getLast?_toList_append _ rfl) (by decide)
  have hmake : thrower? ("public " ++ (name ++ ("(" ++ ("byte[] contents" ++
      (") throws " ++ (refusedException ++ " \x7b")))))) = some (name, refusedException) :=
    thrower?_throws rfl (by decide) (by decide) hname (by decide)
  have hempty : thrower? "" = none := by decide
  have hclosing : thrower? closing = none := by decide
  rw [throwersIn, htexts]
  simp only [List.filterMap_cons, hempty, hclosing, hsize, hmake, List.filterMap_nil, List.map_cons,
    List.map_nil, if_true]

theorem silent_constants (constants : List (String × Nat)) :
    (textsAt 0 (javaConstantLines constants)).filterMap thrower? = [] := by
  refine List.filterMap_eq_nil_iff.2 ?_
  induction constants using javaConstantLines.induct with
  | case1 => exact List.forall_mem_nil _
  | case2 c =>
    exact List.forall_mem_singleton.2
      (thrower?_statement (c := ';') (getLast?_toList_append _ rfl) (by decide))
  | case3 c constants hne ih =>
    rw [javaConstantLines.eq_3 _ _ hne, textsAt_line_zero]
    exact List.forall_mem_cons.2
      ⟨thrower?_statement (c := ',') (getLast?_toList_append _ rfl) (by decide), ih⟩

/-- What stands one block deep in the class of an enumeration. -/
theorem textsAt_enumClass (hs : s.Standard) (home name : String) (variants : List String) :
    textsAt 1 (enumClassLines s home name variants) =
      textsAt 0 (javaConstantLines (javaConstants variants)) ++
        ["", "private final int value;", "", name ++ "(int value" ++ ") \x7b", closing, "",
          "public int getValue() \x7b", closing, "", ("public static " ++ name ++ " ") ++ ("fromValue" ++
            ("(" ++ ("int value" ++ (") throws " ++ (refusedException ++ " \x7b"))))), closing] := by
  have hmake : name ++ "(int value)" ++ " " ++ opening = name ++ "(int value" ++ ") \x7b" := by
    have hclose : "(int value)" ++ (" " ++ opening) = "(int value" ++ ") \x7b" := by decide
    simp only [String.append_assoc, hclose]
  have hget : "public int getValue()" ++ " " ++ opening = "public int getValue() \x7b" := by decide
  have hfind : "public static " ++ name ++ " fromValue(int value) throws " ++ refusedException ++ " " ++
      opening = ("public static " ++ name ++ " ") ++ ("fromValue" ++ ("(" ++ ("int value" ++
        (") throws " ++ (refusedException ++ " \x7b"))))) := by
    have hthrows : " fromValue(int value) throws " =
        " " ++ ("fromValue" ++ ("(" ++ ("int value" ++ ") throws "))) := by decide
    have hclose : refusedException ++ (" " ++ opening) = refusedException ++ " \x7b" := by decide
    rw [hthrows]
    simp only [String.append_assoc, hclose]
  unfold enumClassLines
  rw [textsAt_line, textsAt_gap, textsAt_append, textsAt_lines_deeper, textsAt_block, enumBody,
    enumConstructor, fromValueLines, hs.refused]
  simp only [textsAt_append, textsAt_lines, textsAt_block_zero, textsAt_gap_zero, hmake, hget, hfind,
    List.nil_append, List.cons_append]

/-- The class of an enumeration: the method that looks for a number. -/
theorem throwersIn_enum {home name : String} {variants : List String} (hname : isTypeName name = true)
    (hs : s.Standard) :
    throwersIn name (enumClassLines s home name variants) =
      [(name ++ ".fromValue", refusedException)] := by
  have hword := wordy_of_plain (plain_of_isTypeName hname)
  have hother : "fromValue" ≠ name := by
    rintro rfl
    exact absurd hname (by decide)
  have hfind : thrower? (("public static " ++ name ++ " ") ++ ("fromValue" ++ ("(" ++ ("int value" ++
      (") throws " ++ (refusedException ++ " \x7b")))))) = some ("fromValue", refusedException) := by
    have hopen : '(' ∉ ("public static " ++ name ++ " ").toList := by
      simp +decide only [String.toList_append, List.mem_append, or_false, false_or]
      exact hword.notMem (by decide)
    exact thrower?_throws rfl hopen (stops_reverse (getLast?_toList_append _ rfl) (by decide))
      (by decide) (by decide)
  have hempty : thrower? "" = none := by decide
  have hvalue : thrower? "private final int value;" = none := by decide
  have hget : thrower? "public int getValue() \x7b" = none := by decide
  have hclosing : thrower? closing = none := by decide
  rw [throwersIn, textsAt_enumClass hs, List.filterMap_append, silent_constants]
  simp only [List.filterMap_cons, hempty, hvalue, hget, hclosing, thrower?_eq_none rfl, hfind,
    List.filterMap_nil, List.nil_append, List.map_cons, List.map_nil, if_neg hother]
  rw [String.append_assoc]
  rfl

/-- **Who throws**: the method that turns a number into an exception, and whoever is handed bytes or a
number to make a value of. -/
theorem throwersOf_supportUnits (hm : m.WellFormed) (hs : s.Standard) :
    throwersOf (supportUnits s m library) = (baseException ++ ".checkResult", baseException) ::
      ("ByteArray", refusedException) :: m.placedTypes.map fun x => (x.2.maker, refusedException) := by
  have hvalue : ∀ x ∈ m.placedTypes, throwersIn (valueUnit s x).name (valueUnit s x).lines =
      [(x.2.maker, refusedException)] := by
    intro x hx
    obtain ⟨ht, hscalar, _⟩ := Model.mem_placedTypes.1 (show (x.1, x.2) ∈ m.placedTypes from hx)
    have hname : isTypeName x.2.name = true := (hm.types.each _ ht).named.1
    show throwersIn x.2.name (valueLines s x.1 x.2) = _
    unfold valueLines TypeDef.maker
    cases hshape : x.2.shape with
    | buffer size =>
      have henum : x.2.isEnum ≠ true := by rw [TypeDef.isEnum, hshape]; exact Bool.false_ne_true
      rw [if_neg henum]
      exact throwersIn_buffer (wordy_of_plain (plain_of_isTypeName hname)) hs
    | enum variants =>
      have henum : x.2.isEnum = true := by rw [TypeDef.isEnum, hshape]; rfl
      rw [if_pos henum]
      exact throwersIn_enum hname hs
    | scalar w =>
      rw [TypeDef.isScalar, hshape] at hscalar
      exact absurd hscalar (Bool.false_ne_true ∘ Eq.symm)
  have hvalues : m.placedTypes.flatMap (fun x => throwersIn (valueUnit s x).name (valueUnit s x).lines) =
      m.placedTypes.map fun x => (x.2.maker, refusedException) := by
    rw [List.map_eq_flatMap]
    exact List.flatMap_congr hvalue
  have hexceptions : s.codes.table.derivedExceptions.flatMap (fun name =>
      throwersIn (exceptionUnit s name).name (exceptionUnit s name).lines) = [] :=
    List.flatMap_eq_nil_iff.2 fun name _ => throwersIn_exception name
  unfold throwersOf
  rw [flatMap_supportUnits, hvalues, hexceptions, throwersIn_base, throwersIn_native,
    throwersIn_byteArray hs]
  rfl

end

/-! ## Who is told by a name -/

/-- Who throws what, in the classes that stand beside the wrappers of a model. -/
def Model.javaThrowers (m : Model) : List (String × String) :=
  (baseException ++ ".checkResult", baseException) :: ("ByteArray", refusedException) ::
    m.placedTypes.map fun x => (x.2.maker, refusedException)

/-- What stands in front of the first dot of what is called. -/
def ownerOf (callee : String) : String := String.ofList (callee.toList.takeWhile (· != '.'))

theorem ownerOf_append {name : String} (hname : Wordy name.toList) (member : String) :
    ownerOf (name ++ ("." ++ member)) = name := by
  have hfree : ∀ c ∈ name.toList, (c != '.') = true := fun c hc =>
    bne_iff_ne.2 fun heq => hname.notMem (by decide) (heq ▸ hc)
  have hread : (name ++ ("." ++ member)).toList = name.toList ++ '.' :: member.toList := by
    simp only [String.toList_append]
    rfl
  rw [ownerOf, hread, Text.takeWhile_append_stops hfree (Text.stops_cons.2 rfl), String.ofList_toList]

theorem ownerOf_wordy {name : String} (hname : Wordy name.toList) : ownerOf name = name := by
  have hfree : ∀ c ∈ name.toList, (c != '.') = true := fun c hc =>
    bne_iff_ne.2 fun heq => hname.notMem (by decide) (heq ▸ hc)
  rw [ownerOf, List.takeWhile_eq_self_iff.2 hfree, String.ofList_toList]

theorem ownerOf_maker {t : TypeDef} (ht : Wordy t.name.toList) : ownerOf t.maker = t.name := by
  unfold TypeDef.maker
  split
  · exact ownerOf_append ht "fromValue"
  · exact ownerOf_wordy ht

section

variable {m : Model} {f : Function}

/-- Nobody throws under two names, and no name is that of two. -/
theorem nodup_javaThrowers (hm : m.WellFormed) : (m.javaThrowers.map Prod.fst).Nodup := by
  have hvalues : (m.placedTypes.map fun x => (x.2.maker, refusedException)).map (ownerOf ∘ Prod.fst) =
      m.placedTypes.map fun x => x.2.name := by
    rw [List.map_map]
    refine List.map_congr_left fun x hx => ?_
    obtain ⟨ht, _⟩ := Model.mem_placedTypes.1 (show (x.1, x.2) ∈ m.placedTypes from hx)
    exact ownerOf_maker (hm.word_typeName ht).1
  have howners : (m.javaThrowers.map Prod.fst).map ownerOf =
      [baseException, "ByteArray"] ++ m.placedTypes.map fun x => x.2.name := by
    have hfixed : ownerOf (baseException ++ ".checkResult") = baseException := by decide
    have hbytes : ownerOf "ByteArray" = "ByteArray" := by decide
    unfold Model.javaThrowers
    rw [List.map_map, List.map_cons, List.map_cons, hvalues]
    show ownerOf (baseException ++ ".checkResult") :: ownerOf "ByteArray" :: _ = _
    rw [hfixed, hbytes]
    rfl
  -- Who throws is told by the class alone, though many of them have a method of one name.
  refine List.Nodup.of_map ownerOf ?_
  rw [howners]
  refine List.nodup_append.2 ⟨by decide, Model.nodup_placedTypes hm, ?_⟩
  rintro name hname _ hother rfl
  obtain ⟨x, hx, rfl⟩ := List.mem_map.1 hother
  obtain ⟨ht, _⟩ := Model.mem_placedTypes.1 (show (x.1, x.2) ∈ m.placedTypes from hx)
  have hreserved : ∀ name ∈ [baseException, "ByteArray"], name ∈ reservedTypeNames := by decide
  exact (hm.types.each _ ht).named.2 _ (List.mem_append_left _ (hreserved _ hname)) rfl

/-- To make a value of a type can fail for what it is made of. -/
theorem lookup_maker (hm : m.WellFormed) {t : TypeDef} (ht : t ∈ m.types) (h : t.isScalar = false) :
    m.javaThrowers.lookup t.maker = some refusedException := by
  refine lookup_of_mem (nodup_javaThrowers hm) (List.mem_cons_of_mem _ (List.mem_cons_of_mem _ ?_))
  exact List.mem_map.2 ⟨(m.homeModule t, t), Model.mem_placedTypes.2 ⟨ht, h, rfl⟩, rfl⟩

/-- What is neither of a type nor of those that the bindings bring along throws nothing. -/
theorem lookup_silent (hm : m.WellFormed) {callee : String}
    (hfixed : callee ∉ [baseException ++ ".checkResult", "ByteArray"])
    (howner : ∀ t ∈ m.types, t.name ≠ ownerOf callee) : m.javaThrowers.lookup callee = none := by
  rw [List.mem_cons, List.mem_singleton, not_or] at hfixed
  refine List.lookup_eq_none_iff.2 (List.forall_mem_cons.2 ⟨bne_iff_ne.2 hfixed.1,
    List.forall_mem_cons.2 ⟨bne_iff_ne.2 hfixed.2, List.forall_mem_map.2 fun x hx => bne_iff_ne.2 ?_⟩⟩)
  obtain ⟨ht, _⟩ := Model.mem_placedTypes.1 (show (x.1, x.2) ∈ m.placedTypes from hx)
  rintro rfl
  exact howner x.2 ht (ownerOf_maker (hm.word_typeName ht).1).symm

/-- Members of classes with reserved names that are not among those that throw. -/
theorem lookup_reserved (hm : m.WellFormed) {name : String} (hname : Wordy name.toList)
    (hreserved : name ∈ reservedTypeNames) (hbase : name ≠ baseException) (member : String) :
    m.javaThrowers.lookup (name ++ ("." ++ member)) = none := by
  refine lookup_silent hm ?_ fun t ht heq => ?_
  · rw [List.mem_cons, List.mem_singleton, not_or]
    constructor
    · intro heq
      have howner := congrArg ownerOf heq
      rw [ownerOf_append hname] at howner
      exact hbase (howner.trans (by decide))
    · intro heq
      have hdot : '.' ∈ (name ++ ("." ++ member)).toList := by
        simp only [String.toList_append, List.mem_append]
        exact Or.inr (Or.inl (by decide))
      rw [heq] at hdot
      exact absurd hdot (by decide)
  · rw [ownerOf_append hname] at heq
    exact (hm.types.each t ht).named.2 name (List.mem_append_left _ hreserved) (congrArg lower heq.symm)

/-- Methods of a parameter. -/
theorem lookup_argument (hm : m.WellFormed) (hf : f ∈ m.functions) {a : Argument}
    (ha : a ∈ f.arguments) (member : String) :
    m.javaThrowers.lookup (a.name ++ ("." ++ member)) = none := by
  have hword := (hm.known hf ha).name
  have hlocal := hm.isLocalName_argument hf ha
  refine lookup_silent hm ?_ fun t ht heq => ?_
  · rw [List.mem_cons, List.mem_singleton, not_or]
    constructor
    all_goals
      intro heq
      have howner := congrArg ownerOf heq
      rw [ownerOf_append hword] at howner
      rw [howner] at hlocal
      exact absurd hlocal (by decide)
  · -- A type starts with a capital, and a parameter with a small letter.
    rw [ownerOf_append hword] at heq
    obtain ⟨c, rest, hc, hupper⟩ := exists_upper_of_isTypeName (hm.types.each t ht).named.1
    rw [← heq, isLocalName, hc, Bool.and_eq_true, Bool.or_eq_true, beq_iff_eq] at hlocal
    rcases hlocal.1 with hlower | rfl
    · exact Char.not_isLower_of_isUpper hupper hlower
    · exact absurd hupper (by decide)

/-! ## Calls of a method -/

/-- A text that calls a member of something. -/
theorem calleesIn_member {name member after : String} (hname : Wordy name.toList)
    (hmember : Wordy member.toList) (hafter : '(' ∉ after.toList) :
    calleesIn ((name ++ ("." ++ member)) ++ ("(" ++ after)) = [name ++ ("." ++ member)] := by
  refine calleesIn_oneCall ⟨"", after, String.empty_append.symm, by decide, Text.stops_nil, hafter⟩ ?_
  simp only [String.toList_append]
  exact List.forall_mem_append.2 ⟨isCalleeChar_of_wordy hname, List.forall_mem_append.2
    ⟨List.forall_mem_singleton.2 (by decide), isCalleeChar_of_wordy hmember⟩⟩

/-- What decoding a value raises. -/
theorem raised_javaDecode (hm : m.WellFormed) {d : Delivery} (htype : d.type ∈ m.types)
    (hslot : Wordy d.slot.toList) :
    (calleesIn d.javaDecode.expression).filterMap (fun x => m.javaThrowers.lookup x) =
      if d.type.isScalar then [] else [refusedException] := by
  have hword := (hm.word_typeName htype).1
  have hfree : ∀ {after : String}, '(' ∉ after.toList → '(' ∉ (d.slot ++ after).toList := fun h => by
    rw [String.toList_append, List.mem_append, not_or]
    exact ⟨hslot.notMem (by decide), h⟩
  have hmaker : d.type.isScalar = false → ∀ text, calleesIn text = [d.type.maker] →
      (calleesIn text).filterMap (fun x => m.javaThrowers.lookup x) =
        if d.type.isScalar then [] else [refusedException] := by
    intro hscalar text htext
    rw [htext, List.filterMap_cons, lookup_maker hm htype hscalar, hscalar]
    rfl
  have hnumber : ∀ member, Wordy member.toList → d.type.isScalar = true →
      (calleesIn (("ByteArray" ++ ("." ++ member)) ++ inParens d.slot)).filterMap
        (fun x => m.javaThrowers.lookup x) = if d.type.isScalar then [] else [refusedException] := by
    intro member hmember hscalar
    have hcall : inParens d.slot = "(" ++ (d.slot ++ ")") := String.append_assoc
    rw [hcall, calleesIn_member (by decide) hmember (hfree (by decide)), List.filterMap_cons,
      lookup_reserved hm (by decide) (by decide) (by decide), hscalar]
    rfl
  unfold Delivery.javaDecode
  cases hshape : d.type.shape with
  | buffer size =>
    have hscalar : d.type.isScalar = false := by rw [TypeDef.isScalar, hshape]; rfl
    have hname : d.type.maker = d.type.name := by rw [TypeDef.maker, TypeDef.isEnum, hshape]; rfl
    refine hmaker hscalar _ ?_
    rw [hname]
    have hread : (JavaDecode.buffer d.type.name d.slot).expression =
        "new " ++ (d.type.name ++ ("(" ++ (d.slot ++ ")"))) := by
      show "new " ++ d.type.name ++ ("(" ++ d.slot ++ ")") = _
      simp only [String.append_assoc]
    have hbehind : '(' ∉ (d.slot ++ ")").toList := hfree (by decide)
    have hone : OneCall d.type.name ("new " ++ (d.type.name ++ ("(" ++ (d.slot ++ ")")))) :=
      ⟨"new ", d.slot ++ ")", rfl, by decide, by decide, hbehind⟩
    rw [hread]
    exact calleesIn_oneCall hone (isCalleeChar_of_wordy hword)
  | enum variants =>
    have hscalar : d.type.isScalar = false := by rw [TypeDef.isScalar, hshape]; rfl
    have hname : d.type.maker = d.type.name ++ ("." ++ "fromValue") := by
      rw [TypeDef.maker, TypeDef.isEnum, hshape]
      rfl
    have hread : (JavaDecode.enum d.type.name d.slot).expression =
        (d.type.name ++ ("." ++ "fromValue")) ++ ("(" ++ (d.slot ++ "[0] & 0xff)")) := by
      have hopen : ".fromValue(" = "." ++ ("fromValue" ++ "(") := by decide
      show d.type.name ++ ".fromValue(" ++ d.slot ++ "[0] & 0xff)" = _
      simp only [hopen, String.append_assoc]
    refine hmaker hscalar _ ?_
    rw [hread, hname, calleesIn_member hword (by decide) (hfree (by decide))]
  | scalar w =>
    have hscalar : d.type.isScalar = true := by rw [TypeDef.isScalar, hshape]; rfl
    cases w with
    | eight => exact hnumber "decodeLong" (by decide) hscalar
    | _ => exact hnumber "decodeInt" (by decide) hscalar

/-- What is handed over by a call calls nothing that throws. -/
theorem calls_commas {P : String → Prop} {texts : List String} {after : String}
    (hafter : Calls P after) (h : ∀ text ∈ texts, ∀ rest : String, '(' ∉ rest.toList → Calls P (text ++ rest))
    (hfree : '(' ∉ after.toList) : Calls P (commas texts ++ after) := by
  -- By induction on the texts: each stands in front of a comma, and the last one in front of the end.
  induction texts with
  | nil =>
    have hnil : commas [] ++ after = after := String.empty_append
    rw [hnil]
    exact hafter
  | cons text texts ih =>
    obtain ⟨hfirst, hrest⟩ := List.forall_mem_cons.1 h
    cases texts with
    | nil => exact hfirst after hfree
    | cons next texts =>
      have hread : commas (text :: next :: texts) ++ after =
          (text ++ ", ") ++ (commas (next :: texts) ++ after) := by
        unfold commas
        rw [String.intercalate_cons_cons]
        simp only [String.append_assoc]
      rw [hread]
      exact (hfirst ", " (by decide)).append (ih hrest)
        (stops_reverse (getLast?_toList_append _ rfl) (by decide))

/-- An argument asks a value for what it has, or hands over a name. -/
theorem calls_nativeArg (hm : m.WellFormed) (hf : f ∈ m.functions) {a : Argument} (ha : a ∈ f.arguments)
    (rest : String) (hrest : '(' ∉ rest.toList) :
    Calls (fun x => m.javaThrowers.lookup x = none) (a.nativeArg.expression ++ rest) := by
  have hname := (hm.known hf ha).name
  have hmethod : ∀ member, Wordy member.toList → Calls (fun x => m.javaThrowers.lookup x = none)
      ((a.name ++ ("." ++ member)) ++ ("(" ++ (")" ++ rest))) := by
    intro member hmember callee hcallee
    have hfree : '(' ∉ (")" ++ rest).toList := by
      rw [String.toList_append, List.mem_append, not_or]
      exact ⟨by decide, hrest⟩
    rw [calleesIn_member hname hmember hfree, List.mem_singleton] at hcallee
    rw [hcallee]
    exact lookup_argument hm hf ha member
  unfold Argument.nativeArg
  split
  · have hread : (NativeArg.contents a.name).expression ++ rest =
        (a.name ++ ("." ++ "getInternalContentsForJNI")) ++ ("(" ++ (")" ++ rest)) := by
      have hcall : ".getInternalContentsForJNI()" =
          "." ++ ("getInternalContentsForJNI" ++ ("(" ++ ")")) := by decide
      simp only [NativeArg.expression, hcall, String.append_assoc]
    rw [hread]
    exact hmethod _ (by decide)
  · have hread : (NativeArg.ordinal a.name).expression ++ rest =
        (a.name ++ ("." ++ "getValue")) ++ ("(" ++ (")" ++ rest)) := by
      have hcall : ".getValue()" = "." ++ ("getValue" ++ ("(" ++ ")")) := by decide
      simp only [NativeArg.expression, hcall, String.append_assoc]
    rw [hread]
    exact hmethod _ (by decide)
  · refine .of_notMem ?_
    rw [String.toList_append, List.mem_append, not_or]
    exact ⟨hname.notMem (by decide), hrest⟩

/-- The native call and what it hands over throw nothing. -/
theorem calls_javaCall (hm : m.WellFormed) (hf : f ∈ m.functions) :
    Calls (fun x => m.javaThrowers.lookup x = none) f.javaCall := by
  have hnative : Wordy f.nativeMethod.toList := (hm.named hf).wordy_nativeMethod
  have harguments : ∀ text ∈ f.arguments.map (·.nativeArg.expression), ∀ rest : String,
      '(' ∉ rest.toList → Calls (fun x => m.javaThrowers.lookup x = none) (text ++ rest) :=
    List.forall_mem_map.2 fun _ ha => calls_nativeArg hm hf ha
  have hread : f.javaCall = "int ffiResult = " ++ (("Native" ++ ("." ++ f.nativeMethod)) ++
      ("(" ++ (commas (f.arguments.map (·.nativeArg.expression)) ++ ");"))) := by
    have hcall : "int ffiResult = Native." = "int ffiResult = " ++ ("Native" ++ ".") := by decide
    have hclose : ");" = ")" ++ ";" := by decide
    unfold Function.javaCall inParens
    rw [hcall, hclose]
    simp only [String.append_assoc]
  have hpath : ∀ c ∈ ("Native" ++ ("." ++ f.nativeMethod)).toList, isCalleeChar c = true := by
    simp only [String.toList_append]
    exact List.forall_mem_append.2 ⟨isCalleeChar_of_wordy (by decide), List.forall_mem_append.2
      ⟨List.forall_mem_singleton.2 (by decide), isCalleeChar_of_wordy hnative⟩⟩
  have hlookup : m.javaThrowers.lookup ("Native" ++ ("." ++ f.nativeMethod)) = none :=
    lookup_reserved hm (by decide) (by decide) (by decide) _
  have hbehind : Calls (fun x => m.javaThrowers.lookup x = none)
      (commas (f.arguments.map (·.nativeArg.expression)) ++ ");") :=
    calls_commas (.of_notMem (by decide)) harguments (by decide)
  have hfront : Calls (fun x => m.javaThrowers.lookup x = none) "int ffiResult = " :=
    .of_notMem (by decide)
  rw [hread]
  exact hfront.append (.call hpath hlookup hbehind) (by decide)

end

/-! ## What leaves a method -/

namespace Function

/-- What decoding the values of a call can raise. -/
def decodeFaults (f : Function) : List String :=
  f.filled.flatMap fun a => if a.type.isScalar then [] else [refusedException]

/-- What leaves a method behind its native call: it may report a failure by an exception, or it has to
do with errors of its own. -/
def javaOutcome (f : Function) : Flow where
  leaves :=
    if f.fallible then baseException :: f.decodeFaults
    else "AssertionError" :: if f.guarded then ["AssertionError"] else []
  caught := if f.guarded then [(refusedException, f.decodeFaults)] else []

/-- What leaves a method. -/
def javaFlow (f : Function) : Flow :=
  ⟨f.ranged.map (fun _ => refusedException) ++ f.javaOutcome.leaves, f.javaOutcome.caught⟩

end Function

section

variable {m : Model} {f : Function} {s : Setting}

/-- How lines start that neither throw, return nor try anything themselves. -/
def calmStarts : List String := ["if (", "\"", "byte[] ", "int ffiResult = ", baseException, closing]

theorem calm_start {text start rest : String} (htext : text = start ++ rest) (h : start ∈ calmStarts) :
    throwsItself.Ignores text ∧ javaReturns.Ignores text ∧ tries.Ignores text := by
  have hthrow : ∀ start ∈ calmStarts, Apart throwsItself.head start := by decide
  have hreturn : ∀ start ∈ calmStarts, Apart javaReturns.head start := by decide
  have htry : ∀ start ∈ calmStarts, Apart tries.head start := by decide
  exact ⟨.of_start hthrow htext h, .of_start hreturn htext h, .of_start htry htext h⟩

/-- A condition on what is called in no parentheses of its own. -/
theorem calls_if (hm : m.WellFormed) {condition : String} (h : '(' ∉ condition.toList) :
    Calls (fun x => m.javaThrowers.lookup x = none) ("if (" ++ condition) := by
  have hread : "if (" ++ condition = "if " ++ ("" ++ ("(" ++ condition)) := by
    have hif : "if (" = "if " ++ ("" ++ "(") := by decide
    rw [hif]
    simp only [String.append_assoc]
  have hempty : m.javaThrowers.lookup "" = none := lookup_silent hm (by decide) fun t ht heq =>
    (hm.word_typeName ht).2 (heq.trans (by decide))
  rw [hread]
  exact (Calls.of_notMem (by decide)).append
    (.call (isCalleeChar_of_wordy (by decide)) hempty (.of_notMem h)) (by decide)

/-- A line that starts so and calls nobody who throws. -/
theorem raised_calm {text start rest : String} (htext : text = start ++ rest) (h : start ∈ calmStarts)
    (hcalls : Calls (fun x => m.javaThrowers.lookup x = none) text) :
    raisedBy m.javaThrowers text = [] := by
  obtain ⟨hthrow, hreturn, _⟩ := calm_start htext h
  exact raisedBy_quiet hthrow hreturn hcalls

theorem raised_closing : raisedBy m.javaThrowers closing = [] :=
  raised_calm (by decide : closing = closing ++ "") (by decide) (.of_notMem (by decide))

/-- A line that throws the exception for refused arguments. -/
theorem throwsItself_refused (constant : String) : throwsItself.read? ("throw new " ++
    (refusedException ++ "(" ++ codeConstant constant ++ ",")).toList = some refusedException := by
  have hstops : Text.Stops isIdentifierChar ("(" ++ (codeConstant constant ++ ",")).toList :=
    stops_append (by decide) _
  refine read?_named ?_ (by decide) hstops
  simp only [String.append_assoc]

/-- A line that throws an error. -/
theorem throwsItself_assertion (message : String) : throwsItself.read? ("throw new " ++
    ("AssertionError(\"" ++ message)).toList = some "AssertionError" := by
  have hstops : Text.Stops isIdentifierChar ("(\"" ++ message).toList := stops_append (by decide) _
  have hopen : "AssertionError(\"" = "AssertionError" ++ "(\"" := by decide
  rw [hopen, String.append_assoc]
  exact read?_named rfl (by decide) hstops

/-- The check of a range throws the exception for refused arguments, and raises nothing else. -/
theorem raised_rangeCheck (hm : m.WellFormed) (hs : s.Standard) {x : String × Width}
    (hx : Wordy x.1.toList) :
    ((rangeCheck s x).map (·.text)).flatMap (raisedBy m.javaThrowers) = [refusedException] := by
  have hname : '(' ∉ x.1.toList := hx.notMem (by decide)
  have hdigits : '(' ∉ (String.ofList (Nat.toDigits 16 x.2.greatest)).toList := by
    cases x.2 <;> decide
  have hcondition : '(' ∉ (x.1 ++ " < 0 || " ++ x.1 ++ " > " ++
      ("0x" ++ String.ofList (Nat.toDigits 16 x.2.greatest)) ++ ")" ++ " " ++ opening).toList := by
    simp +decide only [String.toList_append, List.mem_append, hname, hdigits, or_self, not_false_eq_true]
  have hmessage : '(' ∉ ("\"" ++ x.1 ++ " out of range: \" + " ++ x.1 ++ ");").toList := by
    simp +decide only [String.toList_append, List.mem_append, hname, or_self, not_false_eq_true]
  rw [texts_rangeCheck, hs.refused]
  simp only [List.flatMap_cons, List.flatMap_nil, raisedBy_throw (throwsItself_refused s.refused),
    raised_closing, raised_calm rfl (by decide : "if (" ∈ _) (calls_if hm hcondition),
    raised_calm (rangeMessage_eq x.1) (by decide) (.of_notMem hmessage)]
  rfl

/-- What a method does before its native call raises no more than the checks of ranges. -/
theorem raised_ranged (hm : m.WellFormed) (hf : f ∈ m.functions)
    (hs : s.Standard) :
    ((f.ranged.flatMap (rangeCheck s)).map (·.text)).flatMap (raisedBy m.javaThrowers) =
      f.ranged.map fun _ => refusedException := by
  rw [List.map_flatMap, List.flatMap_assoc, List.map_eq_flatMap]
  refine List.flatMap_congr fun x hx => raised_rangeCheck hm hs ?_
  obtain ⟨p, hp, hrange⟩ := List.mem_filterMap.1 hx
  obtain ⟨_, _, hname⟩ := Parameter.ranged?_eq_some.1 hrange
  rw [← hname]
  exact wordy_input hm hf hp

theorem raised_rooms (hm : m.WellFormed) (hf : f ∈ m.functions) :
    (f.filled.map Function.javaRoom).flatMap (raisedBy m.javaThrowers) = [] := by
  refine List.flatMap_eq_nil_iff.2 (List.forall_mem_map.2 fun a ha => ?_)
  have hknown := known_filled hm hf ha
  have hname : '(' ∉ a.name.toList := hknown.name.notMem (by decide)
  have hlength : '(' ∉ (a.type.size.spell classSize).toList :=
    (hm.tight_classSize hknown.type).notMem (by decide) (by decide) (by decide)
  refine raised_calm (javaRoom_eq a) (by decide) (.of_notMem ?_)
  rw [javaRoom_eq]
  simp +decide only [String.toList_append, List.mem_append, hname, hlength, or_self, not_false_eq_true]

theorem raised_javaCall (hm : m.WellFormed) (hf : f ∈ m.functions) :
    raisedBy m.javaThrowers f.javaCall = [] := by
  have hread : f.javaCall = "int ffiResult = " ++ ("Native." ++ (f.nativeMethod ++
      (inParens (commas (f.arguments.map (·.nativeArg.expression))) ++ ";"))) := by
    have hcall : "int ffiResult = Native." = "int ffiResult = " ++ "Native." := by decide
    rw [javaCall_eq, hcall, String.append_assoc]
  exact raised_calm hread (by decide) (calls_javaCall hm hf)

/-- What becomes of the number that comes back. -/
theorem raised_outcome (hm : m.WellFormed) (hs : s.Standard) (f : Function) :
    (((f.javaMethod s).outcome s).map (·.text)).flatMap (raisedBy m.javaThrowers) =
      if f.fallible then [baseException] else ["AssertionError"] := by
  have hcheck : raisedBy m.javaThrowers (baseException ++ ".checkResult(ffiResult);") = [baseException] := by
    have hread : baseException ++ ".checkResult(ffiResult);" =
        (baseException ++ ("." ++ "checkResult")) ++ ("(" ++ "ffiResult);") := by decide
    have hcallees : calleesIn (baseException ++ ".checkResult(ffiResult);") =
        [baseException ++ ("." ++ "checkResult")] := by
      rw [hread]
      exact calleesIn_member (by decide) (by decide) (by decide)
    obtain ⟨hthrow, hreturn, _⟩ := calm_start (rfl : baseException ++ ".checkResult(ffiResult);" = _)
      (by decide)
    rw [raisedBy_calls hthrow hreturn, hcallees]
    rfl
  have hcondition : '(' ∉ ("ffiResult != " ++ (codeConstant s.ok ++ (")" ++ (" " ++ opening)))).toList := by
    have hok : '(' ∉ (codeConstant s.ok).toList := by
      rw [Setting.ok, hs.table]
      decide
    simp +decide only [String.toList_append, List.mem_append, hok, or_self, not_false_eq_true]
  have hfallible : (f.javaMethod s).fallible = f.fallible := rfl
  rw [texts_outcome, hfallible]
  split
  · rw [List.flatMap_singleton, hcheck]
  · simp only [List.flatMap_cons, List.flatMap_nil, raisedBy_throw (throwsItself_assertion _),
      raised_closing, raised_calm rfl (by decide : "if (" ∈ _) (calls_if hm hcondition)]
    rfl

/-- What the values raise that a method returns. -/
theorem raised_statement (hm : m.WellFormed) (hf : f ∈ m.functions) :
    (f.javaMethod s).returnStatement?.toList.flatMap (raisedBy m.javaThrowers) = f.decodeFaults := by
  rw [raised_returns fun text htext => returnStatement?_start (Option.mem_toList.1 htext),
    (javaComponents_returned hm hf s).1, List.flatMap_map]
  exact List.flatMap_congr fun a ha => raised_javaDecode hm (known_filled hm hf ha).type
    (known_filled hm hf ha).name

/-! ## The flow of a method -/

/-- The lines in front of the native call, for a reader of none of them. -/
theorem ignores_front {β : Type} {r : Reader β} (hr : ∀ start ∈ "byte[] " :: plainStarts, Apart r.head start)
    (hclosing : r.Ignores closing) (f : Function) (s : Setting) :
    ∀ text ∈ (f.ranged.flatMap (rangeCheck s)).map (·.text) ++ f.filled.map Function.javaRoom,
      r.Ignores text := by
  obtain ⟨hroom, hplain⟩ := List.forall_mem_cons.1 hr
  exact List.forall_mem_append.2 ⟨fun text htext => (plainLine_ranged f s text htext).ignores hplain hclosing,
    ignores_javaRooms hroom f⟩

/-- The lines of a method: those in front of its native call, this call, and what comes behind it. -/
theorem textsWithin_java_eq (f : Function) (s : Setting) : textsWithin ((f.javaMethod s).lines s) =
    ((f.ranged.flatMap (rangeCheck s)).map (·.text) ++ f.filled.map Function.javaRoom) ++
      f.javaCall :: (((f.javaMethod s).outcome s).map (·.text) ++
        ((f.javaMethod s).conclusion s).map (·.text)) := by
  rw [f.textsWithin_java, List.append_assoc]
  rfl

/-- What comes behind the native call. -/
theorem behindCall_java (hm : m.WellFormed) (hf : f ∈ m.functions) (s : Setting) :
    behindCall ((f.javaMethod s).lines s) =
      ((f.javaMethod s).outcome s).map (·.text) ++ ((f.javaMethod s).conclusion s).map (·.text) := by
  have hfront : ∀ text ∈ (f.ranged.flatMap (rangeCheck s)).map (·.text) ++ f.filled.map Function.javaRoom,
      (nativeCalls.read? text.toList).isNone = true := fun text htext =>
    Option.isNone_iff_eq_none.2 (ignores_front (by decide) (by decide) f s text htext)
  have hcall : ¬ (nativeCalls.read? f.javaCall.toList).isNone = true := by
    rw [nativeCalls_call hm hf]
    exact Bool.false_ne_true
  rw [behindCall, textsWithin_java_eq, List.dropWhile_append_of_pos hfront,
    List.dropWhile_cons_of_neg (p := fun text : String => (nativeCalls.read? text.toList).isNone) hcall]
  rfl

/-- Where nothing has to be guarded, decoding raises nothing. -/
theorem decodeFaults_eq_nil (hfallible : f.fallible = false) (hguarded : f.guarded = false) :
    f.decodeFaults = [] := by
  have hthrows : f.decodeThrows = false := by
    rw [Function.guarded, hfallible] at hguarded
    exact hguarded
  rw [Function.decodeThrows, f.deliveries_eq, List.any_map, List.any_eq_false] at hthrows
  refine List.flatMap_eq_nil_iff.2 fun a ha => if_pos ?_
  have hscalar : ¬ (!a.type.isScalar) = true := hthrows a ha
  rw [Bool.not_eq_true', Bool.not_eq_false] at hscalar
  exact hscalar

/-- Where decoding is guarded, it can fail. -/
theorem decodeFaults_ne_nil (hguarded : f.guarded = true) : refusedException ∈ f.decodeFaults := by
  rw [Function.guarded, Bool.and_eq_true, Function.decodeThrows, f.deliveries_eq, List.any_map,
    List.any_eq_true] at hguarded
  obtain ⟨a, ha, hscalar⟩ := hguarded.2
  refine List.mem_flatMap.2 ⟨a, ha, ?_⟩
  have hvalue : a.type.isScalar = false := (Bool.not_eq_true' _).mp hscalar
  rw [hvalue]
  exact List.mem_singleton_self _

/-- The flow of the end of a method: what decoding raises leaves it, or is caught and turned into an error
that nobody has to declare. -/
theorem flow_conclusion (hm : m.WellFormed) (hf : f ∈ m.functions) (hs : s.Standard) :
    flowOf (raisedBy m.javaThrowers) none (((f.javaMethod s).conclusion s).map (·.text)) =
      if f.guarded then ⟨["AssertionError"], [(refusedException, f.decodeFaults)]⟩
      else ⟨f.decodeFaults, []⟩ := by
  rw [texts_conclusion]
  split
  · have htry : tries.read? "try \x7b".toList = some () := by decide
    have hcatch : catches.read? (catching ++ (s.codes.invalidInput.exceptionName ++ " e) \x7b")).toList =
        some refusedException := by
      rw [hs.refused]
      exact read?_named rfl (by decide) (by decide)
    have hassert : raisedBy m.javaThrowers "throw new AssertionError(e);" = ["AssertionError"] :=
      raisedBy_throw (by decide)
    have hbehind : flowOf (raisedBy m.javaThrowers) none ["throw new AssertionError(e);", closing] =
        ⟨["AssertionError"], []⟩ := by
      rw [flowOf_plain (by decide), List.flatMap_cons, List.flatMap_singleton, hassert, raised_closing]
      rfl
    rw [List.cons_append, flowOf, htry, Option.elim_some,
      flowOf_tried (ignores_javaReturn (by decide) f s) hcatch, hbehind, raised_statement hm hf]
    rfl
  · rw [flowOf_plain (ignores_javaReturn (by decide) f s), raised_statement hm hf]

/-- **The flow of a method**: behind its native call, and as a whole. -/
theorem flow_java (hm : m.WellFormed) (hf : f ∈ m.functions) (hs : s.Standard) :
    flowOf (raisedBy m.javaThrowers) none (behindCall ((f.javaMethod s).lines s)) = f.javaOutcome ∧
      flowOf (raisedBy m.javaThrowers) none (textsWithin ((f.javaMethod s).lines s)) = f.javaFlow := by
  have houtcome : flowOf (raisedBy m.javaThrowers) none (((f.javaMethod s).outcome s).map (·.text) ++
      ((f.javaMethod s).conclusion s).map (·.text)) = f.javaOutcome := by
    have htry : ∀ text ∈ ((f.javaMethod s).outcome s).map (·.text), tries.Ignores text :=
      fun text htext => (plainLine_outcome _ s text htext).ignores (by decide) (by decide)
    rw [flowOf_append htry, raised_outcome hm hs,
      flow_conclusion hm hf hs]
    unfold Function.javaOutcome
    cases hfallible : f.fallible with
    | true =>
      -- Where a failure is reported anyway, nothing is caught: decoding leaves the method as well.
      have hguarded : f.guarded = false := by rw [Function.guarded, hfallible]; rfl
      rw [hguarded]
      rfl
    | false =>
      cases hguarded : f.guarded with
      | true => rfl
      | false =>
        rw [decodeFaults_eq_nil hfallible hguarded]
        rfl
  refine ⟨?_, ?_⟩
  · rw [behindCall_java hm hf, houtcome]
  · have hcall : tries.Ignores f.javaCall := ignores_javaCall (by decide) f
    have hfront : ∀ text ∈ ((f.ranged.flatMap (rangeCheck s)).map (·.text) ++
        f.filled.map Function.javaRoom) ++ [f.javaCall], tries.Ignores text :=
      List.forall_mem_append.2 ⟨ignores_front (by decide) (by decide) f s,
        List.forall_mem_singleton.2 hcall⟩
    rw [textsWithin_java_eq, ← List.singleton_append, ← List.append_assoc, flowOf_append hfront,
      houtcome, List.flatMap_append, List.flatMap_append, raised_ranged hm hf hs, raised_rooms hm hf,
      List.flatMap_singleton, raised_javaCall hm hf, List.append_nil, List.append_nil]
    rfl

namespace Function

/-- What a method declares to throw. -/
def javaDeclared (f : Function) : List String :=
  if f.fallible then [baseException] else if f.ranged = [] then [] else [refusedException]

theorem javaMethod_throws (f : Function) (hs : s.Standard) :
    (f.javaMethod s).throws.toList = f.javaDeclared := by
  show (if f.fallible then some baseException else if f.ranged.isEmpty then none
    else some s.codes.invalidInput.exceptionName).toList = _
  rw [hs.refused]
  unfold javaDeclared
  cases f.fallible <;> cases f.ranged <;> rfl

end Function

/-- What a method declares is read off its head. -/
theorem declaredThrows_java (hm : m.WellFormed) (hf : f ∈ m.functions) (hs : s.Standard) :
    declaredThrows ((f.javaMethod s).lines s) = f.javaDeclared := by
  have hreturns := wordy_javaReturns hm hf
  have hname := wordy_of_plain (hm.named hf).name
  have hfront : '(' ∉ ("public static " ++ f.javaReturns ++ " ").toList := by
    have hfree : '(' ∉ f.javaReturns.toList := hreturns.notMem (by decide)
    simp +decide only [String.toList_append, List.mem_append, hfree, or_self, not_false_eq_true]
  have hexceptions : ∀ x ∈ f.javaDeclared, Wordy x.toList := by
    unfold Function.javaDeclared
    split
    · exact List.forall_mem_singleton.2 (by decide)
    · split
      · exact List.forall_mem_nil _
      · exact List.forall_mem_singleton.2 (by decide)
  rw [← f.javaMethod_throws hs] at hexceptions ⊢
  rw [declaredThrows, head_java, JavaMethod.throwsClause]
  generalize commas (f.inputs.map fun p => p.type.javaValue ++ (" " ++ p.name)) = params
  cases hthrows : (f.javaMethod s).throws with
  | none =>
    have hread : "public static " ++ f.javaReturns ++ " " ++ f.name ++ (inParens params ++
        (((none : Option String).map fun x => " throws " ++ x).getD "" ++ " " ++ opening)) =
        ("public static " ++ f.javaReturns ++ " " ++ f.name ++ ("(" ++ params)) ++ ") \x7b" := by
      have hclose : ")" ++ (" " ++ opening) = ") \x7b" := by decide
      show _ ++ (("(" ++ params ++ ")") ++ ("" ++ " " ++ opening)) = _
      simp only [String.append_assoc, String.empty_append, hclose]
    rw [thrower?_eq_none hread]
    rfl
  | some exception =>
    have hread : "public static " ++ f.javaReturns ++ " " ++ f.name ++ (inParens params ++
        (((some exception).map fun x => " throws " ++ x).getD "" ++ " " ++ opening)) =
        ("public static " ++ f.javaReturns ++ " ") ++ (f.name ++ ("(" ++ (params ++ (") throws " ++
          (exception ++ " \x7b"))))) := by
      have hclose : " " ++ opening = " \x7b" := by decide
      have hmark : ") throws " = ")" ++ " throws " := by decide
      show _ ++ (("(" ++ params ++ ")") ++ ((" throws " ++ exception) ++ " " ++ opening)) = _
      rw [hmark]
      simp only [String.append_assoc, hclose]
    rw [hthrows] at hexceptions
    rw [thrower?_throws hread hfront (stops_reverse (getLast?_toList_append _ rfl) (by decide)) hname
      (hexceptions exception (List.mem_singleton_self _))]
    rfl

end

/-! ## Methods -/

/-- The exceptions of the bindings, each with the one that it extends. -/
def javaHierarchy : List (String × String) :=
  [(baseException, "Exception"), (refusedException, baseException),
    ("VerificationFailedException", baseException)]

/-- An error that is none of the exceptions of the bindings does not have to be declared. -/
theorem not_checked_assertion : ¬ MustHandle javaHierarchy "AssertionError" := by
  intro h
  rcases h.eq_or_extends with h | ⟨y, hy⟩
  · exact absurd h (by decide)
  · simp [javaHierarchy, baseException, refusedException] at hy

theorem isA_base : IsA javaHierarchy refusedException baseException :=
  .of_mem (by simp [javaHierarchy])

/-- `MethodHandles m f ls` — of what the lines of a method can raise, checked exceptions are declared or
caught, and there is something to catch wherever something is caught; and behind the native call a method
of a function that cannot fail lets out no checked exception at all. -/
structure MethodHandles (m : Model) (f : Function) (ls : List Line) : Prop where
  declared : declaredThrows ls = f.javaDeclared
  flow : flowOf (raisedBy m.javaThrowers) none (textsWithin ls) = f.javaFlow
  handled : Handled javaHierarchy (declaredThrows ls)
    (flowOf (raisedBy m.javaThrowers) none (textsWithin ls))
  infallible : f.fallible = false → baseException ∉ declaredThrows ls ∧
    ∀ x ∈ (flowOf (raisedBy m.javaThrowers) none (behindCall ls)).leaves, ¬ MustHandle javaHierarchy x

section

variable {m : Model} {f : Function} {s : Setting}

theorem mem_decodeFaults {x : String} (h : x ∈ f.decodeFaults) : x = refusedException := by
  obtain ⟨a, _, hx⟩ := List.mem_flatMap.1 h
  split at hx
  · exact absurd hx (List.not_mem_nil)
  · exact List.mem_singleton.1 hx

/-- Where a function cannot fail, nothing that leaves behind the native call has to be declared. -/
theorem javaOutcome_unchecked (hfallible : f.fallible = false) :
    ∀ x ∈ f.javaOutcome.leaves, ¬ MustHandle javaHierarchy x := by
  intro x hx
  have hassert : x = "AssertionError" := by
    rw [Function.javaOutcome, hfallible] at hx
    rcases List.mem_cons.1 hx with rfl | hx
    · rfl
    · split at hx
      · exact List.mem_singleton.1 hx
      · exact absurd hx List.not_mem_nil
  exact hassert ▸ not_checked_assertion

/-- What leaves a method and is caught in it, is declared or caught for a reason. -/
theorem handled_javaFlow (f : Function) : Handled javaHierarchy f.javaDeclared f.javaFlow := by
  have hrefused : ∀ x ∈ f.decodeFaults, x = refusedException := fun x hx => mem_decodeFaults hx
  constructor
  case leaves =>
    intro x hx hchecked
    unfold Function.javaDeclared
    rcases List.mem_append.1 hx with hx | hx
    · -- A number out of range: what is declared, is the exception for it or one above it.
      obtain ⟨_, hranged, rfl⟩ := List.mem_map.1 hx
      cases f.fallible with
      | true => exact ⟨baseException, List.mem_singleton_self _, isA_base⟩
      | false =>
        rw [if_neg Bool.false_ne_true, if_neg (List.ne_nil_of_mem hranged)]
        exact ⟨refusedException, List.mem_singleton_self _, .same _⟩
    · cases hfallible : f.fallible with
      | true =>
        refine ⟨baseException, List.mem_singleton_self _, ?_⟩
        rw [Function.javaOutcome, hfallible] at hx
        rcases List.mem_cons.1 hx with rfl | hx
        · exact .same _
        · exact hrefused x hx ▸ isA_base
      | false => exact absurd hchecked (javaOutcome_unchecked hfallible x hx)
  case caught =>
    intro c hc x hx _
    show IsA _ _ _ ∨ _
    unfold Function.javaFlow Function.javaOutcome at hc
    dsimp only at hc
    split at hc
    · obtain rfl := List.mem_singleton.1 hc
      exact Or.inl (hrefused x hx ▸ .same _)
    · exact absurd hc List.not_mem_nil
  case useful =>
    intro c hc
    unfold Function.javaFlow Function.javaOutcome at hc
    dsimp only at hc
    split at hc
    · rename_i hguarded
      obtain rfl := List.mem_singleton.1 hc
      exact ⟨refusedException, decodeFaults_ne_nil hguarded, .same _⟩
    · exact absurd hc List.not_mem_nil

theorem methodHandles (hm : m.WellFormed) (hf : f ∈ m.functions) (hs : s.Standard) :
    MethodHandles m f ((f.javaMethod s).lines s) := by
  obtain ⟨hbehind, hflow⟩ := flow_java hm hf hs
  have hdeclared := declaredThrows_java hm hf hs
  constructor
  case declared => exact hdeclared
  case flow => exact hflow
  case handled =>
    rw [hdeclared, hflow]
    exact handled_javaFlow f
  case infallible =>
    intro hfallible
    rw [hbehind, hdeclared, Function.javaDeclared, hfallible, if_neg Bool.false_ne_true]
    refine ⟨?_, javaOutcome_unchecked hfallible⟩
    split
    · exact List.not_mem_nil
    · decide

end

/-! ## The wrappers of a description -/

/-- `HandlesExceptions s m units` — beside the wrappers stand classes that say which exceptions there are
and who throws them, and what a method lets out of all this it declares; the objects of several values are
made without any. -/
structure HandlesExceptions (s : Setting) (m : Model) (units : List JavaUnit) : Prop where
  hierarchy : hierarchyOf units = javaHierarchy
  throwers : throwersOf units = m.javaThrowers
  distinct : (m.javaThrowers.map Prod.fst).Nodup
  methods : ∀ f ∈ m.functions, MethodHandles m f ((f.javaMethod s).lines s)
  holders : ∀ f ∈ m.functions,
    throwersIn f.resultClass (resultClassLines f.resultClass f.resultFields) = []

section

variable {m : Model} {f : Function} {s : Setting}

/-- An object of several values is made without an exception. -/
theorem throwersIn_resultClass (f : Function) :
    throwersIn f.resultClass (resultClassLines f.resultClass f.resultFields) = [] := by
  have hfields : (f.resultFields.map fun x => fieldHead ++ (x.1 ++ (" " ++ (x.2 ++ ";")))).filterMap
      thrower? = [] := by
    refine silent_statements (List.forall_mem_map.2 fun x _ => ⟨fieldHead ++ (x.1 ++ (" " ++ x.2)), ?_⟩)
    simp only [String.append_assoc]
  have hmake : thrower? (f.resultClass ++ ("(" ++ (commas (f.resultFields.map fun x =>
      x.1 ++ (" " ++ x.2)) ++ (") " ++ opening)))) = none := by
    have hclose : ") " ++ opening = ") \x7b" := by decide
    rw [hclose, ← String.append_assoc, ← String.append_assoc]
    exact thrower?_eq_none rfl
  have hempty : thrower? "" = none := by decide
  have hclosing : thrower? closing = none := by decide
  rw [throwersIn, textsAt_resultClass, List.filterMap_append, hfields]
  simp only [List.filterMap_cons, hempty, hmake, hclosing, List.filterMap_nil, List.nil_append,
    List.map_nil]

theorem handlesExceptions (hm : m.WellFormed) (hs : s.Standard) (library : FileText) :
    HandlesExceptions s m (supportUnits s m library) := by
  constructor
  case hierarchy => exact hierarchyOf_supportUnits hs
  case throwers => exact throwersOf_supportUnits hm hs
  case distinct => exact nodup_javaThrowers hm
  case methods => exact fun f hf => methodHandles hm hf hs
  case holders => exact fun f _ => throwersIn_resultClass f

end

/-- **No checked exception is forgotten**, whatever the API: on the Java side of an accepted description,
with the standard table, every method declares or catches what its lines can raise, as told by the classes
that are generated beside it. -/
theorem exceptions_handled {es : List (Value × Value)} {m : Model} {o : Options} {jvm : List File}
    (hm : Model.ofDescription es = .ok m) (hjvm : Target.jvm.emit m o .standard = .ok jvm) :
    ∃ (s : Setting) (library : FileText), s.For o .standard ∧
      (∃ files, jvm = glueFile s m :: files ∧
        List.Forall₂ (JavaUnit.Written s)
          (supportUnits s m library ++ m.modules.map (moduleUnit s m)) files) ∧
      (∀ module ∈ m.modules, ∀ f ∈ module.functions,
        indent ((f.javaMethod s).lines s) <:+: (moduleUnit s m module).lines) ∧
      HandlesExceptions s m (supportUnits s m library) := by
  obtain ⟨s, hs, library, hlibrary, rfl⟩ := emit_jvm_library hjvm
  have hw : m.WellFormed := (ofDescription_eq_ok.1 hm).2
  rw [← hs.options] at hlibrary
  exact ⟨s, library, hs, written_javaUnits hw hs.standard hlibrary,
    fun module _ f hf => javaMethod_infix hf, handlesExceptions hw hs.standard library⟩

theorem exceptions_handled_alarm : ∃ m s library, Model.ofDescription alarmEntries = .ok m ∧
    m.javaThrowers = [("ZkGroupException.checkResult", "ZkGroupException"),
      ("ByteArray", "InvalidInputException"), ("Clock", "InvalidInputException"),
      ("Sound.fromValue", "InvalidInputException")] ∧
    (m.functions.map fun f => (f.javaDeclared, f.javaFlow)) = [(["InvalidInputException"],
      ⟨["InvalidInputException", "AssertionError", "AssertionError"],
        [("InvalidInputException", ["InvalidInputException"])]⟩)] ∧
    HandlesExceptions s m (supportUnits s m library) := by
  obtain ⟨jvm, hjvm⟩ : ∃ fs, Target.jvm.emit alarmModel .standard .standard = .ok fs :=
    exists_eq_ok (by decide +kernel)
  obtain ⟨s, library, _, _, _, hhandles⟩ := exceptions_handled ofDescription_alarm hjvm
  exact ⟨_, s, library, ofDescription_alarm, by decide +kernel, by decide +kernel, hhandles⟩

end Bindery
