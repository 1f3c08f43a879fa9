/-
  WORD BOUNDARIES: the snake case of a name, told position by position.

  The words of a name are cut by two rules, and each of them runs over the whole name as a global
  substitution: the leftmost match is taken, an underscore goes between its two groups, and the
  search goes on behind the match, so that no character is in two matches.  The first rule takes a
  run of capitals as long as it is and gives capitals back until a capital and a small letter
  follow.  `substitute` is that search, with the rule as an argument.

  The matching hides nothing: a match that is given back has only one way to end
  (`runRule_eq_some`), and what a match uses up cannot start another one.  So the two substitutions
  are the two passes over neighbours (`substitute_runRule`, `substitute_humpRule`), these are one
  pass (`splitHumps_splitRuns`), and that pass puts underscores in front of the positions where
  `StartsWordAt` holds and nowhere else (`marked_eq_barsFrom`).
-/
import Bindery.Proofs.Text.Words

namespace Bindery.Naming

/-! ## Substituting match after match -/

/-- A rule finds two groups at the start of a text, told by their lengths. -/
abbrev Rule : Type := List Char → Option (Nat × Nat)

/-- Puts an underscore between the groups of each match, from the left; the search goes on behind a
match, and a character where none starts is kept. -/
def substitute (rule : Rule) : List Char → List Char
  | [] => []
  | c :: s =>
    match rule (c :: s) with
    | none => c :: substitute rule s
    | some (m, n) =>
      (c :: s).take m ++ '_' :: ((c :: s).drop m).take n ++ substitute rule (s.drop (m + n - 1))
termination_by s => s.length
decreasing_by all_goals simp [List.length_drop]; try omega

/-- Whether a capital and a small letter come first. -/
def capitalised : List Char → Bool
  | b :: c :: _ => b.isUpper && c.isLower
  | _ => false

/-- Capitals, and then a capital with a small letter: the longest run is tried first, and then one
capital less at a time, down to a single one. -/
def runRule : Rule := fun s =>
  let longest := (s.takeWhile Char.isUpper).length
  ((List.range' 1 longest).reverse.find? fun k => capitalised (s.drop k)).map (·, 2)

/-- A small letter or a digit, and then a capital. -/
def humpRule : Rule
  | a :: b :: _ => if (a.isLower || a.isDigit) && b.isUpper then some (1, 1) else none
  | _ => none

section

variable {a b c : Char} {s t run : List Char} {m n : Nat}

/-! ## Matches -/

theorem capitalised_eq_true (h : capitalised s = true) :
    ∃ b c t, s = b :: c :: t ∧ b.isUpper = true ∧ c.isLower = true := by
  match s, h with
  | b :: c :: t, h => exact ⟨b, c, t, rfl, (Bool.and_eq_true _ _).mp h⟩

/-- The characters that a run may take are capitals. -/
theorem isUpper_of_mem_take (h : m ≤ (s.takeWhile Char.isUpper).length) :
    ∀ a ∈ s.take m, a.isUpper = true := by
  have hsame : s.take m = (s.takeWhile Char.isUpper).take m := by
    conv_lhs => rw [← List.takeWhile_append_dropWhile (p := Char.isUpper) (l := s)]
    exact List.take_append_of_le_length h
  rw [hsame]
  exact fun a ha => List.mem_takeWhile_imp (List.mem_of_mem_take ha)

/-- A match of the first rule is a run of capitals, a capital and a small letter. -/
theorem runRule_eq_some (h : runRule s = some (m, n)) :
    ∃ run b c t, s = run ++ b :: c :: t ∧ run.length = m ∧ n = 2 ∧ run ≠ [] ∧
      (∀ a ∈ run, a.isUpper = true) ∧ b.isUpper = true ∧ c.isLower = true := by
  obtain ⟨k, hk, hmn⟩ := Option.map_eq_some_iff.1 h
  obtain ⟨rfl, rfl⟩ := Prod.mk.inj hmn
  obtain ⟨hone, hlongest⟩ := List.mem_range'_1.1 (List.mem_reverse.1 (List.mem_of_find?_eq_some hk))
  have hcap : capitalised (s.drop k) = true :=
    List.find?_some (p := fun k => capitalised (s.drop k)) hk
  obtain ⟨b, c, t, hdrop, hb, hc⟩ := capitalised_eq_true hcap
  have hlength : (s.takeWhile Char.isUpper).length ≤ s.length :=
    (List.takeWhile_prefix Char.isUpper).length_le
  have htake : (s.take k).length = k := by
    rw [List.length_take]
    omega
  refine ⟨s.take k, b, c, t, ?_, htake, rfl, ?_, isUpper_of_mem_take (by omega), hb, hc⟩
  · rw [← hdrop, List.take_append_drop]
  · intro hnil
    rw [hnil, List.length_nil] at htake
    omega

/-- Where the first rule finds nothing, a capital is not followed by another and a small letter. -/
theorem runRule_eq_none (h : runRule (a :: s) = none) (ha : a.isUpper = true) :
    capitalised s = false := by
  rw [runRule, Option.map_eq_none_iff, List.find?_eq_none] at h
  have hone : 1 ∈ (List.range' 1 ((a :: s).takeWhile Char.isUpper).length).reverse := by
    rw [List.mem_reverse, List.mem_range'_1, List.takeWhile_cons, if_pos ha, List.length_cons]
    omega
  exact Bool.eq_false_iff.2 (h 1 hone)

/-- A match of the second rule is a small letter or digit and a capital. -/
theorem humpRule_eq_some (h : humpRule s = some (m, n)) :
    ∃ a b t, s = a :: b :: t ∧ m = 1 ∧ n = 1 ∧ (a.isLower || a.isDigit) = true ∧
      b.isUpper = true := by
  match s, h with
  | a :: b :: t, h =>
    rw [humpRule] at h
    by_cases hab : ((a.isLower || a.isDigit) && b.isUpper) = true
    · rw [if_pos hab] at h
      cases h
      exact ⟨a, b, t, rfl, rfl, rfl, (Bool.and_eq_true _ _).mp hab⟩
    · rw [if_neg hab] at h
      nomatch h

/-! ## The substitutions are passes over neighbours -/

theorem splitRuns_cons_of_not (h : (a.isUpper && capitalised s) = false) :
    splitRuns (a :: s) = a :: splitRuns s := by
  match s with
  | [] => rfl
  | [b] => rfl
  | b :: c :: s =>
    rw [splitRuns, if_neg]
    rw [Bool.and_assoc]
    exact Bool.eq_false_iff.1 h

/-- A run gets no underscore inside, for no small letter is in it, and one at its end. -/
theorem splitRuns_append (hrun : ∀ a ∈ run, a.isUpper = true) (hne : run ≠ [])
    (hb : b.isUpper = true) (hc : c.isLower = true) :
    splitRuns (run ++ b :: c :: t) = run ++ '_' :: b :: c :: splitRuns t := by
  have hsmall : c.isUpper = false := Bool.eq_false_iff.2 (Char.not_isUpper_of_isLower hc)
  have hpair : splitRuns (b :: c :: t) = b :: c :: splitRuns t := by
    rw [splitRuns_cons_of_not, splitRuns_cons_of_not]
    · rw [hsmall, Bool.false_and]
    · cases t <;> simp [capitalised, hsmall]
  induction run with
  | nil => exact absurd rfl hne
  | cons a run ih =>
    obtain ⟨ha, hrun⟩ := List.forall_mem_cons.1 hrun
    cases run with
    | nil =>
      rw [List.singleton_append, splitRuns, if_pos (by simp [ha, hb, hc]), hpair]
      rfl
    | cons d run =>
      have hd : capitalised (d :: run ++ b :: c :: t) = false := by
        cases run with
        | nil => simp [capitalised, Char.not_isLower_of_isUpper hb]
        | cons e run =>
          have he : e.isUpper = true := hrun e (List.mem_cons_of_mem _ List.mem_cons_self)
          simp [capitalised, Char.not_isLower_of_isUpper he]
      rw [List.cons_append, splitRuns_cons_of_not (by rw [hd, Bool.and_false]),
        ih hrun (List.cons_ne_nil _ _)]
      rfl

/-- **The first substitution**, with its longest runs and what they give back, is the first pass. -/
theorem substitute_runRule (s : List Char) : substitute runRule s = splitRuns s := by
  fun_induction substitute runRule s with
  | case1 => rfl
  | case2 a s hnone ih =>
    have hapart : (a.isUpper && capitalised s) = false := by
      by_cases ha : a.isUpper = true
      · rw [runRule_eq_none hnone ha, Bool.and_false]
      · rw [Bool.eq_false_iff.2 ha, Bool.false_and]
    rw [ih, splitRuns_cons_of_not hapart]
  | case3 a s m n hsome ih =>
    obtain ⟨run, b, c, t, hs, rfl, rfl, hne, hrun, hb, hc⟩ := runRule_eq_some hsome
    have hrest : s.drop (run.length + 2 - 1) = t := by
      have hdrop : (a :: s).drop (run.length + 2) = t := by
        rw [hs, List.drop_append]
        simp
      exact hdrop
    rw [ih, hrest, hs, List.take_left, List.drop_left, splitRuns_append hrun hne hb hc]
    simp

/-- **The second substitution** is the second pass: a capital that is used up starts no match. -/
theorem substitute_humpRule (s : List Char) : substitute humpRule s = splitHumps s := by
  fun_induction substitute humpRule s with
  | case1 => rfl
  | case2 a s hnone ih =>
    cases s with
    | nil =>
      rw [ih]
      rfl
    | cons b s =>
      have hab : ¬ ((a.isLower || a.isDigit) && b.isUpper) = true := fun h => by
        rw [humpRule, if_pos h] at hnone
        nomatch hnone
      rw [ih, splitHumps, if_neg hab]
  | case3 a s m n hsome ih =>
    obtain ⟨_, b, t, hs, rfl, rfl, ha, hb⟩ := humpRule_eq_some hsome
    obtain ⟨rfl, rfl⟩ := List.cons.inj hs
    have hcapital : splitHumps (b :: t) = b :: splitHumps t := by
      cases t with
      | nil => rfl
      | cons d t =>
        rw [splitHumps, if_neg]
        exact fun h => not_isUpper_of_hump ((Bool.and_eq_true _ _).mp h).1 hb
    rw [splitHumps, if_pos (by rw [ha, hb]; rfl), hcapital]
    rw [show (b :: t).drop (1 + 1 - 1) = t from rfl] at ih
    exact congrArg (fun l => a :: '_' :: b :: l) ih

/-! ## Position by position -/

/-- Whether the character at a position is one of these. -/
def AnyAt (p : Char → Bool) (s : List Char) (i : Nat) : Prop := (s[i]?).any p = true

instance {p : Char → Bool} {i : Nat} : Decidable (AnyAt p s i) :=
  inferInstanceAs (Decidable (_ = _))

/-- A capital behind a small letter or a digit, or behind a capital where a small letter comes
next; what comes first starts no further word. -/
def StartsWordAt (s : List Char) (i : Nat) : Prop :=
  0 < i ∧ AnyAt Char.isUpper s i ∧
    (AnyAt Char.isLower s (i - 1) ∨ AnyAt Char.isDigit s (i - 1) ∨
      AnyAt Char.isUpper s (i - 1) ∧ AnyAt Char.isLower s (i + 1))

instance {i : Nat} : Decidable (StartsWordAt s i) := inferInstanceAs (Decidable (_ ∧ _))

/-- A text with an underscore in front of the characters at these positions, the first of which is
`n`. -/
def barsFrom (n : Nat) (p : Nat → Prop) [DecidablePred p] (s : List Char) : List Char :=
  (s.zipIdx n).flatMap fun x => if p x.2 then ['_', x.1] else [x.1]

theorem barsFrom_cons (n : Nat) (p : Nat → Prop) [DecidablePred p] (c : Char) (s : List Char) :
    barsFrom n p (c :: s) =
      if p n then '_' :: c :: barsFrom (n + 1) p s else c :: barsFrom (n + 1) p s := by
  unfold barsFrom
  rw [List.zipIdx_cons, List.flatMap_cons]
  split <;> rfl

/-- What is told from the character in front and those behind is told from the position. -/
theorem startsWord_iff (front s : List Char) (c : Char) :
    startsWord front.getLast? c s = true ↔ StartsWordAt (front ++ c :: s) front.length := by
  unfold StartsWordAt AnyAt
  have hhere : (front ++ c :: s)[front.length]? = some c := by simp
  have hnext : (front ++ c :: s)[front.length + 1]? = s.head? := by
    rw [List.getElem?_append_right (Nat.le_succ _)]
    simp [List.head?_eq_getElem?]
  rw [hhere, hnext]
  cases front using List.reverseRecOn with
  | nil =>
    rw [List.getLast?_nil, startsWord, Option.any_none, Bool.and_false]
    simp
  | append_singleton front b =>
    have hprev : (front ++ [b] ++ c :: s)[(front ++ [b]).length - 1]? = some b := by simp
    rw [hprev, List.getLast?_concat, startsWord]
    simp only [Option.any_some, Bool.and_eq_true, Bool.or_eq_true, List.length_append,
      List.length_singleton, Nat.zero_lt_succ, true_and, or_assoc]

theorem marked_append (front s : List Char) :
    marked front.getLast? s = barsFrom front.length (StartsWordAt (front ++ s)) s := by
  induction s generalizing front with
  | nil => rfl
  | cons c s ih =>
    have hrest := ih (front ++ [c])
    rw [List.getLast?_concat, List.length_append, List.length_singleton, List.append_assoc,
      List.singleton_append] at hrest
    rw [marked, barsFrom_cons, hrest]
    simp only [startsWord_iff]

/-- One pass puts underscores at these positions. -/
theorem marked_eq_barsFrom (s : List Char) : marked none s = barsFrom 0 (StartsWordAt s) s :=
  marked_append [] s

theorem map_toLower_barsFrom (n : Nat) (p : Nat → Prop) [DecidablePred p] (s : List Char) :
    (barsFrom n p s).map Char.toLower = barsFrom n p (s.map Char.toLower) := by
  have hbar : '_'.toLower = '_' := by decide
  induction s generalizing n with
  | nil => rfl
  | cons c s ih =>
    rw [List.map_cons, barsFrom_cons, barsFrom_cons, ← ih]
    split
    · rw [List.map_cons, List.map_cons, hbar]
    · rw [List.map_cons]

/-! ## What underscores part -/

/-- `Parted s` — underscores stand between other characters only, one at a time. -/
structure Parted (s : List Char) : Prop where
  head : s.head? ≠ some '_'
  last : s.getLast? ≠ some '_'
  single : ¬ ['_', '_'] <:+: s

theorem Parted.nil : Parted [] := by
  constructor <;> decide

theorem Parted.cons (hc : c ≠ '_') (h : Parted s ∨ ∃ t, s = '_' :: t ∧ t ≠ [] ∧ Parted t) :
    Parted (c :: s) := by
  have hfirst : (c :: s).head? ≠ some '_' := fun h => hc (Option.some.inj h)
  have hpair : ¬ ['_', '_'] <+: c :: s := fun h => hc (List.cons_prefix_cons.1 h).1.symm
  obtain h | ⟨t, rfl, hne, h⟩ := h
  · refine ⟨hfirst, ?_, fun hin => (List.infix_cons_iff.1 hin).elim hpair h.single⟩
    rw [List.getLast?_cons]
    cases hlast : s.getLast? with
    | none => exact fun h => hc (Option.some.inj h)
    | some d =>
      have hd := h.last
      rw [hlast] at hd
      exact hd
  · have hbar : ¬ ['_', '_'] <+: '_' :: t := by
      intro h'
      obtain ⟨-, h'⟩ := List.cons_prefix_cons.1 h'
      obtain ⟨u, rfl⟩ := h'
      exact h.head rfl
    refine ⟨hfirst, ?_, fun hin => (List.infix_cons_iff.1 hin).elim hpair fun hin =>
      (List.infix_cons_iff.1 hin).elim hbar h.single⟩
    obtain ⟨d, u, rfl⟩ := List.exists_cons_of_ne_nil hne
    exact h.last

/-- Behind a first character, underscores at any positions part the characters. -/
theorem parted_cons_barsFrom {p : Nat → Prop} [DecidablePred p] (hc : c ≠ '_') (hs : '_' ∉ s) :
    Parted (c :: barsFrom n p s) := by
  induction s generalizing n c with
  | nil => exact .cons hc (Or.inl .nil)
  | cons d s ih =>
    rw [List.mem_cons, not_or] at hs
    have hrest : Parted (d :: barsFrom (n + 1) p s) := ih (Ne.symm hs.1) hs.2
    rw [barsFrom_cons]
    split
    · exact .cons hc (Or.inr ⟨_, rfl, List.cons_ne_nil _ _, hrest⟩)
    · exact .cons hc (Or.inl hrest)

theorem parted_barsFrom {p : Nat → Prop} [DecidablePred p] (hs : '_' ∉ s) (hn : ¬ p n) :
    Parted (barsFrom n p s) := by
  cases s with
  | nil => exact .nil
  | cons c s =>
    rw [List.mem_cons, not_or] at hs
    rw [barsFrom_cons, if_neg hn]
    exact parted_cons_barsFrom (Ne.symm hs.1) hs.2

/-- Without capitals no word starts. -/
theorem marked_of_no_upper (before : Option Char) (h : ∀ c ∈ s, c.isUpper = false) :
    marked before s = s := by
  induction s generalizing before with
  | nil => rfl
  | cons c s ih =>
    obtain ⟨hc, hs⟩ := List.forall_mem_cons.1 h
    rw [marked, startsWord, hc, Bool.false_and, ih _ hs]
    rfl

end

/-! ## Snake case -/

section

variable {name other : String}

/-- Snake case is lower case with underscores at the boundaries. -/
theorem snakeCase_eq_barsFrom (h : Plain name.toList) :
    (snakeCase name).toList = barsFrom 0 (StartsWordAt name.toList) (lower name).toList := by
  rw [snakeCase_toList h, wordsOf, splitHumps_splitRuns, marked_eq_barsFrom, map_toLower_barsFrom,
    lower_toList h]

theorem snakeCase_eq_substitute (name : String) :
    snakeCase name =
      lower (String.ofList (substitute humpRule (substitute runRule name.toList))) := by
  rw [substitute_humpRule, substitute_runRule, snakeCase, lower, String.toList_ofList]

theorem notMem_lower (h : Plain name.toList) : '_' ∉ (lower name).toList := by
  rw [lower_toList h]
  intro hm
  obtain ⟨c, hc, hbar⟩ := List.mem_map.1 hm
  exact h.ne_bar c hc (toLower_eq_bar.1 hbar)

/-- A name in snake case is in snake case already. -/
theorem snakeCase_snakeCase (h : Plain name.toList) :
    snakeCase (snakeCase name) = snakeCase name := by
  have hlow : ∀ c ∈ (snakeCase name).toList, c.isUpper = false ∧ c.toNat < 0x80 := by
    rw [snakeCase_toList h]
    intro c hc
    obtain ⟨d, hd, rfl⟩ := List.mem_map.1 hc
    exact ⟨Char.isUpper_toLower_eq_false d, toNat_toLower_lt (wordsOf_ascii h d hd)⟩
  have hsame : (snakeCase name).toList.map Char.toLower = (snakeCase name).toList := by
    refine (List.map_congr_left fun c hc => ?_).trans (List.map_id _)
    exact Char.toLower_eq_of_not_isUpper (Bool.eq_false_iff.1 (hlow c hc).1)
  rw [snakeCase, splitHumps_splitRuns, marked_of_no_upper none fun c hc => (hlow c hc).1,
    Text.lower_of_ascii fun c hc => (hlow c hc).2, hsame, String.ofList_toList]

/-- **Snake case is the one-pass rule.**  Two global substitutions, each with its longest matches
and without overlaps, put underscores at the boundaries of words and nowhere else.  So without its
underscores a name in snake case is the name in lower case, underscores stand between other
characters and one at a time, snake case is its own snake case, and names of equal constants are
equal in lower case. -/
theorem snakeCase_one_pass (h : Plain name.toList) :
    snakeCase name =
        lower (String.ofList (substitute humpRule (substitute runRule name.toList))) ∧
      (snakeCase name).toList = barsFrom 0 (StartsWordAt name.toList) (lower name).toList ∧
      dropBars (snakeCase name).toList = (lower name).toList ∧
      Parted (snakeCase name).toList ∧
      snakeCase (snakeCase name) = snakeCase name ∧
      ∀ other : String, Plain other.toList → stem name = stem other → lower name = lower other := by
  refine ⟨snakeCase_eq_substitute name, snakeCase_eq_barsFrom h, ?_, ?_, snakeCase_snakeCase h,
    fun other hother => lower_eq_of_stem_eq h hother⟩
  · rw [snakeCase_toList h, dropBars_map_toLower, dropBars_wordsOf h, lower_toList h]
  · rw [snakeCase_eq_barsFrom h]
    exact parted_barsFrom (notMem_lower h) fun hstart => Nat.lt_irrefl 0 hstart.1

/-- A run of capitals that ends in a word, a digit, and a run at the end. -/
theorem snakeCase_one_pass_run :
    Plain "myHTTPKey2ID".toList ∧
      (snakeCase "myHTTPKey2ID").toList = "my_http_key2_id".toList ∧
      snakeCase "my_http_key2_id" = "my_http_key2_id" := by
  have hplain : Plain "myHTTPKey2ID".toList :=
    List.all_eq_true.1 (by decide +kernel : "myHTTPKey2ID".toList.all Char.isAlphanum = true)
  have hsnake : (snakeCase "myHTTPKey2ID").toList = "my_http_key2_id".toList :=
    (snakeCase_one_pass hplain).2.1.trans (by decide +kernel)
  have hsame := (snakeCase_one_pass hplain).2.2.2.2.1
  rw [String.toList_inj.1 hsnake] at hsame
  exact ⟨hplain, hsnake, hsame⟩

end

end Bindery.Naming
