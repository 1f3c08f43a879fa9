/-
  BODIES are read as the grammar says.

  What stands between braces is cut at its separators, and a piece is taken for what it spells and
  for nothing else: so the pieces of an enumeration are its variants (`variants_iff`) and those of a
  module its functions (`functions_iff`).  A word in front of a function is its mark exactly where
  another word follows (`function_iff`).
-/
import Mathlib.Data.List.ReduceOption
import Bindery.Proofs.Idl.Readers
import Bindery.Proofs.Outcome

namespace Bindery.Idl

open Text

variable {α β ε : Type} {s r body piece : List Char}

/-- A pass over a list succeeds with the values of its items. -/
theorem mapM_eq_ok {f : α → Except ε β} {as : List α} {bs : List β} :
    as.mapM f = .ok bs ↔ List.Forall₂ (fun a b => f a = .ok b) as bs := by
  induction as generalizing bs with
  | nil =>
    rw [List.mapM_nil, List.forall₂_nil_left_iff]
    exact ⟨fun h => (Except.ok.inj h).symm, fun h => by rw [h]; rfl⟩
  | cons a as ih =>
    rw [List.mapM_cons, bind_eq_ok, List.forall₂_cons_left_iff]
    constructor
    · rintro ⟨b, hb, h⟩
      obtain ⟨rest, hrest, h⟩ := bind_eq_ok.1 h
      cases h
      exact ⟨b, rest, hb, ih.1 hrest, rfl⟩
    · rintro ⟨b, rest, hb, hrest, rfl⟩
      exact ⟨b, hb, bind_eq_ok.2 ⟨rest, ih.2 hrest, rfl⟩⟩

theorem isOneWord_iff {w : String} : isOneWord w.toList = true ↔ IsWord w := by
  unfold isOneWord
  rw [Bool.and_eq_true, List.all_eq_true, Bool.not_eq_true', ← Bool.not_eq_true, List.isEmpty_iff]
  exact ⟨fun ⟨hne, hall⟩ => ⟨hne, hall⟩, fun h => ⟨h.ne_nil, h.chars⟩⟩

theorem IsWord.ofList {w : List Char} (h : isOneWord w = true) : IsWord (.ofList w) :=
  isOneWord_iff.1 (by rwa [String.toList_ofList])

/-! ## Enumerations -/

theorem Spells.Variant.not_mem {v : String} {c : Char} (h : Spells.Variant s v) (hc : IsMark c) :
    c ∉ s := by
  obtain ⟨hb, hw, hb'⟩ := h
  simp only [List.mem_append, not_or]
  exact ⟨⟨hc.not_mem_blank hb, hc.not_mem_word hw⟩, hc.not_mem_blank hb'⟩

theorem Spells.Variants.not_mem {vs : List String} {c : Char} (h : Spells.Variants s vs)
    (hc : IsMark c) (hcomma : c ≠ ',') : c ∉ s := by
  cases h with
  | none hb => exact hc.not_mem_blank hb
  | list h => exact h.not_mem hcomma fun _ _ h => h.not_mem hc
  | closed h hb =>
    rw [List.mem_append, List.mem_cons, not_or, not_or]
    exact ⟨h.not_mem hcomma fun _ _ h => h.not_mem hc, hcomma, hc.not_mem_blank hb⟩

theorem variant_iff {v : String} :
    (if isOneWord (trim piece) then .ok (String.ofList (trim piece))
      else .error (.badVariant (String.ofList (trim piece))) : Except Fault String) = .ok v ↔
      Spells.Variant piece v := by
  constructor
  · intro h
    split at h
    · rename_i hword
      cases h
      obtain ⟨b, b', hb, hb', hs⟩ := exists_trim piece
      have hspelled : Spells.Variant (b ++ (String.ofList (trim piece)).toList ++ b') _ :=
        .word hb (IsWord.ofList hword) hb'
      rw [String.toList_ofList, ← hs] at hspelled
      exact hspelled
    · nomatch h
  · rintro ⟨hb, hw, hb'⟩
    rw [trim_solid hb hb' hw.solid, if_pos (isOneWord_iff.2 hw), String.ofList_toList]

theorem Spells.Variant.trim_ne_nil {v : String} (h : Spells.Variant piece v) :
    trim piece ≠ [] := by
  obtain ⟨hb, hw, hb'⟩ := h
  rw [trim_solid hb hb' hw.solid]
  exact hw.ne_nil

/-- The pieces of an enumeration are all its pieces, but for a blank one at the end. -/
theorem variantPieces_open (h : ∀ piece ∈ splitOn ',' body, trim piece ≠ []) :
    variantPieces body = (splitOn ',' body).map trim := by
  have hlast : ((splitOn ',' body).map trim).getLast? ≠ some [] := by
    intro hlast
    obtain ⟨piece, hpiece, hnil⟩ := List.mem_map.1 (List.mem_of_getLast? hlast)
    exact h piece hpiece hnil
  unfold variantPieces
  dsimp only
  rw [if_neg fun heq => hlast (eq_of_beq heq)]

theorem variantPieces_closed {pieces : List (List Char)} {b : List Char} (hb : Blank b)
    (h : splitOn ',' body = pieces ++ [b]) : variantPieces body = pieces.map trim := by
  unfold variantPieces
  rw [h, List.map_append, List.map_singleton, trim_blank hb]
  dsimp only
  rw [List.getLast?_concat, if_pos (beq_self_eq_true _), List.dropLast_concat]

theorem variantPieces_blank (hb : Blank body) : variantPieces body = [] := by
  have hsplit : splitOn ',' body = [] ++ [body] :=
    splitOn_free (IsMark.not_mem_blank (by decide) hb)
  exact variantPieces_closed hb hsplit

/-- The variants of a body are those that it spells. -/
theorem variants_iff {vs : List String} : variants body = .ok vs ↔ Spells.Variants body vs := by
  have hlist : ∀ {pieces : List (List Char)}, (pieces.map trim).mapM (fun v =>
      if isOneWord v then .ok (String.ofList v) else .error (.badVariant (String.ofList v))) =
        (.ok vs : Except Fault _) ↔ List.Forall₂ Spells.Variant pieces vs := by
    intro pieces
    rw [mapM_eq_ok, List.forall₂_map_left_iff]
    exact ⟨fun h => h.imp fun _ _ => variant_iff.1, fun h => h.imp fun _ _ => variant_iff.2⟩
  have hcomma : ∀ s v, Spells.Variant s v → ',' ∉ s := fun s v h => h.not_mem (by decide)
  unfold variants
  constructor
  · intro h
    -- Only the piece behind the last comma may be blank, so the text is cut there.
    rcases free_or_concat (· == ',') body with hfree | ⟨front, c, b, rfl, hc, hb⟩
    · have hsplit : splitOn ',' body = [body] := splitWhere_free hfree
      by_cases hblank : Blank body
      · rw [variantPieces_blank hblank] at h
        cases h
        exact .none hblank
      · rw [variantPieces_open (by
          rw [hsplit]
          rintro piece hpiece
          rw [List.mem_singleton.1 hpiece]
          exact fun hnil => hblank (trim_eq_nil.1 hnil))] at h
        exact .list ((separated_iff hcomma).2 (hlist.1 h))
    · obtain rfl : c = ',' := eq_of_beq hc
      have hsplit : splitOn ',' (front ++ ',' :: b) = splitOn ',' front ++ [b] := by
        rw [splitOn_append, splitOn, splitOn, splitWhere_free hb]
      by_cases hblank : Blank b
      · rw [variantPieces_closed hblank hsplit] at h
        exact .closed ((separated_iff hcomma).2 (hlist.1 h)) hblank
      · have hlast : ((splitOn ',' (front ++ ',' :: b)).map trim).getLast? ≠ some [] := by
          rw [hsplit, List.map_append, List.map_singleton, List.getLast?_concat]
          exact fun heq => hblank (trim_eq_nil.1 (Option.some.inj heq))
        unfold variantPieces at h
        dsimp only at h
        rw [if_neg fun heq => hlast (eq_of_beq heq)] at h
        exact .list ((separated_iff hcomma).2 (hlist.1 h))
  · intro h
    cases h with
    | none hb =>
      rw [variantPieces_blank hb]
      rfl
    | list h =>
      have hall := (separated_iff hcomma).1 h
      have hwords : ∀ piece ∈ splitOn ',' body, trim piece ≠ [] :=
        ((List.forall₂_and_left _ _).1 (hall.imp fun _ _ hv => ⟨hv.trim_ne_nil, hv⟩)).1
      rw [variantPieces_open hwords]
      exact hlist.2 hall
    | closed h hb =>
      rw [variantPieces_closed hb (by
        rw [splitOn_append, splitOn_free (IsMark.not_mem_blank (c := ',') (by decide) hb)])]
      exact hlist.2 ((separated_iff hcomma).1 h)

/-! ## Parameters -/

theorem isWord_directionName (d : Direction) : IsWord (directionName d) := by
  cases d with
  | input => exact isOneWord_iff.1 (by decide)
  | output => exact isOneWord_iff.1 (by decide)

theorem directionOf?_iff {w : List Char} {d : Direction} :
    directionOf? w = some d ↔ w = (directionName d).toList := by
  unfold directionOf?
  by_cases hin : w = ['i', 'n']
  · subst hin
    cases d <;> decide
  · rw [if_neg (by simpa using hin)]
    by_cases hout : w = ['o', 'u', 't']
    · subst hout
      cases d <;> decide
    · rw [if_neg (by simpa using hout)]
      refine ⟨fun h => (nomatch h), fun h => ?_⟩
      cases d with
      | input => exact absurd h hin
      | output => exact absurd h hout

theorem Spells.Parameter.not_mem {d : ParameterDecl} {c : Char} (h : Spells.Parameter s d)
    (hc : IsMark c) : c ∉ s := by
  cases h with
  | plain hb htype hg hname hb' =>
    simp only [List.mem_append, not_or]
    exact ⟨⟨⟨⟨hc.not_mem_blank hb, hc.not_mem_word htype⟩, hc.not_mem_blank hg.2⟩,
      hc.not_mem_word hname⟩, hc.not_mem_blank hb'⟩
  | directed hb h₁ htype h₂ hname hb' =>
    simp only [List.mem_append, not_or]
    exact ⟨⟨⟨⟨⟨⟨hc.not_mem_blank hb, hc.not_mem_word (isWord_directionName _)⟩,
      hc.not_mem_blank h₁.2⟩, hc.not_mem_word htype⟩, hc.not_mem_blank h₂.2⟩,
      hc.not_mem_word hname⟩, hc.not_mem_blank hb'⟩

theorem IsWord.words {w : String} {b : List Char} (hb : Blank b) (hw : IsWord w)
    (hr : ∀ c ∈ r.head?, isBlank c = true) :
    Text.words (b ++ (w.toList ++ r)) = w.toList :: Text.words r := by
  rw [words_append hb, words_word hw.solid hw.ne_nil hr]

theorem IsWord.head {w : String} (hw : IsWord w) :
    ∀ c ∈ (w.toList ++ r).head?, isWord c = true := by
  have hne := hw.ne_nil
  have hchars := hw.chars
  intro c hc
  cases hs : w.toList with
  | nil => exact absurd hs hne
  | cons d cs =>
    rw [hs] at hc hchars
    cases hc
    exact hchars _ List.mem_cons_self

theorem Spells.Gap.head {g : List Char} (hg : Spells.Gap g) :
    ∀ c ∈ (g ++ r).head?, isBlank c = true := by
  obtain ⟨hne, hblank⟩ := hg
  intro c hc
  cases g with
  | nil => exact absurd rfl hne
  | cons d g =>
    cases hc
    exact hblank _ List.mem_cons_self

theorem head_blank {b : List Char} (hb : Blank b) : ∀ c ∈ b.head?, isBlank c = true :=
  fun c hc => hb c (List.mem_of_mem_head? hc)

/-- A word behind another one stands behind a gap. -/
theorem exists_gap {w : List Char} {ws : List (List Char)} (h : Text.words s = w :: ws)
    (hs : ∀ c ∈ s.head?, isBlank c = true) :
    ∃ g r, Spells.Gap g ∧ s = g ++ w ++ r ∧ Text.words r = ws ∧
      ∀ c ∈ r.head?, isBlank c = true := by
  obtain ⟨g, r, hg, hsolid, hne, rfl, hr, hhead⟩ := words_eq_cons h
  refine ⟨g, r, ⟨?_, hg⟩, rfl, hr, hhead⟩
  rintro rfl
  cases w with
  | nil => exact hne rfl
  | cons c w =>
    have hblank := hs c rfl
    rw [hsolid c List.mem_cons_self] at hblank
    nomatch hblank

/-- Two words are a parameter without a direction. -/
theorem spells_of_two_words {type name : List Char} (hwords : words piece = [type, name])
    (htype : isOneWord type = true) (hname : isOneWord name = true) :
    Spells.Parameter piece ⟨.ofList name, .ofList type, .input⟩ := by
  obtain ⟨b, r, hb, _, _, rfl, hr, hhead⟩ := words_eq_cons hwords
  obtain ⟨g, b', hg, rfl, hb', _⟩ := exists_gap hr hhead
  have hspelled : Spells.Parameter (b ++ (String.ofList type).toList ++ g ++
      (String.ofList name).toList ++ b') ⟨.ofList name, .ofList type, .input⟩ :=
    .plain hb (IsWord.ofList htype) hg (IsWord.ofList hname) (words_eq_nil.1 hb')
  rw [String.toList_ofList, String.toList_ofList] at hspelled
  rw [← List.append_assoc, ← List.append_assoc]
  exact hspelled

/-- Three words are one with the direction that the first of them stands for. -/
theorem spells_of_three_words {direction type name : List Char} {d : Direction}
    (hwords : words piece = [direction, type, name]) (hdirection : directionOf? direction = some d)
    (htype : isOneWord type = true) (hname : isOneWord name = true) :
    Spells.Parameter piece ⟨.ofList name, .ofList type, d⟩ := by
  obtain ⟨b, r, hb, _, _, rfl, hr, hhead⟩ := words_eq_cons hwords
  obtain ⟨g₁, r', h₁, rfl, hr', hhead'⟩ := exists_gap hr hhead
  obtain ⟨g₂, b', h₂, rfl, hb', _⟩ := exists_gap hr' hhead'
  have hspelled : Spells.Parameter (b ++ (directionName d).toList ++ g₁ ++
      (String.ofList type).toList ++ g₂ ++ (String.ofList name).toList ++ b')
      ⟨.ofList name, .ofList type, d⟩ :=
    .directed hb h₁ (IsWord.ofList htype) h₂ (IsWord.ofList hname) (words_eq_nil.1 hb')
  rw [String.toList_ofList, String.toList_ofList, ← directionOf?_iff.1 hdirection] at hspelled
  simp only [List.append_assoc] at hspelled ⊢
  exact hspelled

theorem Spells.Parameter.complete {d : ParameterDecl} (h : Spells.Parameter piece d) :
    parameter piece = .ok d := by
  cases h with
  | plain hb htype hg hname hb' =>
    rename_i b g b' type name
    have hwords : words (b ++ type.toList ++ g ++ name.toList ++ b') =
        [type.toList, name.toList] := by
      rw [List.append_assoc, List.append_assoc, List.append_assoc, htype.words hb hg.head,
        hname.words hg.2 (head_blank hb'), words_blank hb']
    unfold parameter
    rw [hwords]
    dsimp only
    rw [isOneWord_iff.2 htype, isOneWord_iff.2 hname, String.ofList_toList, String.ofList_toList]
    rfl
  | directed hb h₁ htype h₂ hname hb' =>
    rename_i b g₁ g₂ b' type name d
    have hwords : words (b ++ (directionName d).toList ++ g₁ ++ type.toList ++ g₂ ++
        name.toList ++ b') = [(directionName d).toList, type.toList, name.toList] := by
      simp only [List.append_assoc]
      rw [(isWord_directionName d).words hb h₁.head, htype.words h₁.2 h₂.head,
        hname.words h₂.2 (head_blank hb'), words_blank hb']
    unfold parameter
    rw [hwords]
    dsimp only
    rw [directionOf?_iff.2 rfl, isOneWord_iff.2 htype, isOneWord_iff.2 hname,
      String.ofList_toList, String.ofList_toList]
    rfl

/-- A parameter is taken for what it spells. -/
theorem parameter_iff {d : ParameterDecl} :
    parameter piece = .ok d ↔ Spells.Parameter piece d := by
  refine ⟨fun h => ?_, Spells.Parameter.complete⟩
  unfold parameter at h
  dsimp only at h
  split at h
  · rename_i type name hwords
    split at h
    · rename_i hform
      cases h
      obtain ⟨htype, hname⟩ := Bool.and_eq_true_iff.1 hform
      exact spells_of_two_words hwords htype hname
    · nomatch h
  · rename_i direction type name hwords
    split at h
    · rename_i d' hdirection
      split at h
      · rename_i hform
        cases h
        obtain ⟨htype, hname⟩ := Bool.and_eq_true_iff.1 hform
        exact spells_of_three_words hwords hdirection htype hname
      · nomatch h
    · nomatch h
  · nomatch h

theorem Spells.Parameters.not_mem {ps : List ParameterDecl} {c : Char}
    (h : Spells.Parameters s ps) (hc : IsMark c) (hcomma : c ≠ ',') : c ∉ s := by
  cases h with
  | none hb => exact hc.not_mem_blank hb
  | list h => exact h.not_mem hcomma fun _ _ h => h.not_mem hc

/-- A parameter list is taken for what it spells. -/
theorem parameters_iff {ps : List ParameterDecl} :
    parameters s = .ok ps ↔ Spells.Parameters s ps := by
  have hcomma : ∀ s d, Spells.Parameter s d → ',' ∉ s := fun s d h => h.not_mem (by decide)
  have hlist : (splitOn ',' s).mapM parameter = .ok ps ↔
      Separated ',' Spells.Parameter s ps := by
    rw [mapM_eq_ok, separated_iff hcomma]
    exact ⟨fun h => h.imp fun _ _ => parameter_iff.1, fun h => h.imp fun _ _ => parameter_iff.2⟩
  unfold parameters
  by_cases hblank : Blank s
  · rw [if_pos (List.all_eq_true.2 hblank)]
    constructor
    · intro h
      cases h
      exact .none hblank
    · rintro (_ | h)
      · rfl
      · -- A blank piece spells no parameter.
        have hall := (separated_iff hcomma).1 h
        rw [splitOn_free (IsMark.not_mem_blank (by decide) hblank)] at hall
        obtain ⟨d, _, hd, _⟩ := List.forall₂_cons_left_iff.1 hall
        have hparameter := parameter_iff.2 hd
        unfold parameter at hparameter
        rw [words_blank hblank] at hparameter
        nomatch hparameter
  · rw [if_neg fun h => hblank (List.all_eq_true.1 h), hlist]
    constructor
    · exact .list
    · rintro (hb | h)
      · exact absurd hb hblank
      · exact h

/-! ## Functions -/

open Reader

theorem returns_sound {o : Option String}
    (h : (opt do punctuation '-'; char '>'; blanks; word).run s = some (o, r)) :
    ∃ t, Spells.Returns t o ∧ s = t ++ r := by
  rcases run_opt_iff.1 h with ⟨w, hw, rfl⟩ | ⟨_, rfl, rfl⟩
  · obtain ⟨_, t₁, hminus, hrest₁⟩ := run_bind_iff.1 hw
    obtain ⟨_, t₂, harrow, hrest₂⟩ := run_bind_iff.1 hrest₁
    obtain ⟨_, t₃, hblank, hword⟩ := run_bind_iff.1 hrest₂
    obtain ⟨b₁, h₁, rfl⟩ := (run_punctuation_iff (by decide)).1 hminus
    obtain rfl := run_char_iff.1 harrow
    obtain ⟨_, b₂, h₂, rfl⟩ := trimLeft_eq_iff.1 (run_blanks_iff.1 hblank)
    obtain ⟨hresult, _, rfl⟩ := run_word_iff.1 hword
    refine ⟨_, .arrow h₁ h₂ hresult, ?_⟩
    simp only [List.append_assoc, List.cons_append]
  · exact ⟨[], .nothing, rfl⟩

theorem returns_complete {t b : List Char} {o : Option String} (h : Spells.Returns t o)
    (hb : Blank b) :
    (opt do punctuation '-'; char '>'; blanks; word).run (t ++ b) = some (o, b) := by
  cases h with
  | nothing =>
    refine run_opt_iff.2 (Or.inr ⟨?_, rfl, rfl⟩)
    cases hrun : (do punctuation '-'; char '>'; blanks; word : Reader String).run ([] ++ b) with
    | none => rfl
    | some x =>
      obtain ⟨_, t₁, hminus, _⟩ := run_bind_iff.1 (show _ = some (x.1, x.2) from hrun)
      obtain ⟨b₁, _, hs⟩ := (run_punctuation_iff (by decide)).1 hminus
      have hmem : '-' ∈ b := by
        rw [show b = b₁ ++ '-' :: t₁ from hs]
        simp
      exact absurd (hb _ hmem) (by decide)
  | arrow h₁ h₂ hw =>
    rename_i b₁ b₂ w
    have hstop : Stops isWord b := by
      cases b with
      | nil => exact stops_nil
      | cons c b => exact stops_cons.2 (isWord_of_isBlank (hb c List.mem_cons_self))
    refine run_opt_iff.2 (Or.inl ⟨w, ?_, rfl⟩)
    refine run_bind_iff.2 ⟨(), '>' :: (b₂ ++ (w.toList ++ b)), (run_punctuation_iff (by decide)).2
      ⟨b₁, h₁, ?_⟩, ?_⟩
    · simp only [List.append_assoc, List.cons_append]
    refine run_bind_iff.2 ⟨(), b₂ ++ (w.toList ++ b), run_char_iff.2 rfl, ?_⟩
    exact run_bind_iff.2 ⟨(), w.toList ++ b, run_blanks_iff.2
      (trimLeft_eq_iff.2 ⟨hw.stops, b₂, h₂, rfl⟩), run_word_iff.2 ⟨hw, hstop, rfl⟩⟩

/-- What the form of a declaration is read from. -/
theorem run_signature_iff {name : String} {list : List Char} {returns : Option String} :
    signature.run s = some ((name, list, returns), r) ↔
      ∃ b result b', IsWord name ∧ Blank b ∧ ')' ∉ list ∧ Spells.Returns result returns ∧ Blank b' ∧
        s = name.toList ++ b ++ '(' :: list ++ ')' :: result ++ b' ∧ r = [] := by
  unfold signature
  constructor
  · intro h
    obtain ⟨name', t₁, hfirst, hrest₁⟩ := run_bind_iff.1 h
    obtain ⟨_, t₂, hopen, hrest₂⟩ := run_bind_iff.1 hrest₁
    obtain ⟨list', t₃, hlist, hrest₃⟩ := run_bind_iff.1 hrest₂
    obtain ⟨returns', t₄, hreturns, hrest₄⟩ := run_bind_iff.1 hrest₃
    obtain ⟨_, t₅, hblank, hrest₅⟩ := run_bind_iff.1 hrest₄
    obtain ⟨_, t₆, hend, hpure⟩ := run_bind_iff.1 hrest₅
    obtain ⟨hform, rfl⟩ := run_pure_iff.1 hpure
    cases hform
    obtain ⟨rfl, rfl⟩ := run_atEnd_iff.1 hend
    obtain ⟨hname, _, rfl⟩ := run_word_iff.1 hfirst
    obtain ⟨b, hb, rfl⟩ := (run_punctuation_iff (by decide)).1 hopen
    obtain ⟨hnot, rfl⟩ := run_through_iff.1 hlist
    obtain ⟨result, hresult, rfl⟩ := returns_sound hreturns
    obtain ⟨_, b', hb', rfl⟩ := trimLeft_eq_iff.1 (run_blanks_iff.1 hblank)
    refine ⟨b, result, b', hname, hb, hnot, hresult, hb', ?_, rfl⟩
    simp only [List.append_assoc, List.cons_append, List.append_nil]
  · rintro ⟨b, result, b', hname, hb, hnot, hresult, hb', rfl, rfl⟩
    have hahead : Ahead '(' (b ++ '(' :: (list ++ ')' :: (result ++ b'))) := ahead_append hb
    refine run_bind_iff.2 ⟨name, b ++ '(' :: (list ++ ')' :: (result ++ b')), run_word_iff.2
      ⟨hname, hahead.stops_word (by decide), ?_⟩, ?_⟩
    · simp only [List.append_assoc, List.cons_append]
    refine run_bind_iff.2 ⟨(), list ++ ')' :: (result ++ b'), (run_punctuation_iff (by decide)).2
      ⟨b, hb, rfl⟩, ?_⟩
    refine run_bind_iff.2 ⟨list, result ++ b', run_through_iff.2 ⟨hnot, rfl⟩, ?_⟩
    refine run_bind_iff.2 ⟨returns, b', returns_complete hresult hb', ?_⟩
    refine run_bind_iff.2 ⟨(), [], run_blanks_iff.2 (trimLeft_eq_iff.2
      ⟨stops_nil, b', hb', (List.append_nil b').symm⟩), ?_⟩
    exact run_bind_iff.2 ⟨(), [], run_atEnd_iff.2 ⟨rfl, rfl⟩, rfl⟩

theorem isWord_fallible : IsWord "fallible" := isOneWord_iff.1 (by decide)

theorem run_fallibleMark_iff {u : Unit} :
    fallibleMark.run s = some (u, r) ↔
      ∃ g, Spells.Gap g ∧ Stops isBlank r ∧
        s = ['f', 'a', 'l', 'l', 'i', 'b', 'l', 'e'] ++ g ++ r := by
  unfold fallibleMark
  rw [run_bind_iff]
  constructor
  · rintro ⟨_, t, hmark, hgap⟩
    obtain ⟨g, hg, hstop, rfl⟩ := run_gap_iff.1 hgap
    exact ⟨g, hg, hstop, by rw [run_exactly_iff.1 hmark, List.append_assoc]⟩
  · rintro ⟨g, hg, hstop, rfl⟩
    exact ⟨(), g ++ r, run_exactly_iff.2 (by rw [List.append_assoc]),
      run_gap_iff.2 ⟨g, hg, hstop, rfl⟩⟩

/-- A function without a mark is read as such, even if its own name is that of the mark: no word
follows it. -/
theorem run_marked_none {name : String} {b : List Char} (hname : IsWord name) (hb : Blank b) :
    (do fallibleMark; signature : Reader _).run (name.toList ++ b ++ '(' :: r) = none := by
  cases hrun : (do fallibleMark; signature : Reader _).run (name.toList ++ b ++ '(' :: r) with
  | none => rfl
  | some x =>
    exfalso
    obtain ⟨_, t, hmark, hsignature⟩ := run_bind_iff.1 (show _ = some (x.1, x.2) from hrun)
    obtain ⟨g, hg, _, hmarked⟩ := run_fallibleMark_iff.1 hmark
    have hs : name.toList ++ b ++ '(' :: r = "fallible".toList ++ g ++ t := hmarked
    obtain ⟨_, _, _, hname', _, _, _, _, ht, _⟩ := run_signature_iff.1 hsignature
    -- Both ways the text starts with one word, so what follows is the same.
    have hahead : Ahead '(' (b ++ '(' :: r) := ahead_append hb
    have hrest : b ++ '(' :: r = g ++ t := by
      have hleft := dropWhile_append_stops hname.chars (hahead.stops_word (by decide))
      have hright := dropWhile_append_stops isWord_fallible.chars (hg.stops (r := t))
      rw [← hleft, ← hright, ← List.append_assoc, ← List.append_assoc, hs]
    have hmark := hahead.trimLeft (by decide)
    rw [hrest, trimLeft_append hg.2, ht, List.append_assoc, List.append_assoc, List.append_assoc,
      trimLeft_of_stops hname'.stops] at hmark
    exact absurd (hname'.head '(' hmark) (by decide)

theorem Spells.Signature.stops {f : FunctionDecl} (h : Spells.Signature s f) :
    Stops isBlank (s ++ r) := by
  obtain ⟨hname, _, _, _⟩ := h
  rw [List.append_assoc, List.append_assoc, List.append_assoc]
  exact hname.stops

theorem Spells.Signature.complete {f : FunctionDecl} {b : List Char} (h : Spells.Signature s f)
    (hb : Blank b) :
    ∃ list, signature.run (s ++ b) = some ((f.name, list, f.returns), []) ∧
      parameters list = .ok f.parameters := by
  obtain ⟨hname, hblank, hlist, hresult⟩ := h
  rename_i b' list result
  refine ⟨list, run_signature_iff.2 ⟨b', result, b, hname, hblank,
    hlist.not_mem (by decide) (by decide), hresult, hb, rfl, rfl⟩, parameters_iff.2 hlist⟩

theorem signature_sound {name : String} {list : List Char} {returns : Option String}
    {ps : List ParameterDecl} (fallible : Bool)
    (h : signature.run s = some ((name, list, returns), r)) (hps : parameters list = .ok ps) :
    ∃ t b, Spells.Signature t ⟨name, ps, returns, fallible⟩ ∧ Blank b ∧ s = t ++ b := by
  obtain ⟨b, result, b', hname, hb, _, hresult, hb', rfl, _⟩ := run_signature_iff.1 h
  exact ⟨_, b', .form (f := ⟨name, ps, returns, fallible⟩) hname hb (parameters_iff.1 hps) hresult,
    hb', rfl⟩

/-- A declaration is taken for the function that it spells. -/
theorem function_iff {f : FunctionDecl} :
    function s = .ok f ↔ ∃ t b, Spells.Function t f ∧ Blank b ∧ s = t ++ b := by
  unfold function
  constructor
  · intro h
    dsimp only at h
    -- The mark is tried first; where it does not fit, the text is read again from its start.
    cases hmarked : (do fallibleMark; signature : Reader _).run s with
    | some x =>
      obtain ⟨⟨name, list, returns⟩, rest⟩ := x
      rw [hmarked] at h
      obtain ⟨ps, hps, hf⟩ := bind_eq_ok.1 h
      cases hf
      obtain ⟨_, t, hmark, hsignature⟩ := run_bind_iff.1 hmarked
      obtain ⟨g, hg, _, rfl⟩ := run_fallibleMark_iff.1 hmark
      obtain ⟨t', b, hspelled, hb, rfl⟩ := signature_sound true hsignature hps
      exact ⟨_, b, .fallible hg hspelled rfl, hb, by simp only [List.append_assoc]⟩
    | none =>
      rw [hmarked] at h
      cases hplain : signature.run s with
      | none =>
        rw [hplain] at h
        nomatch h
      | some x =>
        obtain ⟨⟨name, list, returns⟩, rest⟩ := x
        rw [hplain] at h
        obtain ⟨ps, hps, hf⟩ := bind_eq_ok.1 h
        cases hf
        obtain ⟨t, b, hspelled, hb, rfl⟩ := signature_sound false hplain hps
        exact ⟨t, b, .plain hspelled rfl, hb, rfl⟩
  · rintro ⟨t, b, hf, hb, rfl⟩
    dsimp only
    cases hf with
    | plain hsignature hmark =>
      obtain ⟨list, hrun, hps⟩ := hsignature.complete hb
      have hnone : (do fallibleMark; signature : Reader _).run (t ++ b) = none := by
        obtain ⟨hname, hblank, _, _⟩ := hsignature
        rw [List.append_assoc, List.append_assoc, List.cons_append]
        exact run_marked_none hname hblank
      rw [hnone, hrun]
      dsimp only [Option.map_some]
      rw [hps]
      obtain ⟨name, ps, returns, fallible⟩ := f
      obtain rfl : fallible = false := hmark
      rfl
    | fallible hg hsignature hmark =>
      rename_i g s
      obtain ⟨list, hrun, hps⟩ := hsignature.complete hb
      have hsome : (do fallibleMark; signature : Reader _).run
          (['f', 'a', 'l', 'l', 'i', 'b', 'l', 'e'] ++ g ++ s ++ b) =
            some ((f.name, list, f.returns), []) := by
        refine run_bind_iff.2 ⟨(), s ++ b, run_fallibleMark_iff.2 ⟨g, hg, ?_, ?_⟩, hrun⟩
        · exact hsignature.stops
        · simp only [List.append_assoc]
      rw [hsome]
      dsimp only
      rw [hps]
      obtain ⟨name, ps, returns, fallible⟩ := f
      obtain rfl : fallible = true := hmark
      rfl

/-! ## Modules -/

theorem Spells.Signature.concat {f : FunctionDecl} (h : Spells.Signature s f) :
    ∃ front c, s = front ++ [c] ∧ isBlank c = false := by
  obtain ⟨hname, hb, hlist, hresult⟩ := h
  rename_i b list result
  generalize f.returns = returns at hresult
  cases hresult with
  | nothing => exact ⟨f.name.toList ++ b ++ '(' :: list, ')', rfl, by decide⟩
  | arrow h₁ h₂ hw =>
    rename_i b₁ b₂ w
    rcases List.eq_nil_or_concat w.toList with hnil | ⟨front, c, hc⟩
    · exact absurd hnil hw.ne_nil
    · rw [List.concat_eq_append] at hc
      refine ⟨f.name.toList ++ b ++ '(' :: list ++ ')' :: (b₁ ++ '-' :: '>' :: b₂ ++ front), c, ?_,
        hw.solid c (by rw [hc]; simp)⟩
      rw [hc]
      simp only [List.append_assoc, List.cons_append]

/-- A function neither starts nor ends with a blank. -/
theorem Spells.Function.ends {f : FunctionDecl} (h : Spells.Function s f) :
    Stops isBlank s ∧ ∃ front c, s = front ++ [c] ∧ isBlank c = false := by
  cases h with
  | plain h _ =>
    have hstop := h.stops (r := [])
    rw [List.append_nil] at hstop
    exact ⟨hstop, h.concat⟩
  | fallible _ h _ =>
    rename_i g s
    obtain ⟨front, c, rfl, hc⟩ := h.concat
    exact ⟨stops_cons.2 (by decide), _, c, (List.append_assoc _ _ _).symm, hc⟩

theorem Spells.Returns.not_mem {o : Option String} {c : Char} (h : Spells.Returns s o)
    (hc : IsMark c) (harrow : c ∉ ['-', '>']) : c ∉ s := by
  rw [List.mem_cons, List.mem_singleton, not_or] at harrow
  cases h with
  | nothing => exact fun h => (nomatch h)
  | arrow h₁ h₂ hw =>
    simp only [List.mem_append, List.mem_cons, not_or]
    exact ⟨⟨hc.not_mem_blank h₁, harrow.1, harrow.2, hc.not_mem_blank h₂⟩, hc.not_mem_word hw⟩

theorem Spells.Function.not_mem {f : FunctionDecl} {c : Char} (h : Spells.Function s f)
    (hc : IsMark c) (hmarks : c ∉ ['(', ',', ')', '-', '>']) : c ∉ s := by
  have hsignature : ∀ {s}, Spells.Signature s f → c ∉ s := by
    rintro s ⟨hname, hb, hlist, hresult⟩
    simp only [List.mem_cons, List.not_mem_nil, or_false, not_or] at hmarks
    simp only [List.mem_append, List.mem_cons, not_or]
    exact ⟨⟨⟨hc.not_mem_word hname, hc.not_mem_blank hb⟩, hmarks.1,
      hlist.not_mem hc hmarks.2.1⟩, hmarks.2.2.1, hresult.not_mem hc (by simp [hmarks])⟩
  cases h with
  | plain h _ => exact hsignature h
  | fallible hg h _ =>
    rw [List.mem_append, List.mem_append, not_or, not_or]
    exact ⟨⟨hc.not_mem_word isWord_fallible, hc.not_mem_blank hg.2⟩, hsignature h⟩

theorem Spells.Declaration.not_mem {d : Option FunctionDecl} {c : Char}
    (h : Spells.Declaration s d) (hc : IsMark c) (hmarks : c ∉ ['(', ',', ')', '-', '>']) :
    c ∉ s := by
  cases h with
  | blank hb => exact hc.not_mem_blank hb
  | function hb h hb' =>
    rw [List.mem_append, List.mem_append, not_or, not_or]
    exact ⟨⟨hc.not_mem_blank hb, h.not_mem hc hmarks⟩, hc.not_mem_blank hb'⟩

theorem declaration_none : Spells.Declaration piece none ↔ trim piece = [] := by
  rw [trim_eq_nil]
  constructor
  · rintro ⟨hb⟩
    exact hb
  · exact .blank

theorem declaration_some {f : FunctionDecl} :
    Spells.Declaration piece (some f) ↔ trim piece ≠ [] ∧ function (trim piece) = .ok f := by
  constructor
  · rintro (_ | ⟨hb, h, hb'⟩)
    obtain ⟨hstop, front, c, rfl, hc⟩ := h.ends
    rw [trim_append hb hb' hstop hc]
    exact ⟨by simp, function_iff.2 ⟨_, [], h, blank_nil, (List.append_nil _).symm⟩⟩
  · rintro ⟨_, h⟩
    obtain ⟨t, b, ht, hb, htrim⟩ := function_iff.1 h
    obtain ⟨b₁, b₂, h₁, h₂, hs⟩ := exists_trim piece
    have hspelled := Spells.Declaration.function h₁ ht (hb.append h₂)
    rw [hs, htrim]
    simp only [List.append_assoc] at hspelled ⊢
    exact hspelled

/-- The declarations of pieces are those that they spell, one by one. -/
theorem declarations_iff {line : Nat} {pieces : List (List Char)} {fs : List FunctionDecl} :
    declarations line pieces = .ok fs ↔
      ∃ ds, List.Forall₂ Spells.Declaration pieces ds ∧ ds.reduceOption = fs := by
  induction pieces generalizing line fs with
  | nil =>
    constructor
    · intro h
      cases h
      exact ⟨[], .nil, rfl⟩
    · rintro ⟨ds, hds, rfl⟩
      rw [List.forall₂_nil_left_iff.1 hds]
      rfl
  | cons piece pieces ih =>
    unfold declarations
    dsimp only
    -- A blank piece is skipped, and what it spells counts for no function.
    by_cases hblank : trim piece = []
    · rw [if_pos (List.isEmpty_iff.2 hblank), ih]
      constructor
      · rintro ⟨ds, hds, rfl⟩
        exact ⟨none :: ds, .cons (declaration_none.2 hblank) hds, List.reduceOption_cons_of_none ds⟩
      · rintro ⟨ds, hds, rfl⟩
        obtain ⟨d, rest, hd, hrest, rfl⟩ := List.forall₂_cons_left_iff.1 hds
        cases d with
        | none => exact ⟨rest, hrest, (List.reduceOption_cons_of_none rest).symm⟩
        | some f => exact absurd hblank (declaration_some.1 hd).1
    · rw [if_neg fun h => hblank (List.isEmpty_iff.1 h)]
      constructor
      · intro h
        obtain ⟨f, hf, h⟩ := bind_eq_ok.1 h
        obtain ⟨rest, hrest, h⟩ := bind_eq_ok.1 h
        cases h
        obtain ⟨ds, hds, rfl⟩ := ih.1 hrest
        exact ⟨some f :: ds, .cons (declaration_some.2 ⟨hblank, mapError_eq_ok.1 hf⟩) hds,
          List.reduceOption_cons_of_some f ds⟩
      · rintro ⟨ds, hds, rfl⟩
        obtain ⟨d, rest, hd, hrest, rfl⟩ := List.forall₂_cons_left_iff.1 hds
        cases d with
        | none => exact absurd (declaration_none.1 hd) hblank
        | some f =>
          rw [List.reduceOption_cons_of_some]
          exact bind_eq_ok.2 ⟨f, mapError_eq_ok.2 (declaration_some.1 hd).2, bind_eq_ok.2
            ⟨rest.reduceOption, ih.2 ⟨rest, hrest, rfl⟩, rfl⟩⟩

theorem Spells.Functions.not_mem {fs : List FunctionDecl} {c : Char} (h : Spells.Functions s fs)
    (hc : IsMark c) (hmarks : c ∉ [';', '(', ',', ')', '-', '>']) : c ∉ s := by
  rw [List.mem_cons, not_or] at hmarks
  obtain ⟨h⟩ := h
  exact h.not_mem hmarks.1 fun _ _ h => h.not_mem hc hmarks.2

/-- The functions of a body are those that it spells. -/
theorem functions_iff {line : Nat} {fs : List FunctionDecl} :
    functions line body = .ok fs ↔ Spells.Functions body fs := by
  have hsemicolon : ∀ s d, Spells.Declaration s d → ';' ∉ s :=
    fun s d h => h.not_mem (by decide) (by decide)
  unfold functions
  rw [declarations_iff]
  constructor
  · rintro ⟨ds, hds, rfl⟩
    exact ⟨(separated_iff hsemicolon).2 hds⟩
  · rintro ⟨h⟩
    exact ⟨_, (separated_iff hsemicolon).1 h, rfl⟩

end Bindery.Idl
