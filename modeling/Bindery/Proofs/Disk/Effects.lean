/-
  THE EFFECT of each operation on a tree: when it succeeds, and what stands where afterwards.

  Each operation succeeds exactly where its paths lead somewhere and nothing is in its way, and then
  it sets, moves or removes at the places of its paths.  Where it fails on usable paths, it fails
  with a fault of the disk.
-/
import Bindery.Proofs.Disk.Below
import Bindery.Proofs.Outcome
import Mathlib.Data.List.Induction
import Mathlib.Tactic.ByContra

namespace Bindery.Tree

variable {t t' : Tree} {home : Place} {p q : Path}

/-! ## Closed trees -/

/-- Whatever stands somewhere stands in a directory. -/
def Closed (t : Tree) : Prop :=
  ∀ q, q ≠ [] → t.find? q ≠ none → t.find? q.dropLast = some .directory

/-- In a closed tree all that is above something is a directory. -/
theorem Closed.above (h : t.Closed) {a r : Place} (hr : r ≠ []) (hthere : t.find? (a ++ r) ≠ none) :
    t.find? a = some .directory := by
  induction r using List.reverseRecOn with
  | nil => exact absurd rfl hr
  | append_singleton r name ih =>
    have hup : t.find? (a ++ r) = some .directory := by
      have := h (a ++ (r ++ [name])) (by simp) hthere
      rwa [← List.append_assoc, List.dropLast_concat] at this
    by_cases hr' : r = []
    · rw [hr', List.append_nil] at hup
      exact hup
    · exact ih hr' (by rw [hup]; simp)

/-- In a closed tree nothing is below nothing. -/
theorem Closed.nothing_below (h : t.Closed) {a : Place} (ha : t.find? a = none) (r : Place) :
    t.find? (a ++ r) = none := by
  by_cases hr : r = []
  · rw [hr, List.append_nil]
    exact ha
  · by_contra hthere
    rw [h.above hr hthere] at ha
    nomatch ha

/-- What is not the root, and is there or not, is not the root. -/
theorem ne_nil_of_find?_ne {a : Place} (h : t.find? a ≠ some .directory) : a ≠ [] := by
  rintro rfl
  exact h rfl

/-! ## Faults -/

/-- Names lead nowhere by a fault of the disk; along directories, only because one is too long. -/
theorem descend_error {e : DiskFault} {here : Place} {names : List String}
    (h : t.descend here names = .error e) :
    e.isOfDisk = true ∧ (t.Open here names → e = .nameTooLong) := by
  induction names generalizing here with
  | nil => cases h
  | cons name names ih =>
    rw [open_cons]
    rw [descend] at h
    rcases hfind : t.find? here with _ | _ | _ <;> rw [hfind] at h
    · cases h
      exact ⟨rfl, by rintro ⟨⟨⟩, _⟩⟩
    · cases h
      exact ⟨rfl, by rintro ⟨⟨⟩, _⟩⟩
    · rcases bind_eq_error.1 h with h | ⟨there, hthere, h⟩
      · unfold step at h
        split at h
        · cases h
        · split at h
          · cases h
            exact ⟨rfl, fun _ => rfl⟩
          · cases h
      · rw [(step_eq_ok.1 hthere).2] at h
        obtain ⟨hdisk, hlong⟩ := ih h
        exact ⟨hdisk, fun hopen => hlong hopen.2⟩

theorem locate_error {e : DiskFault} (hp : p.isUsable = true) (h : t.locate home p = .error e) :
    e.isOfDisk = true ∧ (t.Reaches home p → e = .nameTooLong) := by
  unfold locate at h
  rw [hp, if_neg (by decide)] at h
  by_cases hlong : maxPathBytes < p.toString.utf8ByteSize
  · rw [if_pos hlong] at h
    cases h
    exact ⟨rfl, fun _ => rfl⟩
  · rw [if_neg hlong] at h
    exact descend_error h

/-! ## Looking -/

theorem look_eq_some {k : EntryKind} :
    t.look home p = .ok (some k) ↔
      p.Fits ∧ t.Reaches home p ∧ (t.find? (p.placeOf home)).map Entry.kind = some k := by
  unfold look
  cases hloc : t.locate home p with
  | ok place =>
    obtain ⟨hfits, hopen, rfl⟩ := locate_eq_ok.1 hloc
    rw [Except.ok.injEq]
    exact ⟨fun h => ⟨hfits, hopen, h⟩, fun h => h.2.2⟩
  | error e =>
    refine ⟨fun h => ?_, ?_⟩
    · cases e <;> nomatch h
    · rintro ⟨hfits, hopen, _⟩
      rw [locate_eq_place hfits hopen] at hloc
      nomatch hloc

/-- Where the way is open and nothing is seen, nothing is there. -/
theorem look_eq_none (hp : p.isUsable = true) (hopen : t.Reaches home p)
    (h : t.look home p = .ok none) : t.find? (p.placeOf home) = none := by
  unfold look at h
  cases hloc : t.locate home p with
  | ok place =>
    rw [hloc] at h
    obtain ⟨_, _, rfl⟩ := locate_eq_ok.1 hloc
    exact Option.map_eq_none_iff.1 (Except.ok.inj h)
  | error e =>
    rw [hloc, (locate_error hp hloc).2 hopen] at h
    nomatch h

theorem look_error {e : DiskFault} (h : t.look home p = .error e) : e = .nameTooLong := by
  unfold look at h
  cases hloc : t.locate home p with
  | ok place =>
    rw [hloc] at h
    nomatch h
  | error e' =>
    rw [hloc] at h
    cases e' with
    | nameTooLong =>
      cases h
      rfl
    | _ => nomatch h

/-! ## Making and writing -/

theorem makeDir_eq_ok :
    t.makeDir home p = .ok t' ↔
      p.Fits ∧ t.Reaches home p ∧ t.find? (p.placeOf home) = none ∧
        t' = t.put (p.placeOf home) .directory := by
  unfold makeDir
  rw [bind_eq_ok]
  constructor
  · rintro ⟨place, hloc, h⟩
    obtain ⟨hfits, hopen, rfl⟩ := locate_eq_ok.1 hloc
    cases hfind : t.find? (p.placeOf home) with
    | none =>
      rw [hfind] at h
      exact ⟨hfits, hopen, rfl, (Except.ok.inj h).symm⟩
    | some e =>
      rw [hfind] at h
      nomatch h
  · rintro ⟨hfits, hopen, hfind, rfl⟩
    refine ⟨_, locate_eq_place hfits hopen, ?_⟩
    rw [hfind]

theorem makeDir_error {e : DiskFault} (hp : p.isUsable = true)
    (h : t.makeDir home p = .error e) : e.isOfDisk = true := by
  rcases bind_eq_error.1 h with h | ⟨place, _, h⟩
  · exact (locate_error hp h).1
  · cases hfind : t.find? place with
    | none =>
      rw [hfind] at h
      nomatch h
    | some x =>
      rw [hfind] at h
      cases h
      rfl

theorem write_eq_ok {text : String} :
    t.write home p text = .ok t' ↔
      p.Fits ∧ t.Reaches home p ∧ t.find? (p.placeOf home) ≠ some .directory ∧
        t' = t.put (p.placeOf home) (.file text) := by
  unfold write
  rw [bind_eq_ok]
  constructor
  · rintro ⟨place, hloc, h⟩
    obtain ⟨hfits, hopen, rfl⟩ := locate_eq_ok.1 hloc
    rcases hfind : t.find? (p.placeOf home) with _ | _ | _ <;> rw [hfind] at h
    · exact ⟨hfits, hopen, by simp, (Except.ok.inj h).symm⟩
    · exact ⟨hfits, hopen, by simp, (Except.ok.inj h).symm⟩
    · nomatch h
  · rintro ⟨hfits, hopen, hfind, rfl⟩
    refine ⟨_, locate_eq_place hfits hopen, ?_⟩
    rcases hfind' : t.find? (p.placeOf home) with _ | _ | _
    · rfl
    · rfl
    · exact absurd hfind' hfind

/-- A scratch directory is one that was not there, below a directory. -/
theorem makeScratch_eq_ok {scratch : Path} (h : t.makeScratch home p = .ok (scratch, t')) :
    ∃ name, scratch = p.below [name] ∧ t.makeDir home scratch = .ok t' ∧
      ∃ k, name = scratchName k := by
  obtain ⟨place, hloc, h⟩ := bind_eq_ok.1 h
  rcases hfind : t.find? place with _ | _ | _ <;> rw [hfind] at h
  · nomatch h
  · nomatch h
  · rcases hfresh : t.freshName? place with _ | name
    · rw [hfresh] at h
      nomatch h
    · rw [hfresh] at h
      obtain ⟨made, hmade, hpair⟩ := bind_eq_ok.1 h
      obtain ⟨rfl, rfl⟩ := Prod.mk.inj (Except.ok.inj hpair)
      obtain ⟨k, _, hk⟩ := List.mem_map.1 (List.mem_of_find?_eq_some hfresh)
      exact ⟨name, rfl, hmade, k, hk.symm⟩

/-! ## Moving -/

theorem checkWay_of_nothing {moving : Entry} {target : Place} (h : t.find? target = none) :
    t.checkWay moving target = .ok () := by
  unfold checkWay
  rw [h]
  cases moving <;> rfl

theorem rename_eq_ok :
    t.rename home p q = .ok t' ↔
      p.Fits ∧ q.Fits ∧ t.Reaches home p ∧ t.Reaches home q ∧ isNamed p = true ∧
        isNamed q = true ∧ ∃ moving, t.find? (p.placeOf home) = some moving ∧
          (p.placeOf home = q.placeOf home ∧ t' = t ∨
            p.placeOf home ≠ q.placeOf home ∧
              isBelow (p.placeOf home) (q.placeOf home) = false ∧
              t.checkWay moving (q.placeOf home) = .ok () ∧
              t' = t.move (p.placeOf home) (q.placeOf home)) := by
  unfold rename
  rw [bind_eq_ok]
  constructor
  · rintro ⟨source, hsource, h⟩
    obtain ⟨target, htarget, h⟩ := bind_eq_ok.1 h
    obtain ⟨hp, hpopen, rfl⟩ := locate_eq_ok.1 hsource
    obtain ⟨hq, hqopen, rfl⟩ := locate_eq_ok.1 htarget
    by_cases hnamed : (isNamed p && isNamed q) = true
    · rw [hnamed, if_neg (by decide)] at h
      obtain ⟨hnp, hnq⟩ := Bool.and_eq_true_iff.1 hnamed
      refine ⟨hp, hq, hpopen, hqopen, hnp, hnq, ?_⟩
      rcases hfind : t.find? (p.placeOf home) with _ | moving
      · rw [hfind] at h
        nomatch h
      · rw [hfind] at h
        refine ⟨moving, rfl, ?_⟩
        dsimp only at h
        -- A move onto itself is let through before anything is asked of the target.
        by_cases hsame : p.placeOf home = q.placeOf home
        · rw [if_pos hsame] at h
          exact Or.inl ⟨hsame, (Except.ok.inj h).symm⟩
        · rw [if_neg hsame] at h
          by_cases hbelow : isBelow (p.placeOf home) (q.placeOf home) = true
          · rw [if_pos hbelow] at h
            nomatch h
          · rw [if_neg hbelow] at h
            obtain ⟨_, hway, h⟩ := bind_eq_ok.1 h
            exact Or.inr ⟨hsame, Bool.eq_false_iff.2 hbelow, hway, (Except.ok.inj h).symm⟩
    · rw [Bool.eq_false_iff.2 hnamed, if_pos (by decide)] at h
      nomatch h
  · rintro ⟨hp, hq, hpopen, hqopen, hnp, hnq, moving, hfind, hcase⟩
    refine ⟨_, locate_eq_place hp hpopen, ?_⟩
    rw [bind_eq_ok]
    refine ⟨_, locate_eq_place hq hqopen, ?_⟩
    rw [hnp, hnq, if_neg (by decide), hfind]
    rcases hcase with ⟨hsame, rfl⟩ | ⟨hsame, hbelow, hway, rfl⟩
    · simp only [if_pos hsame]
    · simp only [if_neg hsame, hbelow, hway]
      rfl

theorem rename_error {e : DiskFault} (hp : p.isUsable = true) (hq : q.isUsable = true)
    (h : t.rename home p q = .error e) : e.isOfDisk = true := by
  rcases bind_eq_error.1 h with h | ⟨source, _, h⟩
  · exact (locate_error hp h).1
  rcases bind_eq_error.1 h with h | ⟨target, _, h⟩
  · exact (locate_error hq h).1
  split at h
  · cases h
    rfl
  split at h
  · cases h
    rfl
  split at h
  · nomatch h
  split at h
  · cases h
    rfl
  rcases bind_eq_error.1 h with h | ⟨_, _, h⟩
  · unfold checkWay at h
    split at h
    · cases h
      rfl
    · split at h
      · cases h
        rfl
      · nomatch h
    · cases h
      rfl
    · nomatch h
  · nomatch h

theorem isBelow_eq_false {a b : Place} (h : isBelow a b = false) (hne : a ≠ b) : ¬a <+: b := by
  intro hp
  unfold isBelow at h
  rw [List.isPrefixOf_iff_prefix.2 hp, Bool.true_and, bne_eq_false_iff_eq] at h
  exact hne h

/-- `Moved t source target t'` — what stood at a place stands, with all below it, at another. -/
structure Moved (t : Tree) (source target : Place) (t' : Tree) : Prop where
  arrived : ∀ r, t'.find? (target ++ r) = t.find? (source ++ r)
  left : ∀ r, t'.find? (source ++ r) = none
  off : ∀ q, ¬target <+: q → ¬source <+: q → t'.find? q = t.find? q

theorem moved_move {source target : Place} (hst : ¬source <+: target) (hts : ¬target <+: source) :
    Moved t source target (t.move source target) := by
  have hsource : source ≠ [] := fun h => hst (h ▸ List.nil_prefix)
  have htarget : target ≠ [] := fun h => hts (h ▸ List.nil_prefix)
  refine ⟨fun r => ?_, fun r => ?_, fun q htq hsq => ?_⟩
  · have hne : target ++ r ≠ [] := fun h => htarget (List.append_eq_nil_iff.1 h).1
    rw [find?_move t hne hsource hst hts, if_pos (List.prefix_append _ _), List.drop_left]
  · have hne : source ++ r ≠ [] := fun h => hsource (List.append_eq_nil_iff.1 h).1
    have hoff : ¬target <+: source ++ r := by
      intro hp
      rcases List.prefix_or_prefix_of_prefix hp (List.prefix_append source r) with h | h
      · exact hts h
      · exact hst h
    rw [find?_move t hne hsource hst hts, if_neg hoff, if_pos (List.prefix_append _ _)]
  · by_cases hne : q = []
    · rw [hne]
      rfl
    · rw [find?_move t hne hsource hst hts, if_neg htq, if_neg hsq]

/-- What a move to another place has done. -/
theorem moved_of_rename (h : t.rename home p q = .ok t')
    (hts : ¬q.placeOf home <+: p.placeOf home) :
    p.Fits ∧ q.Fits ∧ t.find? (p.placeOf home) ≠ none ∧ ¬p.placeOf home <+: q.placeOf home ∧
      Moved t (p.placeOf home) (q.placeOf home) t' := by
  obtain ⟨hp, hq, _, _, _, _, moving, hfind, ⟨hsame, _⟩ | ⟨hne, hbelow, _, rfl⟩⟩ := rename_eq_ok.1 h
  · rw [hsame] at hts
    exact absurd List.prefix_rfl hts
  · have hst := isBelow_eq_false hbelow hne
    exact ⟨hp, hq, by rw [hfind]; simp, hst, moved_move hst hts⟩

/-- A move onto itself changes nothing. -/
theorem rename_self (h : t.rename home p p = .ok t') : t' = t := by
  obtain ⟨_, _, _, _, _, _, _, _, ⟨_, ht⟩ | ⟨hne, _⟩⟩ := rename_eq_ok.1 h
  · exact ht
  · exact absurd rfl hne

theorem isBusy_of_find? {a : Place} {name : String} (h : t.find? (a ++ [name]) ≠ none) :
    t.isBusy a = true := by
  rw [find?_of_ne_nil t (by simp)] at h
  obtain ⟨entry, hentry⟩ := Option.ne_none_iff_exists'.1 h
  obtain ⟨front, back, hentries, _⟩ := List.lookup_eq_some_iff.1 hentry
  rw [isBusy, List.any_eq_true]
  refine ⟨(a ++ [name], entry), by rw [hentries]; simp, ?_⟩
  rw [isBelow, List.isPrefixOf_iff_prefix.2 (List.prefix_append _ _), Bool.true_and, bne_iff_ne]
  exact fun heq => absurd (congrArg List.length heq) (by simp)

/-- Nothing is moved onto a directory that something is in. -/
theorem rename_ne_ok_of_busy (hdir : t.find? (q.placeOf home) = some .directory)
    (hbusy : t.isBusy (q.placeOf home) = true) (hne : p.placeOf home ≠ q.placeOf home) :
    t.rename home p q ≠ .ok t' := by
  intro h
  obtain ⟨_, _, _, _, _, _, moving, _, ⟨hsame, _⟩ | ⟨_, _, hway, _⟩⟩ := rename_eq_ok.1 h
  · exact hne hsame
  · unfold checkWay at hway
    rw [hdir, hbusy] at hway
    cases moving with
    | file text => nomatch hway
    | directory => nomatch hway

/-- What is there can be moved where nothing is. -/
theorem rename_to_nothing (hp : p.Fits) (hq : q.Fits) (hpopen : t.Reaches home p)
    (hqopen : t.Reaches home q) (hnp : isNamed p = true) (hnq : isNamed q = true)
    (hthere : t.find? (p.placeOf home) ≠ none) (hfree : t.find? (q.placeOf home) = none)
    (hst : ¬p.placeOf home <+: q.placeOf home) : ∃ t', t.rename home p q = .ok t' := by
  obtain ⟨moving, hmoving⟩ := Option.ne_none_iff_exists'.1 hthere
  refine ⟨_, rename_eq_ok.2 ⟨hp, hq, hpopen, hqopen, hnp, hnq, moving, hmoving, Or.inr ⟨?_, ?_,
    checkWay_of_nothing hfree, rfl⟩⟩⟩
  · exact fun h => hst (h ▸ List.prefix_rfl)
  · unfold isBelow
    rw [isPrefixOf_eq_false hst]
    rfl

/-! ## Removing -/

theorem placeOf_ne_nil (h : isNamed p = true) : p.placeOf home ≠ [] := by
  unfold isNamed at h
  rcases List.eq_nil_or_concat p.names with hnames | ⟨front, last, hnames⟩
  · rw [hnames] at h
    nomatch h
  · rw [List.concat_eq_append] at hnames
    rw [hnames, List.getLast?_concat, Option.any_some, bne_iff_ne] at h
    rw [Path.placeOf, hnames, follow_append, follow_cons, follow_nil, stepTo, if_neg h]
    simp

/-- Whatever a path leads to, removing it takes what is there and below, or nothing. -/
theorem discard_cases (t : Tree) (home : Place) (p : Path) :
    t.discard home p = t ∨
      ∀ q, (t.discard home p).find? q = if p.placeOf home <+: q then none else t.find? q := by
  unfold discard
  cases hloc : t.locate home p with
  | error e => exact Or.inl rfl
  | ok place =>
    obtain ⟨_, _, rfl⟩ := locate_eq_ok.1 hloc
    dsimp only
    by_cases hc : (isNamed p && t.find? (p.placeOf home) = some .directory) = true
    · rw [if_pos hc]
      refine Or.inr fun q => ?_
      by_cases hq : q = []
      · have hne : p.placeOf home ≠ [] := placeOf_ne_nil (Bool.and_eq_true_iff.1 hc).1
        rw [hq, if_neg fun hp => hne (List.prefix_nil.1 hp)]
        rfl
      · rw [find?_remove _ _ hq]
        simp only [List.isPrefixOf_iff_prefix]
    · rw [if_neg hc]
      exact Or.inl rfl

/-- A directory that a path leads to is removed with all below it. -/
theorem find?_discard (hfits : p.Fits) (hopen : t.Reaches home p) (hnamed : isNamed p = true)
    (hdir : t.find? (p.placeOf home) = some .directory) {q : Place} (hq : q ≠ []) :
    (t.discard home p).find? q = if p.placeOf home <+: q then none else t.find? q := by
  unfold discard
  rw [locate_eq_place hfits hopen]
  show (if _ then _ else _ : Tree).find? q = _
  rw [hnamed, hdir, if_pos (by decide), find?_remove _ _ hq]
  simp only [List.isPrefixOf_iff_prefix]

end Bindery.Tree
