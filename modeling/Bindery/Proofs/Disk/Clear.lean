/-
  CLEAR WAYS: where a disk has no reason to refuse.

  On a quiet disk no operation fails by itself (`Quiet`).  Then an operation fails only because of
  its paths and what stands there; and where the way is open and nothing stands in it, only because
  a name is too long.  So each lemma here has the conditions under which its operation succeeds but
  for that.
-/
import Bindery.Proofs.Disk.Making
import Mathlib.Data.List.Nodup

namespace Bindery

open Bindery.Tree

/-- Nothing that goes forward is refused. -/
def Failures.Quiet (f : Failures) : Prop := ∀ n, f.forward n = .none

theorem Failures.Quiet.ofDisk {f : Failures} (hf : f.Quiet) : f.OfDisk := by
  intro n e he
  rw [hf n] at he
  nomatch he

theorem Refused.eq_error {α : Type} {f : Failures} {r : Except DiskFault α} {e : DiskFault}
    (hf : f.Quiet) (h : Refused f r e) : r = .error e := by
  rcases h with ⟨n, hn⟩ | h
  · rw [hf n] at hn
    nomatch hn
  · exact h

/-- `t.Clear home p` — no file stands on the way of the path, nor at its end. -/
def Tree.Clear (t : Tree) (home : Place) (p : Path) : Prop :=
  ∀ q text, p.Visits home q → t.find? q ≠ some (.file text)

/-! ## Why operations fail -/

namespace Tree

variable {t t' : Tree} {home : Place} {p q : Path} {e : DiskFault}

theorem Clear.wayMade {p' : Path} (h : t.Clear home p) (hmade : t.WayMade home p' t') :
    t'.Clear home p := fun q text hq hfile => h q text hq (hmade.file.1 hfile)

theorem Clear.of_first {anchor : Anchor} {front names : List String} (hfirst : front <+: names)
    (h : t.Clear home ⟨anchor, names⟩) : t.Clear home ⟨anchor, front⟩ :=
  fun q text hq => h q text (hq.of_first hfirst)

theorem Stands.clear (h : t.Stands home p) : t.Clear home p := by
  intro q text hq hfile
  rw [h q hq] at hfile
  nomatch hfile

/-- Names without a file on their way lead nowhere only for two reasons. -/
theorem descend_error_clear {here : Place} {names : List String}
    (hclear : ∀ front, front <+: names → ∀ text, t.find? (follow here front) ≠ some (.file text))
    (h : t.descend here names = .error e) : e = .nameTooLong ∨ e = .notFound := by
  induction names generalizing here with
  | nil => cases h
  | cons name names ih =>
    rw [descend] at h
    rcases hfind : t.find? here with _ | text | _ <;> rw [hfind] at h
    · exact Or.inr (Except.error.inj h).symm
    · exact absurd hfind (hclear [] List.nil_prefix text)
    · rcases bind_eq_error.1 h with h | ⟨there, hthere, h⟩
      · unfold step at h
        split at h
        · cases h
        · split at h
          · exact Or.inl (Except.error.inj h).symm
          · cases h
      · rw [(step_eq_ok.1 hthere).2] at h
        refine ih (fun front hfront text => ?_) h
        exact hclear (name :: front) ((List.prefix_cons_inj name).2 hfront) text

theorem locate_error_clear (hp : p.isUsable = true) (hclear : t.Clear home p)
    (h : t.locate home p = .error e) :
    e = .nameTooLong ∨ e = .notFound ∧ ¬t.Reaches home p := by
  by_cases hopen : t.Reaches home p
  · exact Or.inl ((locate_error hp h).2 hopen)
  · unfold locate at h
    rw [hp, if_neg (by decide)] at h
    split at h
    · exact Or.inl (Except.error.inj h).symm
    · refine (descend_error_clear (fun front hfront text => ?_) h).imp_right fun h => ⟨h, hopen⟩
      exact hclear _ text ⟨front, hfront, rfl⟩

theorem makeDir_error_clear (hp : p.isUsable = true) (hclear : t.Clear home p)
    (h : t.makeDir home p = .error e) :
    e = .nameTooLong ∨ e = .notFound ∧ ¬t.Reaches home p ∨
      e = .alreadyThere ∧ p.Fits ∧ t.Stands home p := by
  rcases bind_eq_error.1 h with h | ⟨place, hloc, h⟩
  · exact (locate_error_clear hp hclear h).imp_right Or.inl
  · obtain ⟨hfits, hopen, rfl⟩ := locate_eq_ok.1 hloc
    rcases hfind : t.find? (p.placeOf home) with _ | text | _ <;> rw [hfind] at h
    · nomatch h
    · exact absurd hfind (hclear _ text (p.visits_placeOf home))
    · exact Or.inr (Or.inr ⟨(Except.error.inj h).symm, hfits, stands_iff.2 ⟨hopen, hfind⟩⟩)

theorem makeDir_error_open (hp : p.isUsable = true) (hopen : t.Reaches home p)
    (hfree : t.find? (p.placeOf home) = none) (h : t.makeDir home p = .error e) :
    e = .nameTooLong := by
  rcases bind_eq_error.1 h with hloc | ⟨place, hloc, _⟩
  · exact (locate_error hp hloc).2 hopen
  · rw [makeDir_eq_ok.2 ⟨(locate_eq_ok.1 hloc).1, hopen, hfree, rfl⟩] at h
    nomatch h

theorem write_error_open {text : String} (hp : p.isUsable = true) (hopen : t.Reaches home p)
    (hfree : t.find? (p.placeOf home) ≠ some .directory) (h : t.write home p text = .error e) :
    e = .nameTooLong := by
  rcases bind_eq_error.1 h with h | ⟨place, hloc, _⟩
  · exact (locate_error hp h).2 hopen
  · rw [write_eq_ok.2 ⟨(locate_eq_ok.1 hloc).1, hopen, hfree, rfl⟩] at h
    nomatch h

theorem rename_error_open (hp : p.isUsable = true) (hq : q.isUsable = true)
    (hpopen : t.Reaches home p) (hqopen : t.Reaches home q) (hnp : isNamed p = true)
    (hnq : isNamed q = true) (hthere : t.find? (p.placeOf home) ≠ none)
    (hfree : t.find? (q.placeOf home) = none) (hst : ¬p.placeOf home <+: q.placeOf home)
    (h : t.rename home p q = .error e) : e = .nameTooLong := by
  rcases bind_eq_error.1 h with hloc | ⟨source, hsource, htail⟩
  · exact (locate_error hp hloc).2 hpopen
  rcases bind_eq_error.1 htail with hloc | ⟨target, htarget, _⟩
  · exact (locate_error hq hloc).2 hqopen
  · obtain ⟨t', ht'⟩ := rename_to_nothing (locate_eq_ok.1 hsource).1 (locate_eq_ok.1 htarget).1
      hpopen hqopen hnp hnq hthere hfree hst
    rw [ht'] at h
    nomatch h

/-- One more name is looked for in the directory that the others lead to. -/
theorem Stands.reaches_concat {anchor : Anchor} {front : List String} (name : String)
    (h : t.Stands home ⟨anchor, front⟩) : t.Reaches home ⟨anchor, front ++ [name]⟩ := by
  show t.Open _ (front ++ [name])
  rw [open_append]
  refine ⟨h.reaches, open_cons.2 ⟨h.place, t.open_nil _⟩⟩

/-! ## Fresh names -/

/-- A scratch name is the name of one thing. -/
theorem isComponent_scratchName (k : Nat) : IsComponent (scratchName k) := by
  have hmem : ∀ c ∈ (scratchName k).toList, c ∈ ".bindery-".toList ∨ c.isDigit = true := by
    intro c hc
    rw [scratchName, String.toList_append, List.mem_append] at hc
    refine hc.imp_right fun hc => ?_
    have hc' : c ∈ Nat.toDigits 10 (firstScratch + k) := by simpa [Nat.repr] using hc
    exact Nat.isDigit_of_mem_toDigits (by decide) (by decide) hc'
  have hfirst : ∀ s : String, s.toList.length < 9 → scratchName k ≠ s := by
    rintro s hs rfl
    rw [scratchName, String.toList_append, List.length_append] at hs
    have : ".bindery-".toList.length = 9 := by decide
    omega
  refine ⟨hfirst _ (by decide), hfirst _ (by decide), hfirst _ (by decide), ?_, ?_⟩
  · intro h
    rcases hmem _ h with h | h
    · revert h
      decide
    · nomatch h
  · intro h
    rcases hmem _ h with h | h
    · revert h
      decide
    · nomatch h

theorem ne_scratchName {name : String} (h : name.toList.head? ≠ some '.') (k : Nat) :
    name ≠ scratchName k := by
  rintro rfl
  exact h (by rw [scratchName, String.toList_append]; rfl)

theorem scratchName_injective {j k : Nat} (h : scratchName j = scratchName k) : j = k := by
  have hdigits : Nat.toDigits 10 (firstScratch + j) = Nat.toDigits 10 (firstScratch + k) := by
    rw [← Nat.toList_repr, ← Nat.toList_repr, Nat.repr, Nat.repr]
    have hlist := congrArg String.toList h
    rw [scratchName, scratchName, String.toList_append, String.toList_append] at hlist
    exact List.append_cancel_left hlist
  have hback : ∀ n, Nat.ofDigitChars 10 (Nat.toDigits 10 n) 0 = n := fun _ =>
    Nat.ofDigitChars_toDigits (by decide) (by decide)
  have hsum := hback (firstScratch + j)
  rw [hdigits, hback] at hsum
  omega

/-- Of more names than there are entries one is free. -/
theorem exists_freshName (t : Tree) (place : Place) : ∃ name, t.freshName? place = some name := by
  rw [← Option.ne_none_iff_exists']
  intro hnone
  have htaken : ∀ k < t.entries.length + 1,
      place ++ [scratchName k] ∈ t.entries.map (·.1) := by
    intro k hk
    have hsome := List.find?_eq_none.1 hnone (scratchName k)
      (List.mem_map.2 ⟨k, List.mem_range.2 hk, rfl⟩)
    rw [Option.isNone_iff_eq_none, find?_of_ne_nil t (by simp)] at hsome
    obtain ⟨entry, hentry⟩ := Option.ne_none_iff_exists'.1 hsome
    obtain ⟨front, back, hentries, _⟩ := List.lookup_eq_some_iff.1 hentry
    refine List.mem_map.2 ⟨(_, entry), ?_, rfl⟩
    rw [hentries]
    exact List.mem_append_right _ List.mem_cons_self
  let places := (List.range (t.entries.length + 1)).map fun k => place ++ [scratchName k]
  have hnodup : places.Nodup := by
    refine List.Nodup.map ?_ List.nodup_range
    intro j k h
    exact scratchName_injective (List.head_eq_of_cons_eq (List.append_cancel_left h))
  have hsubset : places ⊆ t.entries.map (·.1) := by
    intro q hq
    obtain ⟨k, hk, rfl⟩ := List.mem_map.1 hq
    exact htaken k (List.mem_range.1 hk)
  have hlength := hnodup.length_le_of_subset hsubset
  rw [List.length_map, List.length_map, List.length_range] at hlength
  omega

end Tree

/-! ## Faults of operations -/

/-- `Only f home x t why` — if the operation fails, then with such a fault. -/
def Only {ε α : Type} (f : Failures) (home : Place) (x : ExceptT ε (StateM World) α) (t : Tree)
    (why : ε → Prop) : Prop :=
  Steps f home x t (fun _ _ => True) fun e _ => why e

variable {ε α β : Type} {f : Failures} {home : Place} {t : Tree}

/-- What two statements say of the same operation. -/
theorem Steps.and {x : ExceptT ε (StateM World) α} {good good' : α → Tree → Prop}
    {bad bad' : ε → Tree → Prop} (h : Steps f home x t good bad)
    (h' : Steps f home x t good' bad') :
    Steps f home x t (fun a t' => good a t' ∧ good' a t') (fun e t' => bad e t' ∧ bad' e t') := by
  intro w hw
  obtain ⟨t', ht', hs⟩ := h w hw
  obtain ⟨t'', ht'', hs'⟩ := h' w hw
  obtain rfl : t' = t'' := ht'.tree.symm.trans ht''.tree
  refine ⟨t', ht', ?_⟩
  cases hx : (x w).1 with
  | ok a =>
    rw [hx] at hs hs'
    exact ⟨hs, hs'⟩
  | error e =>
    rw [hx] at hs hs'
    exact ⟨hs, hs'⟩

namespace Only

variable {x : ExceptT ε (StateM World) α} {why why' : ε → Prop}

theorem mono (h : Only f home x t why) (hwhy : ∀ e, why e → why' e) : Only f home x t why' :=
  Steps.mono h (fun _ _ h => h) fun e _ => hwhy e

theorem pure (a : α) : Only f home (Pure.pure a : ExceptT ε (StateM World) α) t why :=
  Steps.pure trivial

theorem of_steps {good : α → Tree → Prop} (h : Steps f home x t good fun e _ => why e) :
    Only f home x t why := Steps.mono h (fun _ _ _ => trivial) fun _ _ h => h

/-- What follows an operation fails as it does after what the operation has done. -/
theorem bind {good : α → Tree → Prop} {bad : ε → Tree → Prop}
    {k : α → ExceptT ε (StateM World) β} (h : Steps f home x t good bad)
    (hx : Only f home x t why) (hk : ∀ a t', good a t' → Only f home (k a) t' why) :
    Only f home (x >>= k) t why :=
  Steps.bind ((h.and hx).mono (fun _ _ h => h.1) fun _ _ h => h.2) hk

theorem adapt {ε' : Type} {g : ε → ε'} {why : ε' → Prop}
    (h : Only f home x t fun e => why (g e)) : Only f home (ExceptT.adapt g x) t why :=
  Steps.adapt h

theorem adapt_bind {ε' : Type} {g : ε → ε'} {why : ε' → Prop} {good : α → Tree → Prop}
    {bad : ε → Tree → Prop} {k : α → ExceptT ε' (StateM World) β}
    (h : Steps f home x t good bad) (hx : Only f home x t fun e => why (g e))
    (hk : ∀ a t', good a t' → Only f home (k a) t' why) :
    Only f home (ExceptT.adapt g x >>= k) t why := by
  have h' : Steps f home (ExceptT.adapt g x) t good fun _ _ => True :=
    Steps.adapt (h.mono (fun _ _ h => h) fun _ _ _ => trivial)
  exact bind h' (adapt hx) hk

end Only

theorem only_look {p : Path} : Only f home (Disk.look p) t (· = .nameTooLong) :=
  Only.of_steps ((steps_look p).mono (fun _ _ h => h) fun _ _ h => look_error h.2)

theorem only_look_map {g : Option EntryKind → Bool} {p : Path} :
    Only f home (do return g (← Disk.look p)) t (· = .nameTooLong) :=
  Only.bind (steps_look p) only_look fun _ _ _ => Only.pure _

variable (hf : f.Quiet)
include hf

theorem only_write {p : Path} {text : String} (hp : p.isUsable = true) (hopen : t.Reaches home p)
    (hfree : t.find? (p.placeOf home) ≠ some .directory) :
    Only f home (Disk.write p text) t (· = .nameTooLong) :=
  Only.of_steps ((steps_write p text).mono (fun _ _ h => h) fun _ _ h =>
    write_error_open hp hopen hfree (h.2.eq_error hf))

theorem only_move {p q : Path} (hp : p.isUsable = true) (hq : q.isUsable = true)
    (hpopen : t.Reaches home p) (hqopen : t.Reaches home q) (hnp : isNamed p = true)
    (hnq : isNamed q = true) (hthere : t.find? (p.placeOf home) ≠ none)
    (hfree : t.find? (q.placeOf home) = none) (hst : ¬p.placeOf home <+: q.placeOf home) :
    Only f home (Disk.move p q) t (· = .nameTooLong) :=
  Only.of_steps ((steps_move p q).mono (fun _ _ h => h) fun _ _ h =>
    rename_error_open hp hq hpopen hqopen hnp hnq hthere hfree hst (h.2.eq_error hf))

/-- A directory is made where nothing stands. -/
theorem steps_makeDir_clear {p : Path} (hp : p.isUsable = true) (hclear : t.Clear home p)
    (hfree : t.find? (p.placeOf home) = none) :
    Steps f home (Disk.makeDir p) t (fun _ _ => True)
      (fun e t' => t' = t ∧ (e = .nameTooLong ∨ e = .notFound ∧ ¬t.Reaches home p)) := by
  refine (steps_makeDir p).mono (fun _ _ _ => trivial) ?_
  rintro e t' ⟨rfl, hrefused⟩
  refine ⟨rfl, ?_⟩
  rcases makeDir_error_clear hp hclear (hrefused.eq_error hf) with h | h | ⟨_, _, hstands⟩
  · exact Or.inl h
  · exact Or.inr h
  · rw [hstands.place] at hfree
    nomatch hfree

theorem only_makeDir {p : Path} (hp : p.isUsable = true) (hopen : t.Reaches home p)
    (hfree : t.find? (p.placeOf home) = none) :
    Only f home (Disk.makeDir p) t (· = .nameTooLong) :=
  Only.of_steps ((steps_makeDir p).mono (fun _ _ h => h) fun _ _ h =>
    makeDir_error_open hp hopen hfree (h.2.eq_error hf))

/-- A directory that is there already does not matter. -/
theorem steps_ensureDir_clear {p : Path} (hp : p.isUsable = true) (hclear : t.Clear home p) :
    Steps f home (Disk.ensureDir p) t (fun _ _ => True)
      (fun e t' => t' = t ∧ (e = .nameTooLong ∨ e = .notFound ∧ ¬t.Reaches home p)) := by
  refine Steps.tryCatch ((steps_makeDir p).mono (fun _ _ _ => trivial) fun _ _ h => h) ?_
  rintro e t ⟨rfl, hrefused⟩
  refine Steps.bind ((steps_look_map p).mono (fun _ _ h => h) ?_) ?_
  · rintro e t' ⟨rfl, hlook⟩
    exact ⟨rfl, Or.inl (look_error hlook)⟩
  · rintro b t ⟨rfl, k, hlook, rfl⟩
    refine Steps.ite (fun _ => Steps.pure trivial) fun hc => Steps.throw ⟨rfl, ?_⟩
    rcases makeDir_error_clear hp hclear (hrefused.eq_error hf) with
      h | h | ⟨rfl, hfits, hstands⟩
    · exact Or.inl h
    · exact Or.inr h
    · have hsome := look_eq_some.2 ⟨hfits, hstands.reaches,
        (congrArg (Option.map Entry.kind) hstands.place :)⟩
      obtain rfl := Except.ok.inj (hlook.symm.trans hsome)
      exact absurd rfl hc

theorem only_ensureDirsAt (anchor : Anchor) (reversed : List String)
    (hp : (⟨anchor, reversed.reverse⟩ : Path).isUsable = true)
    (hclear : t.Clear home ⟨anchor, reversed.reverse⟩) :
    Only f home (Disk.ensureDirsAt anchor reversed) t (· = .nameTooLong) := by
  induction reversed generalizing t with
  | nil =>
    refine Only.of_steps ((steps_ensureDir_clear hf hp hclear).mono (fun _ _ h => h) ?_)
    rintro e _ ⟨_, h | ⟨_, hnot⟩⟩
    · exact h
    · exact absurd (t.open_nil _) hnot
  | cons name above ih =>
    have hfirst : above.reverse <+: (name :: above).reverse :=
      List.reverse_prefix.2 (List.suffix_cons name above)
    refine Steps.tryCatch (steps_ensureDir_clear hf hp hclear) ?_
    rintro e t ⟨rfl, hcase⟩
    refine Steps.ite (fun hother => Steps.throw_bind ?_) fun _ => ?_
    · rcases hcase with h | ⟨rfl, _⟩
      · exact h
      · exact absurd hother (by decide)
    · refine Only.bind (steps_ensureDirsAt hf.ofDisk anchor above)
        (ih (isUsable_of_first hfirst hp) (hclear.of_first hfirst)) ?_
      intro _ t' hmade
      refine Only.of_steps ((steps_ensureDir_clear hf hp (hclear.wayMade hmade.way)).mono
        (fun _ _ h => h) ?_)
      -- The way to the directory has just been made, so it cannot be missing again.
      rintro e _ ⟨_, h | ⟨_, hnot⟩⟩
      · exact h
      · rw [List.reverse_cons] at hnot
        exact absurd (hmade.stands.reaches_concat name) hnot

/-- Where no file is in the way, directories can be made. -/
theorem only_ensureDirs {p : Path} (hp : p.isUsable = true) (hclear : t.Clear home p) :
    Only f home (Disk.ensureDirs p) t (· = .nameTooLong) := by
  refine only_ensureDirsAt hf p.anchor p.names.reverse ?_ ?_
  · rw [List.reverse_reverse]
    exact hp
  · rw [List.reverse_reverse]
    exact hclear

theorem only_makeDirs {p : Path} (hp : p.isUsable = true) (hclear : t.Clear home p)
    (hfree : t.find? (p.placeOf home) = none) (hnames : p.names ≠ [])
    (habove : ¬p.parent.Visits home (p.placeOf home)) :
    Only f home (Disk.makeDirs p) t (· = .nameTooLong) := by
  have hfirst : p.names.dropLast <+: p.names := List.dropLast_prefix _
  refine Steps.tryCatch (steps_makeDir_clear hf hp hclear hfree) ?_
  rintro e t ⟨rfl, hcase⟩
  refine Steps.ite (fun hother => Steps.throw_bind ?_) fun _ => ?_
  · rcases hcase with h | ⟨rfl, _⟩
    · exact h
    · rw [List.isEmpty_eq_false_iff.2 hnames] at hother
      exact absurd hother (by decide)
  · refine Only.bind (steps_ensureDirs hf.ofDisk p.parent)
      (only_ensureDirs hf (isUsable_of_first hfirst hp) (hclear.of_first hfirst)) ?_
    intro _ t' hmade
    refine only_makeDir hf hp ?_ ?_
    · have hopen := hmade.stands.reaches_concat (p.names.getLast hnames)
      rw [List.dropLast_concat_getLast] at hopen
      exact hopen
    · rw [hmade.way.off habove]
      exact hfree

/-- In a directory a scratch directory can be made. -/
theorem only_makeScratch {p : Path} (hp : p.isUsable = true) (hstands : t.Stands home p) :
    Only f home (Disk.makeScratch p) t (· = .nameTooLong) := by
  refine Only.of_steps ((steps_makeScratch p).mono (fun _ _ h => h) ?_)
  rintro e _ ⟨_, hrefused⟩
  rcases bind_eq_error.1 (hrefused.eq_error hf) with h | ⟨place, hloc, h⟩
  · exact (locate_error hp h).2 hstands.reaches
  · obtain ⟨_, _, rfl⟩ := locate_eq_ok.1 hloc
    obtain ⟨name, hname⟩ := t.exists_freshName (p.placeOf home)
    rw [hstands.place, hname] at h
    obtain ⟨k, _, rfl⟩ := List.mem_map.1 (List.mem_of_find?_eq_some hname)
    have hcomponent := isComponent_scratchName k
    have hfree : t.find? ((p.below [scratchName k]).placeOf home) = none := by
      rw [Path.placeOf_below hcomponent.downward]
      have hnone := List.find?_some hname
      exact Option.isNone_iff_eq_none.1 hnone
    have hopen := reaches_below_one hstands hcomponent.notUp
    have husable : (p.below [scratchName k]).isUsable = true :=
      Path.isUsable_below.2 ⟨hp, List.forall_mem_singleton.2 hcomponent.noNul⟩
    rcases bind_eq_error.1 h with h | ⟨_, _, h⟩
    · exact makeDir_error_open husable hopen hfree h
    · nomatch h

end Bindery
