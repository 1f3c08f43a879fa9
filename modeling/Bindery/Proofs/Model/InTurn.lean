/-
  CHECKING IN TURN: what a chain of checks comes to.

  Module names, types, parameters and functions are all checked the same way: one after the
  other, each against what came of those before it.  `Checked.each` is that way with the single
  check as an argument.  It succeeds exactly when every check does (`each_eq_ok`), and a fault of
  it is the fault of the first check that fails (`each_eq_error`).

  Where a check asks something of the value alone (`good`) and something of it beside each earlier
  one (`apart`), a whole chain asks that all are good and that any two are apart
  (`each_nil_eq_ok`).  That turns the order of checking into a statement without an order; only
  a fault still knows what stands before it (`each_nil_eq_error`).
-/
import Mathlib.Data.List.Forall2
import Bindery.Model.Check
import Bindery.Proofs.Outcome

namespace Bindery.Checked

variable {α : Type}

/-! ## A chain -/

/-- Checks values one after the other, each against what came of those before it. -/
def each (check : List α → Value → Checked α) (before : List α) :
    List Value → Checked (List α)
  | [] => .ok before
  | v :: vs => do
    let a ← check before v
    each check (before ++ [a]) vs

/-- `Passes check before vs as` — `as` is what comes of `vs`, checked behind `before`. -/
def Passes (check : List α → Value → Checked α) : List α → List Value → List α → Prop
  | _, [], [] => True
  | before, v :: vs, a :: as => check before v = .ok a ∧ Passes check (before ++ [a]) vs as
  | _, _, _ => False

theorem each_eq_ok {check : List α → Value → Checked α} {vs : List Value} {before l : List α} :
    each check before vs = .ok l ↔ ∃ as, l = before ++ as ∧ Passes check before vs as := by
  induction vs generalizing before with
  | nil =>
    constructor
    · intro h
      exact ⟨[], by rw [List.append_nil]; exact (Except.ok.inj h).symm, trivial⟩
    · rintro ⟨as, rfl, h⟩
      cases as with
      | nil => simp [each]
      | cons a as => exact h.elim
  | cons v vs ih =>
    rw [each, bind_eq_ok]
    constructor
    · rintro ⟨a, ha, h⟩
      obtain ⟨as, rfl, has⟩ := ih.1 h
      exact ⟨a :: as, by simp, ha, has⟩
    · rintro ⟨as, rfl, h⟩
      cases as with
      | nil => exact h.elim
      | cons a as => exact ⟨a, h.1, ih.2 ⟨as, by simp, h.2⟩⟩

/-- The first check that fails is the one whose fault is reported. -/
theorem each_eq_error {check : List α → Value → Checked α} {vs : List Value} {before : List α}
    {e : ModelFault} :
    each check before vs = .error e ↔
      ∃ front v rest as, vs = front ++ v :: rest ∧ Passes check before front as ∧
        check (before ++ as) v = .error e := by
  induction vs generalizing before with
  | nil =>
    constructor
    · exact fun h => nomatch h
    · rintro ⟨front, v, rest, as, h, _⟩
      cases front <;> nomatch h
  | cons v vs ih =>
    rw [each, bind_eq_error]
    constructor
    · rintro (h | ⟨a, ha, h⟩)
      · exact ⟨[], v, vs, [], rfl, trivial, by rwa [List.append_nil]⟩
      · obtain ⟨front, w, rest, as, rfl, has, he⟩ := ih.1 h
        exact ⟨v :: front, w, rest, a :: as, rfl, ⟨ha, has⟩, by simpa using he⟩
    · rintro ⟨front, w, rest, as, h, has, he⟩
      cases front with
      | nil =>
        obtain ⟨rfl, rfl⟩ := List.cons.inj h
        cases as with
        | nil => exact Or.inl (by simpa using he)
        | cons a as => exact has.elim
      | cons u front =>
        obtain ⟨rfl, rfl⟩ := List.cons.inj h
        cases as with
        | nil => exact has.elim
        | cons a as =>
          exact Or.inr ⟨a, has.1, ih.2 ⟨front, w, rest, as, rfl, has.2, by simpa using he⟩⟩

/-! ## Chains without an order -/

/-- `Accepted means good apart as vs` — `as` is what the values mean, item by item, all of it is
good, and no two items are in each other's way. -/
structure Accepted (means : α → Value → Prop) (good : α → Prop) (apart : α → α → Prop)
    (as : List α) (vs : List Value) : Prop where
  means : List.Forall₂ means as vs
  good : ∀ a ∈ as, good a
  apart : as.Pairwise apart

/-- `StopsAt means good apart bad vs` — some value is `bad` behind what those before it mean, and
those before it are accepted. -/
def StopsAt (means : α → Value → Prop) (good : α → Prop) (apart : α → α → Prop)
    (bad : List α → Value → Prop) (vs : List Value) : Prop :=
  ∃ front v rest as, vs = front ++ v :: rest ∧ Accepted means good apart as front ∧ bad as v

section

variable {check : List α → Value → Checked α} {means : α → Value → Prop} {good : α → Prop}
  {apart : α → α → Prop}

/-- The invariant of a chain: what came before is good, so a check behind it is the stated one. -/
theorem passes_iff
    (h : ∀ before, (∀ b ∈ before, good b) → ∀ v a,
      check before v = .ok a ↔ means a v ∧ good a ∧ ∀ b ∈ before, apart b a)
    {vs : List Value} {before as : List α} (hb : ∀ b ∈ before, good b) :
    Passes check before vs as ↔
      Accepted means good apart as vs ∧ ∀ b ∈ before, ∀ a ∈ as, apart b a := by
  induction vs generalizing before as with
  | nil =>
    cases as with
    | nil => exact ⟨fun _ => ⟨⟨.nil, by simp, .nil⟩, by simp⟩, fun _ => trivial⟩
    | cons a as => exact ⟨fun h => h.elim, fun h => (nomatch h.1.means)⟩
  | cons v vs ih =>
    cases as with
    | nil => exact ⟨fun h => h.elim, fun h => (nomatch h.1.means)⟩
    | cons a as =>
      show check before v = .ok a ∧ Passes check (before ++ [a]) vs as ↔ _
      rw [h before hb]
      constructor
      · rintro ⟨⟨hm, hg, ha⟩, hrest⟩
        have hb' : ∀ b ∈ before ++ [a], good b :=
          List.forall_mem_append.2 ⟨hb, List.forall_mem_singleton.2 hg⟩
        obtain ⟨hacc, hap⟩ := (ih hb').1 hrest
        -- The tail was checked with `a` among what came before, so `a` is apart from all behind it.
        obtain ⟨hold, hnew⟩ := List.forall_mem_append.1 hap
        refine ⟨⟨.cons hm hacc.means, List.forall_mem_cons.2 ⟨hg, hacc.good⟩, ?_⟩, ?_⟩
        · exact List.pairwise_cons.2 ⟨List.forall_mem_singleton.1 hnew, hacc.apart⟩
        · exact fun b hbm => List.forall_mem_cons.2 ⟨ha b hbm, hold b hbm⟩
      · rintro ⟨⟨hm, hg, hp⟩, hap⟩
        obtain ⟨hm, hms⟩ := List.forall₂_cons.1 hm
        obtain ⟨hg, hgs⟩ := List.forall_mem_cons.1 hg
        obtain ⟨ha, hp⟩ := List.pairwise_cons.1 hp
        have hb' : ∀ b ∈ before ++ [a], good b :=
          List.forall_mem_append.2 ⟨hb, List.forall_mem_singleton.2 hg⟩
        refine ⟨⟨hm, hg, fun b hbm => hap b hbm a List.mem_cons_self⟩, ?_⟩
        refine (ih hb').2 ⟨⟨hms, hgs, hp⟩, List.forall_mem_append.2 ⟨?_, ?_⟩⟩
        · exact fun b hbm c hc => hap b hbm c (List.mem_cons_of_mem _ hc)
        · exact List.forall_mem_singleton.2 ha

theorem passes_nil_iff
    (h : ∀ before, (∀ b ∈ before, good b) → ∀ v a,
      check before v = .ok a ↔ means a v ∧ good a ∧ ∀ b ∈ before, apart b a)
    {vs : List Value} {as : List α} :
    Passes check [] vs as ↔ Accepted means good apart as vs := by
  rw [passes_iff h (by simp)]
  exact and_iff_left (by simp)

/-- All that pass a chain of checks are accepted, and only those. -/
theorem each_nil_eq_ok
    (h : ∀ before, (∀ b ∈ before, good b) → ∀ v a,
      check before v = .ok a ↔ means a v ∧ good a ∧ ∀ b ∈ before, apart b a)
    {vs : List Value} {as : List α} :
    each check [] vs = .ok as ↔ Accepted means good apart as vs := by
  rw [each_eq_ok]
  constructor
  · rintro ⟨as, rfl, hp⟩
    exact (passes_nil_iff h).1 hp
  · exact fun ha => ⟨as, rfl, (passes_nil_iff h).2 ha⟩

/-- A chain of checks ends in a fault at the first value that is not accepted. -/
theorem each_nil_eq_error
    (h : ∀ before, (∀ b ∈ before, good b) → ∀ v a,
      check before v = .ok a ↔ means a v ∧ good a ∧ ∀ b ∈ before, apart b a)
    {bad : List α → Value → Prop} {e : ModelFault}
    (he : ∀ before, (∀ b ∈ before, good b) → ∀ v, check before v = .error e ↔ bad before v)
    {vs : List Value} :
    each check [] vs = .error e ↔ StopsAt means good apart bad vs := by
  rw [each_eq_error]
  constructor
  · rintro ⟨front, v, rest, as, hvs, hp, hbad⟩
    have hacc := (passes_nil_iff h).1 hp
    exact ⟨front, v, rest, as, hvs, hacc, (he as hacc.good v).1 hbad⟩
  · rintro ⟨front, v, rest, as, hvs, hacc, hbad⟩
    exact ⟨front, v, rest, as, hvs, (passes_nil_iff h).2 hacc, (he as hacc.good v).2 hbad⟩

end

/-- A chain that gives back only what is new. -/
theorem each_eq_map (check : List α → Value → Checked α)
    (fresh : List α → List Value → Checked (List α))
    (hnil : ∀ before, fresh before [] = .ok [])
    (hcons : ∀ before v vs, fresh before (v :: vs) =
      (do let a ← check before v; return a :: (← fresh (before ++ [a]) vs)))
    (before : List α) (vs : List Value) :
    each check before vs = (before ++ ·) <$> fresh before vs := by
  induction vs generalizing before with
  | nil =>
    rw [hnil]
    show Except.ok before = Except.ok (before ++ [])
    rw [List.append_nil]
  | cons v vs ih =>
    rw [each, hcons]
    cases check before v with
    | error e => rfl
    | ok a =>
      show each check (before ++ [a]) vs = _ <$> (do return a :: (← fresh (before ++ [a]) vs))
      rw [ih]
      cases fresh (before ++ [a]) vs with
      | error e => rfl
      | ok as => exact congrArg Except.ok (List.append_cons before a as).symm

end Bindery.Checked
