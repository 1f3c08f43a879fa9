/-
  STEPS IN A WORLD, by what they do to the tree.

  `Steps f home x t good bad` says of an operation `x` what holds after it, whether it succeeds
  (`good`) or fails (`bad`), when it starts on the tree `t` with the working directory `home` and
  the failures `f`.  How many operations there have been, and so which of them are about to fail,
  is not part of it: a statement about steps holds at every point of a run.

  There is one rule for each way of putting operations together, and one lemma for each operation
  of a disk.  An operation that fails has done nothing, and it fails because the failures have its
  fault (`f.forward n = some e`) or because the tree does not allow it.
-/
import Bindery.Disk.World

namespace Bindery

variable {ε ε' α β : Type}

/-! ## Worlds, as far as steps go -/

/-- What steps know of a world. -/
structure World.At (w : World) (f : Failures) (home : Place) (t : Tree) : Prop where
  failures : w.failures = f
  home : w.home = home
  tree : w.tree = t

/-- What holds of an outcome and the tree it comes with. -/
def Settles (good : α → Tree → Prop) (bad : ε → Tree → Prop) : Except ε α → Tree → Prop
  | .ok a => good a
  | .error e => bad e

/-- `Steps f home x t good bad` — from the tree `t` the operation succeeds with `good` or fails
with `bad`. -/
def Steps (f : Failures) (home : Place) (x : ExceptT ε (StateM World) α) (t : Tree)
    (good : α → Tree → Prop) (bad : ε → Tree → Prop) : Prop :=
  ∀ w : World, w.At f home t →
    ∃ t', (x w).2.At f home t' ∧ Settles good bad (x w).1 t'

variable {f : Failures} {home : Place} {t : Tree}

/-! ## Rules -/

/-- One step after another, whatever the disk is: a fault of the first is the outcome of both. -/
theorem step_bind {σ : Type} {x : ExceptT ε (StateM σ) α} {k : α → ExceptT ε (StateM σ) β} {s : σ} :
    (x >>= k) s = match x s with
      | (.ok a, s') => k a s'
      | (.error e, s') => (.error e, s') := by
  show (ExceptT.bindCont k (x s).1) (x s).2 = _
  rcases x s with ⟨e | a, s'⟩ <;> rfl

namespace Steps

variable {good good' : α → Tree → Prop} {bad bad' : ε → Tree → Prop}
  {x : ExceptT ε (StateM World) α}

theorem mono (h : Steps f home x t good bad) (hgood : ∀ a t', good a t' → good' a t')
    (hbad : ∀ e t', bad e t' → bad' e t') : Steps f home x t good' bad' := by
  intro w hw
  obtain ⟨t', ht', hs⟩ := h w hw
  refine ⟨t', ht', ?_⟩
  cases hx : (x w).1 with
  | ok a =>
    rw [hx] at hs
    exact hgood a t' hs
  | error e =>
    rw [hx] at hs
    exact hbad e t' hs

theorem pure {a : α} (h : good a t) :
    Steps f home (Pure.pure a : ExceptT ε (StateM World) α) t good bad :=
  fun _ hw => ⟨t, hw, h⟩

theorem throw {e : ε} (h : bad e t) :
    Steps f home (MonadExcept.throw e : ExceptT ε (StateM World) α) t good bad :=
  fun _ hw => ⟨t, hw, h⟩

theorem bind {k : α → ExceptT ε (StateM World) β} {goodk : β → Tree → Prop}
    (h : Steps f home x t good bad)
    (hk : ∀ a t', good a t' → Steps f home (k a) t' goodk bad) :
    Steps f home (x >>= k) t goodk bad := by
  intro w hw
  obtain ⟨t', ht', hs⟩ := h w hw
  rw [step_bind]
  cases hx : x w with
  | mk r w' =>
    rw [hx] at ht' hs
    cases r with
    | ok a => exact hk a t' hs w' ht'
    | error e => exact ⟨t', ht', hs⟩

/-- What stands behind a fault is not reached. -/
theorem throw_bind {e : ε} {k : α → ExceptT ε (StateM World) β} {goodk : β → Tree → Prop}
    (h : bad e t) :
    Steps f home ((MonadExcept.throw e : ExceptT ε (StateM World) α) >>= k) t goodk bad :=
  fun _ hw => ⟨t, hw, h⟩

theorem ite {c : Prop} [Decidable c] {y : ExceptT ε (StateM World) α}
    (hx : c → Steps f home x t good bad) (hy : ¬c → Steps f home y t good bad) :
    Steps f home (if c then x else y) t good bad := by
  by_cases h : c
  · rw [if_pos h]
    exact hx h
  · rw [if_neg h]
    exact hy h

/-- A step whose outcome, whatever it is, is looked at by the next. -/
theorem tryCatch {handle : ε → ExceptT ε (StateM World) α}
    (h : Steps f home x t good bad')
    (hh : ∀ e t', bad' e t' → Steps f home (handle e) t' good bad) :
    Steps f home (MonadExcept.tryCatch x handle) t good bad := by
  intro w hw
  obtain ⟨t', ht', hs⟩ := h w hw
  have hrun : (MonadExcept.tryCatch x handle : ExceptT ε (StateM World) α) w = match x w with
      | (.ok a, w') => (.ok a, w')
      | (.error e, w') => handle e w' := by
    show (match (x w).1 with
      | .ok a => Pure.pure (Except.ok a)
      | .error e => handle e : StateM World (Except ε α)) (x w).2 = _
    cases hx : x w with
    | mk r w' => cases r <;> rfl
  rw [hrun]
  cases hx : x w with
  | mk r w' =>
    rw [hx] at ht' hs
    cases r with
    | ok a => exact ⟨t', ht', hs⟩
    | error e => exact hh e t' hs w' ht'

theorem adapt {g : ε → ε'} {bad' : ε' → Tree → Prop}
    (h : Steps f home x t good fun e t' => bad' (g e) t') :
    Steps f home (ExceptT.adapt g x) t good bad' := by
  intro w hw
  obtain ⟨t', ht', hs⟩ := h w hw
  have hrun : (ExceptT.adapt g x) w = ((x w).1.mapError g, (x w).2) := rfl
  rw [hrun]
  refine ⟨t', ht', ?_⟩
  cases hx : (x w).1 with
  | ok a =>
    rw [hx] at hs
    exact hs
  | error e =>
    rw [hx] at hs
    exact hs

/-- An operation that keeps its fault as an answer. -/
theorem lift_run {bad' : ε' → Tree → Prop} (h : Steps f home x t good bad) :
    Steps f home (ExceptT.lift (ExceptT.run x) : ExceptT ε' (StateM World) (Except ε α)) t
      (Settles good bad) bad' := by
  intro w hw
  obtain ⟨t', ht', hs⟩ := h w hw
  exact ⟨t', ht', hs⟩

/-- Two operations that cannot fail, one after the other. -/
theorem lift_bind {y : StateM World α} {k : α → StateM World β} {goodk : β → Tree → Prop}
    (h : Steps f home (ExceptT.lift y : ExceptT ε (StateM World) α) t good bad)
    (hk : ∀ a t', good a t' →
      Steps f home (ExceptT.lift (k a) : ExceptT ε (StateM World) β) t' goodk bad) :
    Steps f home (ExceptT.lift (y >>= k) : ExceptT ε (StateM World) β) t goodk bad := by
  intro w hw
  obtain ⟨t', ht', hs⟩ := h w hw
  exact hk (y w).1 t' hs (y w).2 ht'

end Steps

/-! ## Operations of a disk -/

/-- `Refused f r e` — an operation fails with this fault, because it is its turn or because the
tree does not allow it. -/
def Refused (f : Failures) (r : Except DiskFault α) (e : DiskFault) : Prop :=
  (∃ n, f.forward n = some e) ∨ r = .error e

theorem steps_act {fails : Failures → Nat → Option DiskFault}
    {operation : Tree → Place → Except DiskFault (α × Tree)} :
    Steps f home (World.act fails operation) t
      (fun a t' => operation t home = .ok (a, t'))
      (fun e t' => t' = t ∧ ((∃ n, fails f n = some e) ∨ operation t home = .error e)) := by
  rintro ⟨tree, home, operations, failures, events⟩ ⟨rfl, rfl, rfl⟩
  unfold World.act
  dsimp only
  generalize hfail : fails failures operations = due
  generalize hop : operation tree home = r
  rcases due with _ | e
  · rcases r with e | ⟨a, t⟩
    · exact ⟨tree, ⟨rfl, rfl, rfl⟩, rfl, Or.inr rfl⟩
    · exact ⟨t, ⟨rfl, rfl, rfl⟩, rfl⟩
  · exact ⟨tree, ⟨rfl, rfl, rfl⟩, rfl, Or.inl ⟨operations, hfail⟩⟩

/-- The answer of an operation that only changes the tree. -/
theorem map_unit_eq_ok {r : Except DiskFault Tree} {u : Unit} {t' : Tree} :
    (do return ((), ← r) : Except DiskFault (Unit × Tree)) = .ok (u, t') ↔ r = .ok t' := by
  cases r with
  | error e => exact ⟨fun h => (nomatch h), fun h => (nomatch h)⟩
  | ok t =>
    show Except.ok ((), t) = _ ↔ _
    simp

theorem map_unit_eq_error {r : Except DiskFault Tree} {e : DiskFault} :
    (do return ((), ← r) : Except DiskFault (Unit × Tree)) = .error e ↔ r = .error e := by
  cases r with
  | error e' =>
    show Except.error e' = _ ↔ _
    simp
  | ok t => exact ⟨fun h => (nomatch h), fun h => (nomatch h)⟩

theorem steps_makeDir (p : Path) :
    Steps f home (Disk.makeDir p) t (fun _ t' => t.makeDir home p = .ok t')
      (fun e t' => t' = t ∧ Refused f (t.makeDir home p) e) :=
  steps_act.mono (fun _ _ h => map_unit_eq_ok.1 h)
    (fun _ _ h => ⟨h.1, h.2.imp_right map_unit_eq_error.1⟩)

theorem steps_makeScratch (p : Path) :
    Steps f home (Disk.makeScratch p) t (fun q t' => t.makeScratch home p = .ok (q, t'))
      (fun e t' => t' = t ∧ Refused f (t.makeScratch home p) e) := steps_act

theorem steps_write (p : Path) (text : String) :
    Steps f home (Disk.write p text) t (fun _ t' => t.write home p text = .ok t')
      (fun e t' => t' = t ∧ Refused f (t.write home p text) e) :=
  steps_act.mono (fun _ _ h => map_unit_eq_ok.1 h)
    (fun _ _ h => ⟨h.1, h.2.imp_right map_unit_eq_error.1⟩)

theorem steps_move (p q : Path) :
    Steps f home (Disk.move p q) t (fun _ t' => t.rename home p q = .ok t')
      (fun e t' => t' = t ∧ Refused f (t.rename home p q) e) :=
  steps_act.mono (fun _ _ h => map_unit_eq_ok.1 h)
    (fun _ _ h => ⟨h.1, h.2.imp_right map_unit_eq_error.1⟩)

theorem steps_putBack (p q : Path) :
    Steps f home (Disk.restore p q) t (fun _ t' => t.rename home p q = .ok t')
      (fun e t' => t' = t ∧ ((∃ n, f.restore n = some e) ∨ t.rename home p q = .error e)) :=
  steps_act.mono (fun _ _ h => map_unit_eq_ok.1 h)
    (fun _ _ h => ⟨h.1, h.2.imp_right map_unit_eq_error.1⟩)

/-- Where nothing keeps from putting back, only the tree can. -/
theorem steps_restore (hf : ∀ n, f.restore n = none) (p q : Path) :
    Steps f home (Disk.restore p q) t (fun _ t' => t.rename home p q = .ok t')
      (fun e t' => t' = t ∧ t.rename home p q = .error e) := by
  refine (steps_putBack p q).mono (fun _ _ h => h) ?_
  rintro e t' ⟨ht, ⟨n, hn⟩ | h⟩
  · rw [hf n] at hn
    nomatch hn
  · exact ⟨ht, h⟩

theorem steps_look (p : Path) :
    Steps f home (Disk.look p) t (fun k t' => t' = t ∧ t.look home p = .ok k)
      (fun e t' => t' = t ∧ t.look home p = .error e) := by
  rintro ⟨tree, home, operations, failures, events⟩ ⟨rfl, rfl, rfl⟩
  refine ⟨tree, ⟨rfl, rfl, rfl⟩, ?_⟩
  show Settles _ _ (tree.look home p) tree
  cases tree.look home p with
  | ok k => exact ⟨rfl, rfl⟩
  | error e => exact ⟨rfl, rfl⟩

theorem steps_read (p : Path) :
    Steps f home (Disk.read p) t (fun s t' => t' = t ∧ t.read home p = .ok s)
      (fun e t' => t' = t ∧ t.read home p = .error e) := by
  rintro ⟨tree, home, operations, failures, events⟩ ⟨rfl, rfl, rfl⟩
  refine ⟨tree, ⟨rfl, rfl, rfl⟩, ?_⟩
  show Settles _ _ (tree.read home p) tree
  cases tree.read home p with
  | ok k => exact ⟨rfl, rfl⟩
  | error e => exact ⟨rfl, rfl⟩

/-- Looking for one kind of thing, or for anything. -/
theorem steps_look_map {g : Option EntryKind → Bool} (p : Path) :
    Steps f home (do return g (← Disk.look p)) t
      (fun b t' => t' = t ∧ ∃ k, t.look home p = .ok k ∧ b = g k)
      (fun e t' => t' = t ∧ t.look home p = .error e) := by
  refine Steps.bind (steps_look p) ?_
  rintro k t' ⟨rfl, hk⟩
  exact Steps.pure ⟨rfl, k, hk, rfl⟩

/-- A directory is removed, or its removal is refused and it stays. -/
theorem steps_tryDiscard (p : Path) {bad : ε → Tree → Prop} :
    Steps f home (ExceptT.lift (Disk.discard p)) t
      (fun _ t' => (∃ n, f.discard n = true) ∧ t' = t ∨ t' = t.discard home p) bad := by
  rintro ⟨tree, home, operations, failures, events⟩ ⟨rfl, rfl, rfl⟩
  have hrun : (ExceptT.lift (Disk.discard p) : ExceptT ε (StateM World) Unit)
      ⟨tree, home, operations, failures, events⟩ =
        (.ok (), ((Disk.discard p : StateM World Unit)
          ⟨tree, home, operations, failures, events⟩).2) := rfl
  have hdiscard : (Disk.discard p : StateM World Unit)
      ⟨tree, home, operations, failures, events⟩ =
        if failures.discard operations then
          ((), ⟨tree, home, operations + 1, failures, events⟩)
        else ((), ⟨tree.discard home p, home, operations + 1, failures, events⟩) := rfl
  rw [hrun, hdiscard]
  cases hrefused : failures.discard operations with
  | true => exact ⟨_, ⟨rfl, rfl, rfl⟩, Or.inl ⟨⟨operations, hrefused⟩, rfl⟩⟩
  | false => exact ⟨_, ⟨rfl, rfl, rfl⟩, Or.inr rfl⟩

/-- Where nothing keeps from removing, a directory is removed. -/
theorem steps_discard (hf : ∀ n, f.discard n = false) (p : Path) {bad : ε → Tree → Prop} :
    Steps f home (ExceptT.lift (Disk.discard p)) t (fun _ t' => t' = t.discard home p) bad := by
  refine (steps_tryDiscard p).mono ?_ fun _ _ h => h
  rintro _ t' (⟨⟨n, hn⟩, _⟩ | h)
  · rw [hf n] at hn
    nomatch hn
  · exact h

end Bindery
