/-
  READERS: how the description language is taken apart.

  A reader takes some text off the front of its input and returns what it read with the rest.
  That the rest is a suffix of the input is part of the type, so no combination of readers can
  invent text, and a loop over a reader that ADVANCES (the rest is shorter) ends.  Readers do not
  backtrack: every alternative of the language shows in its next characters.
-/
import Bindery.Text.Blank
import Bindery.Text.WordChar

namespace Bindery.Idl

/-- Takes a value off the front of a text. -/
structure Reader (α : Type) where
  /-- The value and the text behind it. -/
  run : List Char → Option (α × List Char)
  /-- The text behind is a suffix of the input. -/
  suffix : ∀ s a r, run s = some (a, r) → r <:+ s

namespace Reader

instance : Monad Reader where
  pure a := ⟨fun s => some (a, s), by
    intro s b r h
    obtain ⟨_, rfl⟩ := Prod.mk.inj (Option.some.inj h)
    exact List.suffix_refl _⟩
  bind p f := ⟨fun s => (p.run s).bind fun x => (f x.1).run x.2, by
    intro s b r h
    obtain ⟨⟨a, t⟩, hp, hf⟩ := Option.bind_eq_some_iff.1 h
    exact ((f a).suffix t b r hf).trans (p.suffix s a t hp)⟩

theorem run_bind {α β : Type} (p : Reader α) (f : α → Reader β) (s : List Char) :
    (p >>= f).run s = (p.run s).bind fun x => (f x.1).run x.2 := rfl

theorem run_pure {α : Type} (a : α) (s : List Char) :
    (pure a : Reader α).run s = some (a, s) := rfl

/-- Every successful read leaves a shorter text. -/
def Advances {α : Type} (p : Reader α) : Prop :=
  ∀ s a r, p.run s = some (a, r) → r.length < s.length

/-- A reader that starts by advancing advances. -/
theorem Advances.bind {α β : Type} {p : Reader α} (hp : p.Advances) (f : α → Reader β) :
    (p >>= f).Advances := by
  intro s b r h
  obtain ⟨⟨a, t⟩, hs, hf⟩ := Option.bind_eq_some_iff.1 (run_bind p f s ▸ h)
  exact Nat.lt_of_le_of_lt ((f a).suffix t b r hf).length_le (hp s a t hs)

/-! ## Single readers -/

/-- Exactly the given text. -/
def exactly (t : List Char) : Reader Unit where
  run s := if t <+: s then some ((), s.drop t.length) else none
  suffix s a r h := by
    split at h
    · obtain ⟨_, rfl⟩ := Prod.mk.inj (Option.some.inj h)
      exact List.drop_suffix _ _
    · cases h

theorem exactly_advances {t : List Char} (ht : t ≠ []) : (exactly t).Advances := by
  intro s a r h
  simp only [exactly] at h
  split at h
  · rename_i hp
    obtain ⟨_, rfl⟩ := Prod.mk.inj (Option.some.inj h)
    have := hp.length_le
    have := List.length_pos_iff.2 ht
    simp only [List.length_drop]
    omega
  · cases h

/-- The longest run of characters with the property, which may be empty. -/
def run0 (p : Char → Bool) : Reader (List Char) where
  run s := some (s.takeWhile p, s.dropWhile p)
  suffix s a r h := by
    obtain ⟨_, rfl⟩ := Prod.mk.inj (Option.some.inj h)
    exact List.dropWhile_suffix p

/-- The longest run of characters with the property; there has to be one. -/
def run1 (p : Char → Bool) : Reader (List Char) where
  run s := if (s.takeWhile p).isEmpty then none else some (s.takeWhile p, s.dropWhile p)
  suffix s a r h := by
    split at h
    · cases h
    · obtain ⟨_, rfl⟩ := Prod.mk.inj (Option.some.inj h)
      exact List.dropWhile_suffix p

/-- Everything before the next `c`, and that `c`. -/
def through (c : Char) : Reader (List Char) where
  run s :=
    match s.dropWhile (· != c) with
    | [] => none
    | _ :: r => some (s.takeWhile (· != c), r)
  suffix s a r h := by
    split at h
    · cases h
    · rename_i d t hd
      obtain ⟨_, rfl⟩ := Prod.mk.inj (Option.some.inj h)
      exact (List.suffix_cons d t).trans (hd ▸ List.dropWhile_suffix _)

/-- The text that is still to be read. -/
def remaining : Reader (List Char) where
  run s := some (s, s)
  suffix s a r h := by
    obtain ⟨_, rfl⟩ := Prod.mk.inj (Option.some.inj h)
    exact List.suffix_refl _

/-- Nothing, at the end of the text only. -/
def atEnd : Reader Unit where
  run s := if s.isEmpty then some ((), s) else none
  suffix s a r h := by
    split at h
    · obtain ⟨_, rfl⟩ := Prod.mk.inj (Option.some.inj h)
      exact List.suffix_refl _
    · cases h

/-- The first reader, or the second where the first finds nothing. -/
def orElse {α : Type} (p q : Reader α) : Reader α where
  run s := (p.run s).or (q.run s)
  suffix s a r h := by
    cases hp : p.run s with
    | none => rw [hp, Option.none_or] at h; exact q.suffix s a r h
    | some x => rw [hp, Option.some_or] at h; exact p.suffix s a r (hp.trans h)

theorem Advances.orElse {α : Type} {p q : Reader α} (hp : p.Advances) (hq : q.Advances) :
    (p.orElse q).Advances := by
  intro s a r h
  simp only [Reader.orElse] at h
  cases hs : p.run s with
  | none => rw [hs, Option.none_or] at h; exact hq s a r h
  | some x => rw [hs, Option.some_or] at h; exact hp s a r (hs.trans h)

/-- What the reader finds, or nothing. -/
def opt {α : Type} (p : Reader α) : Reader (Option α) := (some <$> p).orElse (pure none)

/-! ## The lexical classes -/

/-- Blanks, perhaps none. -/
def blanks : Reader Unit := do let _ ← run0 Text.isBlank

/-- At least one blank. -/
def gap : Reader Unit := do let _ ← run1 Text.isBlank

/-- A word. -/
def word : Reader String := String.ofList <$> run1 Text.isWord

/-- One given character. -/
def char (c : Char) : Reader Unit := exactly [c]

/-- One given character, with blanks in front of it allowed. -/
def punctuation (c : Char) : Reader Unit := do
  blanks
  char c

end Reader

end Bindery.Idl
