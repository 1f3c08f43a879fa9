/-
  LOADING looks at the disk and changes nothing.

  An operation `Answers` a result when it comes to that result and leaves the tree as it is.  What a
  description is loaded as is such a result (`loadAt`).  It stays the same as long as the file of the
  description stays, with the way to it (`loadAt_kept`).
-/
import Bindery.Proofs.Disk.Effects
import Bindery.Proofs.Disk.Steps
import Bindery.Description

namespace Bindery

variable {ε α β : Type} {f : Failures} {home : Place} {t : Tree}

/-! ## Operations that only answer -/

/-- `Answers f home x t r` — from the tree `t` the operation comes to the result `r`, and the tree
stays as it is. -/
def Answers (f : Failures) (home : Place) (x : ExceptT ε (StateM World) α) (t : Tree)
    (r : Except ε α) : Prop :=
  Steps f home x t (fun a t' => t' = t ∧ r = .ok a) (fun e t' => t' = t ∧ r = .error e)

namespace Answers

variable {x : ExceptT ε (StateM World) α}

theorem pure (a : α) : Answers f home (Pure.pure a : ExceptT ε (StateM World) α) t (.ok a) :=
  Steps.pure ⟨rfl, rfl⟩

theorem throw (e : ε) :
    Answers f home (MonadExcept.throw e : ExceptT ε (StateM World) α) t (.error e) :=
  Steps.throw ⟨rfl, rfl⟩

theorem bind {k : α → ExceptT ε (StateM World) β} {r : Except ε α} {g : α → Except ε β}
    (hx : Answers f home x t r) (hk : ∀ a, Answers f home (k a) t (g a)) :
    Answers f home (x >>= k) t (r >>= g) := by
  refine Steps.bind (hx.mono (fun _ _ h => h) ?_) ?_
  · rintro e t' ⟨ht, rfl⟩
    exact ⟨ht, rfl⟩
  · rintro a t' ⟨rfl, rfl⟩
    exact hk a

/-- Behind an operation that is known to succeed. -/
theorem after {k : α → ExceptT ε (StateM World) β} {a : α} {r : Except ε β}
    (hx : Answers f home x t (.ok a)) (hk : Answers f home (k a) t r) :
    Answers f home (x >>= k) t r := by
  refine Steps.bind (hx.mono (fun _ _ h => h) fun _ _ h => (nomatch h.2)) ?_
  rintro b t' ⟨rfl, hb⟩
  cases hb
  exact hk

theorem adapt {ε' : Type} {g : ε → ε'} {r : Except ε α} (hx : Answers f home x t r) :
    Answers f home (ExceptT.adapt g x) t (r.mapError g) := by
  refine Steps.adapt (hx.mono (fun _ _ h => ?_) fun _ _ h => ?_)
  · exact ⟨h.1, by rw [h.2]; rfl⟩
  · exact ⟨h.1, by rw [h.2]; rfl⟩

/-- What is said on the console changes no tree. -/
theorem note (e : Event) :
    Answers f home (ExceptT.lift (Console.note e) : ExceptT ε (StateM World) Unit) t (.ok ()) := by
  rintro w ⟨hf, hhome, ht⟩
  exact ⟨t, ⟨hf, hhome, ht⟩, rfl, rfl⟩

theorem look (p : Path) : Answers f home (Disk.look p) t (t.look home p) :=
  steps_look p

theorem read (p : Path) : Answers f home (Disk.read p) t (t.read home p) :=
  steps_read p

theorem isFile (p : Path) :
    Answers f home (Disk.isFile p) t (do return (← t.look home p) == some .file) :=
  (look p).bind fun _ => pure _

end Answers

/-! ## Loading -/

namespace Description

/-- The entries of the description that stands at a path. -/
def readAt [MarkupReader] (t : Tree) (home : Place) (path : Path) :
    Except LoadFault (List (Value × Value)) := do
  let there ← (do return (← t.look home path) == some .file : Except DiskFault Bool).mapError .disk
  if !there then .error (.notFound path)
  else
    let text ← (t.read home path).mapError .disk
    ofText path text

/-- What the entries of a description come to, under overrides. -/
def meaning (overrides : List (String × Value)) (es : List (Value × Value)) :
    Except LoadFault (Model × Options) := do
  let model ← (Model.ofDescription es).mapError .model
  let options ← (Options.ofValue (optionSection es)).mapError .options
  let options ← (options.merged overrides).mapError .options
  return (model, options)

/-- What a description is loaded as. -/
def loadAt [MarkupReader] (t : Tree) (home : Place) (path : Path)
    (overrides : List (String × Value)) : Except LoadFault (Model × Options) :=
  if overrides.any (·.1 == pathName) then .error (.options .unreadable)
  else do meaning overrides (← readAt t home path)

theorem answers_settle {fault : ε → LoadFault} {r : Except ε α} :
    Answers f home (settle fault r) t (r.mapError fault) := by
  rintro w hw
  refine ⟨t, hw, ?_⟩
  show Settles _ _ (r.mapError fault) t
  cases r.mapError fault with
  | ok a => exact ⟨rfl, rfl⟩
  | error e => exact ⟨rfl, rfl⟩

theorem answers_note (e : Event) :
    Answers f home (note e : ExceptT LoadFault (StateM World) Unit) t (.ok ()) := Answers.note e

theorem mapError_id {r : Except ε α} : r.mapError id = r := by
  cases r <;> rfl

theorem answers_read [MarkupReader] (path : Path) :
    Answers f home (read path) t (readAt t home path) := by
  unfold read readAt
  refine (Answers.adapt (Answers.isFile path)).bind fun there => ?_
  by_cases hthere : there = true
  · rw [hthere]
    refine (Answers.adapt (Answers.read path)).bind fun text => ?_
    have hsettle : Answers f home (settle id (ofText path text)) t (ofText path text) := by
      have h : Answers f home (settle id (ofText path text)) t _ := answers_settle
      rw [mapError_id] at h
      exact h
    have h : Answers f home (do
        let es ← settle id (ofText path text)
        note (.described path)
        return es) t (ofText path text >>= Except.ok) :=
      hsettle.bind fun es => Answers.after (answers_note _) (Answers.pure es)
    have hsame : (ofText path text >>= Except.ok) = ofText path text := by
      cases ofText path text <;> rfl
    rw [hsame] at h
    exact h
  · rw [Bool.eq_false_iff.2 hthere]
    exact Steps.throw_bind ⟨rfl, rfl⟩

/-- Loading comes to what the description says, and changes nothing. -/
theorem answers_load [MarkupReader] (path : Path) (overrides : List (String × Value)) :
    Answers f home (load path overrides) t (loadAt t home path overrides) := by
  unfold load loadAt
  by_cases hpath : (overrides.any (·.1 == pathName)) = true
  · rw [if_pos hpath, if_pos hpath]
    exact Steps.throw_bind ⟨rfl, rfl⟩
  · rw [if_neg hpath, if_neg hpath]
    refine (answers_read path).bind fun es => ?_
    refine answers_settle.bind fun model => Answers.after (answers_note _) ?_
    refine answers_settle.bind fun options => ?_
    have hend : Answers f home (do
        let options ← settle .options (options.merged overrides)
        return (model, options)) t (do
        let options ← (options.merged overrides).mapError .options
        return (model, options)) := answers_settle.bind fun options => Answers.pure _
    dsimp only
    split
    · exact Answers.after (answers_note _) hend
    · exact hend

/-- What a description is read as is told by the text of its file alone. -/
theorem readAt_eq_ok [MarkupReader] {path : Path} {es : List (Value × Value)} :
    readAt t home path = .ok es ↔ path.Fits ∧ t.Reaches home path ∧
      ∃ text, t.find? (path.placeOf home) = some (.file text) ∧ ofText path text = .ok es := by
  unfold readAt
  constructor
  · intro h
    obtain ⟨there, hthere, h⟩ := bind_eq_ok.1 h
    obtain ⟨kind, hlook, hkind⟩ := bind_eq_ok.1 (mapError_eq_ok.1 hthere)
    obtain rfl : (kind == some .file) = there := Except.ok.inj hkind
    by_cases hfile : kind = some .file
    · rw [hfile] at h hlook
      obtain ⟨text, hread, h⟩ := bind_eq_ok.1 h
      obtain ⟨hfits, hopen, hkind⟩ := Tree.look_eq_some.1 hlook
      obtain ⟨entry, hentry, hkind⟩ := Option.map_eq_some_iff.1 hkind
      cases entry with
      | directory => nomatch hkind
      | file text' =>
        unfold Tree.read at hread
        rw [Tree.locate_eq_place hfits hopen] at hread
        simp only [bind, Except.bind, hentry] at hread
        cases hread
        exact ⟨hfits, hopen, text, hentry, h⟩
    · rw [beq_false_of_ne hfile] at h
      nomatch h
  · rintro ⟨hfits, hopen, text, hentry, h⟩
    rw [Tree.look_eq_some.2 ⟨hfits, hopen, by rw [hentry]; rfl⟩]
    show (t.read home path).mapError .disk >>= ofText path = _
    unfold Tree.read
    rw [Tree.locate_eq_place hfits hopen]
    simp only [bind, Except.bind, hentry]
    exact h

/-- A file that stays where it is, with the way to it, is found and read as before. -/
theorem readAt_kept [MarkupReader] {t' : Tree} {path : Path} {es : List (Value × Value)}
    (h : readAt t home path = .ok es)
    (hkeep : ∀ q entry, path.Visits home q → t.find? q = some entry → t'.find? q = some entry) :
    readAt t' home path = .ok es := by
  obtain ⟨hfits, hopen, text, hentry, h⟩ := readAt_eq_ok.1 h
  exact readAt_eq_ok.2 ⟨hfits, hopen.mono fun q hq hdir => hkeep q _ hq hdir, text,
    hkeep _ _ (path.visits_placeOf home) hentry, h⟩

theorem loadAt_kept [MarkupReader] {t' : Tree} {path : Path} {overrides : List (String × Value)}
    {meant : Model × Options} (h : loadAt t home path overrides = .ok meant)
    (hkeep : ∀ q entry, path.Visits home q → t.find? q = some entry → t'.find? q = some entry) :
    loadAt t' home path overrides = .ok meant := by
  unfold loadAt at h ⊢
  split at h
  · nomatch h
  · rename_i hpath
    rw [if_neg hpath]
    obtain ⟨es, hes, h⟩ := bind_eq_ok.1 h
    rw [readAt_kept hes hkeep]
    exact h

/-- Where a description is loaded, there is a file with its text. -/
theorem file_of_loadAt [MarkupReader] {path : Path} {overrides : List (String × Value)}
    {meant : Model × Options} (h : loadAt t home path overrides = .ok meant) :
    ∃ text, t.find? (path.placeOf home) = some (.file text) ∧
      ofText path text >>= meaning overrides = .ok meant := by
  unfold loadAt at h
  split at h
  · nomatch h
  · obtain ⟨es, hes, h⟩ := bind_eq_ok.1 h
    obtain ⟨_, _, text, hentry, htext⟩ := readAt_eq_ok.1 hes
    exact ⟨text, hentry, bind_eq_ok.2 ⟨es, htext, h⟩⟩

end Description

end Bindery
