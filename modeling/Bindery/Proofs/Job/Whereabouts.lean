/-
  WHERE A FILE IS while directories are swapped, however often they are listed.

  A job may list a directory twice, or a directory together with one that is in it.  Every entry that
  leads to a file swaps it once more: the first moves it from where it was staged to its place, the
  next moves it away and puts there what was staged in its stead, which is nothing.  So the only thing
  that counts is how many of the entries lead to the file (`Waiting`, `Arrived`); a swap that is over
  has left it at its place if there is just one (`whereabouts_deliver`).
-/
import Bindery.Proofs.Disk.Leading
import Bindery.Proofs.Job.Delivering

namespace Bindery

open Bindery.Tree

/-- Where files with the same names have the same text, each of them is staged. -/
theorem Staged.file_iff {t : Tree} {root : Place} {files : List Source.File}
    (h : Staged t root files)
    (hsame : ∀ f ∈ files, ∀ g ∈ files, f.names = g.names → f.text = g.text)
    (names : List String) (text : String) :
    t.find? (root ++ names) = some (.file text) ↔
      ∃ f ∈ files, f.names = names ∧ f.text = text := by
  constructor
  · exact h.ofFile names text
  · rintro ⟨f, hf, rfl, rfl⟩
    obtain ⟨text, htext⟩ := h.there f hf
    obtain ⟨g, hg, hnames, rfl⟩ := h.ofFile _ _ htext
    rw [htext, hsame g hg f hf hnames]

namespace Delivery

/-! ## Entries -/

/-- Whether an entry leads to a file, or to something that the file is below. -/
def leads (names : List String) (entry : String) : Bool := (Path.ofString entry).leadsTo names

/-- `Inside entry` — the entry leaves the output directory for nowhere, unless it has a start of its
own, and leads into no scratch directory. -/
def Inside (entry : String) : Prop :=
  (Path.ofString entry).isAbsolute = true ∨
    ∃ lead, (Path.ofString entry).lead? = some lead ∧ ∀ k, lead.head? ≠ some (scratchName k)

variable {s : Site} {names lead : List String} {staged : String → Prop} {k j : Nat}
  {t t' : Tree} {f : Failures} {entry : String} {done : Swapped}

theorem not_place_lead (hne : lead ≠ []) {m : String} (h : lead.head? ≠ some m)
    (r : List String) : ¬s.place lead <+: s.place (m :: r) := by
  obtain ⟨first, rest, rfl⟩ := List.exists_cons_of_ne_nil hne
  rw [Site.place_prefix, List.cons_prefix_cons]
  exact fun hp => h (congrArg some hp.1)

theorem not_place_nil (hne : lead ≠ []) : ¬s.place lead <+: s.place [] := by
  rw [Site.place_prefix, List.prefix_nil]
  exact hne

theorem downward_scratchName {name : String} (hname : name ≠ upName) :
    Downward [scratchName j, name] :=
  List.forall_mem_cons.2 ⟨(isComponent_scratchName j).notUp, List.forall_mem_singleton.2 hname⟩

theorem child_old_lead (hscratch : s.scratch = scratchName j)
    (h : (Path.ofString entry).lead? = some lead) :
    (s.places.old.child entry).placeOf s.home = s.place ([s.scratch, oldName] ++ lead) := by
  have hdown : Downward [s.scratch, oldName] := hscratch ▸ downward_scratchName (by decide)
  rw [Path.placeOf_child h, ← Site.place_append]
  exact congrArg (· ++ lead) (Path.placeOf_below hdown)

theorem child_new_lead (hscratch : s.scratch = scratchName j)
    (h : (Path.ofString entry).lead? = some lead) :
    (s.places.new.child entry).placeOf s.home = s.place ([s.scratch, newName] ++ lead) := by
  have hdown : Downward [s.scratch, newName] := hscratch ▸ downward_scratchName (by decide)
  rw [Path.placeOf_child h, ← Site.place_append]
  exact congrArg (· ++ lead) (Path.placeOf_below hdown)

/-! ## A file on its way -/

/-- `Waiting s names staged k t` — after `k` entries that lead to a file: until the first of them the
file is where it was staged. -/
structure Waiting (s : Site) (names : List String) (staged : String → Prop) (k : Nat)
    (t : Tree) : Prop where
  root : t.find? (s.place []) = some .directory
  scratch : t.find? (s.place [s.scratch]) = some .directory
  staged : ∀ text, t.find? (s.place ([s.scratch, newName] ++ names)) = some (.file text) ↔
    k = 0 ∧ staged text

/-- `Arrived s names staged k t` — after `k` entries that lead to a file, one at least: it is at its
place after just one of them. -/
def Arrived (s : Site) (names : List String) (staged : String → Prop) (k : Nat) (t : Tree) : Prop :=
  0 < k → ∀ text, t.find? (s.place names) = some (.file text) ↔ k = 1 ∧ staged text

/-- Making directories moves no file. -/
theorem Waiting.wayMade {p : Path} (h : Waiting s names staged k t)
    (hmade : t.WayMade s.home p t') : Waiting s names staged k t' :=
  ⟨hmade.keeps h.root, hmade.keeps h.scratch, fun text => hmade.file.trans (h.staged text)⟩

theorem Arrived.wayMade {p : Path} (h : Arrived s names staged k t)
    (hmade : t.WayMade s.home p t') : Arrived s names staged k t' :=
  fun hk text => hmade.file.trans (h hk text)

section

variable (hne : lead ≠ []) (hlead : lead.head? ≠ some s.scratch)
include hne

include hlead in
/-- What is taken away is not what is staged. -/
theorem Waiting.take (h : Waiting s names staged k t)
    (hmoved : Moved t (s.place lead) (s.place ([s.scratch, oldName] ++ lead)) t') :
    Waiting s names staged k t' := by
  have hoff : ∀ r, ¬[s.scratch, oldName] ++ lead <+: r → ¬s.place lead <+: s.place r →
      t'.find? (s.place r) = t.find? (s.place r) := fun r hold =>
    hmoved.off _ (by rw [Site.place_prefix]; exact hold)
  refine ⟨?_, ?_, fun text => ?_⟩
  · rw [hoff [] (by simp) (not_place_nil hne)]
    exact h.root
  · rw [hoff [s.scratch] (by simp) (not_place_lead hne hlead [])]
    exact h.scratch
  · rw [hoff ([s.scratch, newName] ++ names) (by simp [newName, oldName])
      (not_place_lead hne hlead (newName :: names))]
    exact h.staged text

omit hne in
/-- An entry that does not lead to the file leaves it at its place. -/
theorem Arrived.take (h : Arrived s names staged k t) (hnames : names.head? ≠ some s.scratch)
    (hnot : ¬lead <+: names)
    (hmoved : Moved t (s.place lead) (s.place ([s.scratch, oldName] ++ lead)) t') :
    Arrived s names staged k t' := by
  intro hk text
  rw [hmoved.off]
  · exact h hk text
  · rw [Site.place_prefix]
    rintro ⟨r, rfl⟩
    exact hnames rfl
  · rw [Site.place_prefix]
    exact hnot

include hlead

theorem Waiting.dirs_put (h : Waiting s names staged k t)
    (hmoved : Moved t (s.place ([s.scratch, newName] ++ lead)) (s.place lead) t') :
    t'.find? (s.place []) = some .directory ∧ t'.find? (s.place [s.scratch]) = some .directory := by
  constructor
  · rw [hmoved.off _ (not_place_nil hne) (not_place_nil (List.cons_ne_nil _ _))]
    exact h.root
  · rw [hmoved.off _ (not_place_lead hne hlead [])]
    · exact h.scratch
    · rw [Site.place_prefix]
      exact fun hp => absurd hp.length_le (by simp)

/-- The first entry that leads to the file moves it to its place, any other puts nothing there. -/
theorem Waiting.put (h : Waiting s names staged k t) (hto : lead <+: names)
    (hmoved : Moved t (s.place ([s.scratch, newName] ++ lead)) (s.place lead) t') :
    Waiting s names staged (k + 1) t' ∧ Arrived s names staged (k + 1) t' := by
  obtain ⟨hroot, hscratch⟩ := h.dirs_put hne hlead hmoved
  obtain ⟨r, rfl⟩ := hto
  refine ⟨⟨hroot, hscratch, fun text => ?_⟩, fun _ text => ?_⟩
  · rw [← List.append_assoc, ← Site.place_append, hmoved.left r]
    exact ⟨fun hnone => (nomatch hnone), fun hk => absurd hk.1 (Nat.succ_ne_zero k)⟩
  · rw [← Site.place_append, hmoved.arrived r, Site.place_append, List.append_assoc, h.staged text,
      Nat.succ_inj]

/-- Any other entry leaves the file where it is. -/
theorem Waiting.put_other (h : Waiting s names staged k t) (hnot : ¬lead <+: names)
    (hmoved : Moved t (s.place ([s.scratch, newName] ++ lead)) (s.place lead) t') :
    Waiting s names staged k t' := by
  obtain ⟨hroot, hscratch⟩ := h.dirs_put hne hlead hmoved
  refine ⟨hroot, hscratch, fun text => ?_⟩
  rw [hmoved.off (s.place ([s.scratch, newName] ++ names))
    (not_place_lead hne hlead (newName :: names))]
  · exact h.staged text
  · rw [Site.place_prefix, List.prefix_append_right_inj]
    exact hnot

omit hne hlead in
theorem Arrived.put_other (h : Arrived s names staged k t)
    (hnames : names.head? ≠ some s.scratch) (hnot : ¬lead <+: names)
    (hmoved : Moved t (s.place ([s.scratch, newName] ++ lead)) (s.place lead) t') :
    Arrived s names staged k t' := by
  intro hk text
  rw [hmoved.off]
  · exact h hk text
  · rw [Site.place_prefix]
    exact hnot
  · rw [Site.place_prefix]
    rintro ⟨r, rfl⟩
    exact hnames rfl

end

/-! ## One entry -/

section

variable (hscratch : s.scratch = scratchName j) (hentry : Inside entry)
  (hnames : names.head? ≠ some s.scratch)
include hscratch hentry hnames

theorem waiting_takeAway (hw : Waiting s names staged k t) (ha : Arrived s names staged k t) :
    Steps f s.home (takeAway s.places entry done) t
      (fun _ t' => Waiting s names staged k t' ∧
        (leads names entry = false → Arrived s names staged k t'))
      (fun _ _ => True) := by
  refine Steps.adapt ?_
  dsimp only
  refine Steps.bind ((steps_look_map _).mono (fun _ _ h => h) fun _ _ _ => trivial) ?_
  rintro _ t ⟨rfl, _⟩
  refine Steps.ite (fun _ => ?_) fun _ => Steps.pure ⟨hw, fun _ => ha⟩
  refine Steps.bind ((steps_move _ _).mono (fun _ _ h => h) fun _ _ _ => trivial) ?_
  intro _ t' hmoved
  refine Steps.pure ?_
  rcases hentry with habsolute | ⟨lead, hlead, hapart⟩
  · rw [Path.child_of_absolute habsolute, Path.child_of_absolute habsolute] at hmoved
    rw [rename_self hmoved]
    exact ⟨hw, fun _ => ha⟩
  · have hout : (s.places.output.child entry).placeOf s.home = s.place lead :=
      Path.placeOf_child hlead
    have hold := child_old_lead hscratch hlead
    obtain ⟨_, _, _, hstay, hmoved⟩ := moved_of_rename hmoved (by
      rw [hout, hold, Site.place_prefix]
      exact fun hp => absurd hp.length_le (by rw [List.length_append]; simp))
    rw [hout, hold] at hstay hmoved
    have hne : lead ≠ [] := by
      rintro rfl
      exact hstay (Site.place_prefix.2 List.nil_prefix)
    refine ⟨hw.take hne (hscratch ▸ hapart j) hmoved, fun hnot => ha.take hnames ?_ hmoved⟩
    rw [← Path.leadsTo_iff hlead]
    exact Bool.eq_false_iff.1 hnot

theorem waiting_putInPlace (hf : f.OfDisk) (hw : Waiting s names staged k t)
    (ha : leads names entry = false → Arrived s names staged k t) :
    Steps f s.home (putInPlace s.places entry done) t
      (fun _ t' => Waiting s names staged (k + if leads names entry then 1 else 0) t' ∧
        Arrived s names staged (k + if leads names entry then 1 else 0) t')
      (fun _ _ => True) := by
  have hmove : ∀ {made : Tree}, Waiting s names staged k made →
      (leads names entry = false → Arrived s names staged k made) →
      Steps f s.home (do
        Disk.move (s.places.new.child entry) (s.places.output.child entry)
        return (⟨done.taken, done.placed ++ [entry]⟩ : Swapped)) made
        (fun _ t' => Waiting s names staged (k + if leads names entry then 1 else 0) t' ∧
          Arrived s names staged (k + if leads names entry then 1 else 0) t')
        (fun _ _ => True) := by
    intro made hw ha
    refine Steps.bind ((steps_move _ _).mono (fun _ _ h => h) fun _ _ _ => trivial) ?_
    intro _ t' hmoved
    refine Steps.pure ?_
    rcases hentry with habsolute | ⟨lead, hlead, hapart⟩
    · have hnot : leads names entry = false := Path.leadsTo_of_absolute habsolute
      rw [Path.child_of_absolute habsolute, Path.child_of_absolute habsolute] at hmoved
      rw [rename_self hmoved, hnot, if_neg (by decide)]
      exact ⟨hw, ha hnot⟩
    · have hout : (s.places.output.child entry).placeOf s.home = s.place lead :=
        Path.placeOf_child hlead
      have hnew := child_new_lead hscratch hlead
      -- An entry for the output directory itself is refused, since the scratch directory is in it.
      have hne : lead ≠ [] := by
        rintro rfl
        refine rename_ne_ok_of_busy ?_ ?_ ?_ hmoved
        · rw [hout]
          exact hw.root
        · rw [hout]
          have hfound : made.find? (s.place [] ++ [s.scratch]) ≠ none := by
            rw [Site.place_append]
            exact Option.ne_none_iff_exists'.2 ⟨_, hw.scratch⟩
          exact isBusy_of_find? hfound
        · rw [hout, hnew]
          exact fun heq => absurd (congrArg List.length (List.append_cancel_left heq)) (by simp)
      have hapart' : lead.head? ≠ some s.scratch := hscratch ▸ hapart j
      obtain ⟨_, _, _, _, hmoved⟩ := moved_of_rename hmoved (by
        rw [hout, hnew]
        exact not_place_lead hne hapart' _)
      rw [hout, hnew] at hmoved
      cases hto : leads names entry with
      | true =>
        rw [if_pos rfl]
        exact hw.put hne hapart' ((Path.leadsTo_iff hlead).1 hto) hmoved
      | false =>
        have hnot : ¬lead <+: names := by
          rw [← Path.leadsTo_iff hlead]
          exact Bool.eq_false_iff.1 hto
        rw [if_neg (by decide)]
        exact ⟨hw.put_other hne hapart' hnot hmoved, (ha hto).put_other hnames hnot hmoved⟩
  refine Steps.adapt ?_
  dsimp only
  refine Steps.bind ((steps_look_map _).mono (fun _ _ h => h) fun _ _ _ => trivial) ?_
  rintro _ t ⟨rfl, _⟩
  refine Steps.ite (fun _ => ?_) fun _ => hmove hw ha
  refine Steps.bind ((steps_makeDirs hf _).mono (fun _ _ h => h) fun _ _ _ => trivial) ?_
  intro _ made hmade
  exact hmove (hw.wayMade hmade.way) fun hnot => (ha hnot).wayMade hmade.way

end

/-! ## All entries -/

theorem waiting_swapEach (hf : f.OfDisk) (hscratch : s.scratch = scratchName j)
    (hnames : names.head? ≠ some s.scratch) (entries : List String)
    (hinside : ∀ entry ∈ entries, Inside entry)
    (hw : Waiting s names staged k t) (ha : Arrived s names staged k t) :
    Steps f s.home (swapEach s.places entries done) t
      (fun _ t' => Waiting s names staged (k + entries.countP (leads names)) t' ∧
        Arrived s names staged (k + entries.countP (leads names)) t')
      (fun _ _ => True) := by
  -- On the entries that are left; the number that led to the file so far is all that changes.
  induction entries generalizing k t done with
  | nil => exact Steps.pure ⟨hw, ha⟩
  | cons entry entries ih =>
    obtain ⟨hentry, hinside⟩ := List.forall_mem_cons.1 hinside
    refine Steps.bind (waiting_takeAway hscratch hentry hnames hw ha) ?_
    rintro taken t₁ ⟨hw₁, ha₁⟩
    refine Steps.bind (waiting_putInPlace hscratch hentry hnames hf hw₁ ha₁) ?_
    rintro placed t₂ ⟨hw₂, ha₂⟩
    rw [List.countP_cons, Nat.add_comm (entries.countP _), ← Nat.add_assoc]
    exact ih hinside hw₂ ha₂

/-- An undoing comes to an end. -/
theorem steps_undo_some {home : Place} (places : Places) (done : Swapped) :
    Steps f home (undo places done) t (fun _ _ => True) (fun _ _ => True) := by
  have hdiscard : ∀ (entries : List String) (t : Tree),
      Steps f home (ExceptT.lift (discardEach places entries)) t (fun _ _ => True)
        (fun (_ : DiskFault) _ => True) := by
    intro entries
    induction entries with
    | nil => exact fun _ => Steps.pure trivial
    | cons entry entries ih => exact fun _ => Steps.lift_bind (steps_tryDiscard _) fun _ t' _ => ih t'
  have hrestore : ∀ (entries : List String) (t : Tree),
      Steps f home (restoreEach places entries) t (fun _ _ => True) (fun _ _ => True) := by
    intro entries
    induction entries with
    | nil => exact fun _ => Steps.pure trivial
    | cons entry entries ih =>
      exact fun _ => Steps.bind ((steps_putBack _ _).mono (fun _ _ h => h) fun _ _ _ => trivial)
        fun _ t' _ => ih t'
  exact Steps.bind (hdiscard _ _) fun _ t' _ => hrestore _ t'

theorem whereabouts_swap (hf : f.OfDisk) (hscratch : s.scratch = scratchName j)
    (hnames : names.head? ≠ some s.scratch) (hinside : ∀ entry ∈ s.dirs, Inside entry)
    (hled : 0 < s.dirs.countP (leads names)) (hw : Waiting s names staged 0 t) :
    Steps f s.home (swap s.places s.dirs) t
      (fun _ t' => ∀ text, t'.find? (s.place names) = some (.file text) ↔
        s.dirs.countP (leads names) = 1 ∧ staged text)
      (fun _ _ => True) := by
  refine Steps.bind ((steps_makeDir _).mono (fun _ _ h => h) fun _ _ _ => trivial) ?_
  intro _ t₁ hmade
  refine Steps.bind (Steps.lift_run (waiting_swapEach hf hscratch hnames s.dirs hinside
    (hw.wayMade (wayMade_makeDir hmade)) fun hk => absurd hk (Nat.lt_irrefl 0))) ?_
  rintro (⟨e, done⟩ | done) t₂ hsettled
  · refine Steps.ite (fun _ => ?_) fun _ => Steps.throw trivial
    exact Steps.bind (steps_undo_some _ _) fun _ _ _ => Steps.throw trivial
  · obtain ⟨_, harrived⟩ : Waiting _ _ _ _ t₂ ∧ Arrived _ _ _ _ t₂ := hsettled
    rw [Nat.zero_add] at harrived
    exact Steps.pure (harrived hled)

/-! ## The whole delivery -/

variable {home : Place} {output : Path} {dirs : List String} {rendered : List Rendered}
  {base : Tree} {scratch : String}

/-- A file that has been staged waits to be moved. -/
theorem waiting_of_staged (hs : Scratched home output scratch base t)
    (hstaged : Staged t' (output.placeOf home ++ [scratch, newName]) (allFiles rendered))
    (hoff : t.SameOff (stagedAt home (output.below [scratch])) t')
    (hsame : ∀ f ∈ allFiles rendered, ∀ g ∈ allFiles rendered, f.names = g.names → f.text = g.text)
    (names : List String) :
    Waiting ⟨home, output, scratch, dirs, base, t⟩ names
      (fun text => ∃ f ∈ allFiles rendered, f.names = names ∧ f.text = text) 0 t' := by
  have hstands := hoff.stands hs.stands hs.avoids
  refine ⟨?_, ?_, fun text => ?_⟩
  · have hroot := hstands _ (Path.Visits.of_first (List.prefix_append _ _)
      (output.visits_placeOf home))
    rw [Site.place, List.append_nil]
    exact hroot
  · have hplace := hstands.place
    rw [hs.placeOf] at hplace
    exact hplace
  · rw [← Site.place_append]
    refine (hstaged.file_iff hsame names text).trans ?_
    exact ⟨fun h => ⟨rfl, h⟩, fun h => h.2⟩

/-- What is written to a scratch directory is at its place, where just one of the entries leads. -/
theorem whereabouts_write (hf : f.OfDisk)
    (hproper : ∀ r ∈ rendered, ∀ file ∈ r.files, file.Proper)
    (hsame : ∀ f ∈ allFiles rendered, ∀ g ∈ allFiles rendered, f.names = g.names → f.text = g.text)
    (hinside : ∀ entry ∈ dirs, Inside entry) {k : Nat} (hnames : names.head? ≠ some (scratchName k))
    (hled : 0 < dirs.countP (leads names)) (hs : Scratched home output (scratchName k) base t) :
    Steps f home (write output (output.below [scratchName k]) dirs rendered) t
      (fun _ t' => ∀ text, t'.find? (output.placeOf home ++ names) = some (.file text) ↔
        dirs.countP (leads names) = 1 ∧
          ∃ file ∈ allFiles rendered, file.names = names ∧ file.text = text)
      (fun _ _ => True) :=
  steps_write_of_swap hf hproper hs (fun _ _ => trivial) fun _ hstaged hoff =>
    whereabouts_swap hf rfl hnames hinside hled (waiting_of_staged hs hstaged hoff hsame names)

/-- A delivery that succeeds leaves at its place each file that just one of the entries leads to, and
no file where more of them lead. -/
theorem whereabouts_deliver (hf : f.OfDisk)
    (hproper : ∀ r ∈ rendered, ∀ file ∈ r.files, file.Proper)
    (hsame : ∀ f ∈ allFiles rendered, ∀ g ∈ allFiles rendered, f.names = g.names → f.text = g.text)
    (hinside : ∀ entry ∈ dirs, Inside entry) (hnames : ∀ k, names.head? ≠ some (scratchName k))
    (hled : 0 < dirs.countP (leads names)) (hsound : t.Sound home output) :
    Steps f home (deliver output dirs rendered) t
      (fun paths t' => paths = written output rendered ∧
        ∀ text, t'.find? (output.placeOf home ++ names) = some (.file text) ↔
          dirs.countP (leads names) = 1 ∧
            ∃ file ∈ allFiles rendered, file.names = names ∧ file.text = text)
      (fun _ _ => True) := by
  refine steps_deliver_of_write hf hsound (fun _ _ => trivial) ?_
  intro base t₁ k hmade _ hs
  refine (whereabouts_write hf hproper hsame hinside (hnames k) hled hs).mono ?_
    fun _ _ _ => (steps_tryDiscard _).mono (fun _ _ _ => trivial) fun _ _ h => h
  intro _ t₂ hfiles
  refine (steps_tryDiscard _).mono (fun _ t₃ hdiscard text => ?_) fun _ _ h => h
  have hkept : t₃.find? (output.placeOf home ++ names) =
      t₂.find? (output.placeOf home ++ names) := by
    rcases hdiscard with ⟨_, rfl⟩ | rfl
    · rfl
    · rcases discard_cases t₂ home (output.below [scratchName k]) with hrefused | hgone
      · rw [hrefused]
      · rw [hgone, hs.placeOf, if_neg]
        rw [List.prefix_append_right_inj]
        rintro ⟨r, rfl⟩
        exact hnames k rfl
  rw [hkept]
  exact hfiles text

end Delivery

end Bindery
