/-
  A FAILED RUN leaves the outputs as they were.

  Whatever a run fails of, everything stands where it stood before, with all it held; all that may
  be new is the output directory with those above it, and they are not made unless all files have
  been generated.
-/
import Mathlib.Data.List.Infix
import Bindery.Program
import Bindery.Proofs.Job.Course

namespace Bindery

open Bindery.Tree

/-! ## Checking the conditions -/

/-- A tree is closed if every entry of its list stands in a directory. -/
theorem Tree.closed_of_entries {t : Tree}
    (h : ∀ e ∈ t.entries, t.find? e.1.dropLast = some .directory) : t.Closed := by
  intro q hq hthere
  rw [find?_of_ne_nil t hq] at hthere
  obtain ⟨entry, hentry⟩ := Option.ne_none_iff_exists'.1 hthere
  obtain ⟨front, back, hentries, _⟩ := List.lookup_eq_some_iff.1 hentry
  exact h (q, entry) (by rw [hentries]; simp)

theorem Path.avoids_iff {home : Place} {p : Path} {a : Place} :
    p.Avoids home a ↔ ∀ front ∈ p.names.inits, ¬a <+: follow (p.start home) front := by
  constructor
  · exact fun h front hfront => h _ ⟨front, (List.mem_inits _ _).1 hfront, rfl⟩
  · rintro h q ⟨front, hfront, rfl⟩
    exact h front ((List.mem_inits _ _).2 hfront)

instance (home : Place) (p : Path) (a : Place) : Decidable (p.Avoids home a) :=
  decidable_of_iff _ Path.avoids_iff.symm

namespace Job

/-- How a run ends in a world: its outcome, how far the job has come, and the world afterwards. -/
def runIn [MarkupReader] (job : Job) (p : Progress) (w : World) :
    (Except JobFault (List Path) × Progress) × World :=
  (job.run : JobM (StateM World) (List Path)) p w

/-! ## The theorem -/

/-- A run that fails leaves all as it was, but for directories on the way to the output directory;
one that fails before its files are written leaves the very same tree. -/
theorem failed_run_keeps [MarkupReader] (job : Job) (p : Progress) (w : World)
    (hsound : w.tree.Sound w.home job.output) (hjob : job.Runnable w.failures w.home) {e : JobFault}
    (he : (job.runIn p w).1.1 = .error e) :
    w.tree.WayMade w.home job.output (job.runIn p w).2.tree ∧
      (e.isOfWriting = false → (job.runIn p w).2.tree = w.tree) := by
  have hends : Ends _ _ (job.runIn p w).1 (job.runIn p w).2.tree :=
    (runs_run fun rendered hemit => Delivery.steps_deliver (hjob.deliverable hemit) hsound).elim
      ⟨rfl, rfl, rfl⟩
  rcases hrun : (job.runIn p w).1 with ⟨r, p'⟩
  rw [hrun] at he hends
  obtain rfl : r = .error e := he
  rcases hends with ⟨_, hsame, _⟩ | ⟨_, fault, _, rfl, hway, _⟩
  · rw [hsame]
    exact ⟨WayMade.refl, fun _ => rfl⟩
  · refine ⟨hway, fun hnot => ?_⟩
    rw [JobFault.isOfWriting_ofDelivery] at hnot
    nomatch hnot

/-! ## Runs that fail -/

/-- A working directory with an empty description and an earlier output. -/
def sampleTree : Tree :=
  ⟨[(["w"], .directory), (["w", "a.idl"], .file ""), (["w", "d"], .directory),
    (["w", "d", "a"], .file "old")]⟩

/-- An emitter with one directory, which writes the given paths. -/
def sampleEmitter (paths : List String) : Emitter where
  target := "t"
  dirs := ["d"]
  emit _ _ _ := .ok (paths.map fun path => ⟨path, path, true⟩)

/-- A job for that emitter. -/
def sampleJob (output : String) (paths : List String) : Job :=
  ⟨.ofString "a.idl", .ofString output, [], [sampleEmitter paths], .standard⟩

/-- The sample tree on a disk where one operation is refused. -/
def refusing (n : Nat) : World :=
  ⟨sampleTree, ["w"], 0,
    { Failures.none with forward := fun k => if k = n then some (.refused "full") else none }, []⟩

theorem sampleTree_sound {output : Path} (h : output.isAbsolute = false) :
    sampleTree.Sound ["w"] output :=
  ⟨closed_of_entries (by decide), by rw [Path.start, h]; decide⟩

theorem ofDisk_refusing (n : Nat) : (refusing n).failures.OfDisk := by
  intro k e he
  have he' : (if k = n then some (DiskFault.refused "full") else none) = some e := he
  split at he'
  · cases he'
    rfl
  · nomatch he'

theorem sampleJob_runnable {output : String} {paths : List String} {f : Failures} (hf : f.OfDisk)
    (hrestore : ∀ n, f.restore n = none) (hdiscard : ∀ n, f.discard n = false)
    (h : (Path.ofString output).Avoids ["w"] ((Path.ofString output).placeOf ["w"] ++ ["d"])) :
    (sampleJob output paths).Runnable f ["w"] where
  ofDisk := hf
  restore := hrestore
  discard := hdiscard
  nodup := List.pairwise_singleton _ "d"
  component := fun d hd => by
    rw [List.mem_singleton.1 hd]
    decide
  avoids := fun d hd => by
    rw [List.mem_singleton.1 hd]
    exact h

/-- Whether an outcome is a fault of putting files in place. -/
def isUnwritten {α : Type} : Except JobFault α → Bool
  | .error e => e.isOfWriting
  | .ok _ => false

theorem exists_of_isUnwritten {α : Type} {r : Except JobFault α} (h : isUnwritten r = true) :
    ∃ e, r = .error e ∧ e.isOfWriting = true := by
  cases r with
  | ok a => nomatch h
  | error e => exact ⟨e, rfl, h⟩

/-- The second move of a swap is refused, and what was moved away before is back. -/
theorem failed_run_keeps_swapped :
    ∃ e, ((sampleJob "." ["d/b"]).runIn .start (refusing 8)).1.1 = .error e ∧
      sampleTree.WayMade ["w"] (.ofString ".")
        ((sampleJob "." ["d/b"]).runIn .start (refusing 8)).2.tree := by
  have hfail : isUnwritten ((sampleJob "." ["d/b"]).runIn .start (refusing 8)).1.1 = true := by
    decide +kernel
  obtain ⟨e, he, _⟩ := exists_of_isUnwritten hfail
  exact ⟨e, he, (failed_run_keeps _ _ (refusing 8) (sampleTree_sound (by decide))
    (sampleJob_runnable (ofDisk_refusing 8) (fun _ => rfl) (fun _ => rfl) (by decide)) he).1⟩

/-- The two ways in which a failed run may show.  A directory that the output path only passes is
made and stays.  And where the output path passes a directory that is swapped, the way back is
lost. -/
theorem failed_run_shows :
    (sampleTree.Sound ["w"] (.ofString "x/..") ∧ (sampleJob "x/.." ["d/b", "d/b/c"]).Runnable .none ["w"] ∧
      (∃ e, ((sampleJob "x/.." ["d/b", "d/b/c"]).runIn .start (.ofTree sampleTree ["w"])).1.1 =
        .error e) ∧
      (Path.ofString "x/..").placeOf ["w"] = ["w"] ∧ sampleTree.find? ["w", "x"] = none ∧
      ((sampleJob "x/.." ["d/b", "d/b/c"]).runIn .start (.ofTree sampleTree ["w"])).2.tree.find?
        ["w", "x"] = some .directory) ∧
    (∃ e, ((sampleJob "d/.." []).runIn .start (refusing 4)).1.1 = .error e) ∧
      sampleTree.find? ["w", "d", "a"] = some (.file "old") ∧
      ((sampleJob "d/.." []).runIn .start (refusing 4)).2.tree.find? ["w", "d", "a"] = none := by
  have hpassed : isUnwritten ((sampleJob "x/.." ["d/b", "d/b/c"]).runIn .start
      (.ofTree sampleTree ["w"])).1.1 = true := by decide +kernel
  have hlost : isUnwritten ((sampleJob "d/.." []).runIn .start (refusing 4)).1.1 = true := by
    decide +kernel
  obtain ⟨e, he, _⟩ := exists_of_isUnwritten hpassed
  obtain ⟨e', he', _⟩ := exists_of_isUnwritten hlost
  have hrunnable : (sampleJob "x/.." ["d/b", "d/b/c"]).Runnable .none ["w"] :=
    sampleJob_runnable (fun _ _ h => (nomatch h)) (fun _ => rfl) (fun _ => rfl) (by decide)
  exact ⟨⟨sampleTree_sound (by decide), hrunnable, ⟨e, he⟩, by decide, by decide, by decide +kernel⟩,
    ⟨e', he'⟩, by decide, by decide +kernel⟩

end Job

end Bindery
