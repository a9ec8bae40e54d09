/-
Module: ModelDistribution.Proofs.StaleDeletion
Layer: Proofs
Purpose: Deleting stale chunks again after failures. A failed call has removed the files below the
  index at which it stopped and nothing else, so any sequence of calls that ends without an error
  leaves what one call without failures leaves, and calling once more finds nothing to do.
Imports: ModelDistribution.Proofs.DeltaUpdate
Trusted boundary: none
Main exports: chunksToDelete_sorted, deleteFrom_error, PatchApplicator.deleteCalls,
  PatchApplicator.StoppedAt, deleteCalls_removed, deleteStaleChunks_resumable
-/
import ModelDistribution.Proofs.DeltaUpdate

namespace ModelDistribution

open Foundation

/-- The indices to delete rise strictly. -/
theorem DeltaPatch.chunksToDelete_sorted (patch : DeltaPatch) :
    patch.chunksToDelete.Pairwise (· < ·) := by
  have ordered : patch.chunksToDelete.Pairwise fun a b => decide (a ≤ b) = true := by
    apply List.pairwise_mergeSort
    · intro a b c ab bc
      exact decide_eq_true (UInt32.le_trans (of_decide_eq_true ab) (of_decide_eq_true bc))
    · intro a b
      simpa using UInt32.le_total a b
  have distinct : patch.chunksToDelete.Nodup :=
    (List.mergeSort_perm _ _).nodup_iff.mpr patch.deleted.nodup
  refine (ordered.and distinct).imp ?_
  rintro a b ⟨le, different⟩
  exact UInt32.lt_of_le_of_ne (of_decide_eq_true le) different

namespace PatchApplicator

/-- A call over these indices stops with an error at index `i`: the first of them whose removal fails.
The files below it are gone, and nothing else has changed. -/
structure StoppedAt (app : PatchApplicator) (fault : String → Option RemoveFault)
    (indices : UInt32 → Prop) (i : UInt32) (error : DistError) (before after : Disk) : Prop where
  listed : indices i
  failed : ∃ e : RemoveFault, fault (app.chunkPath i) = some e ∧ error = .io e.val
  first : ∀ j, indices j → j < i → fault (app.chunkPath j) = none
  removed : RemovedExactly (app.paths fun j => indices j ∧ j < i) before after

variable {app : PatchApplicator} {fault : String → Option RemoveFault} {indices : List UInt32}
  {count : Nat} {disk after : Disk} {patch : DeltaPatch}

/-- A deletion over rising indices that returns an error has stopped at one of them. -/
theorem deleteFrom_error {error : DistError} (rising : indices.Pairwise (· < ·))
    (stopped : app.deleteFrom fault indices count disk = (after, .error error)) :
    ∃ i, app.StoppedAt fault (· ∈ indices) i error disk after := by
  induction indices generalizing count disk with
  | nil => cases stopped
  | cons i indices ih =>
      obtain ⟨above, rising⟩ := List.pairwise_cons.mp rising
      have least : ∀ j ∈ i :: indices, ¬ j < i := by
        intro j mem
        rcases List.mem_cons.mp mem with rfl | later
        · exact UInt32.lt_irrefl j
        · exact UInt32.not_lt.mpr (UInt32.le_of_lt (above j later))
      cases faulty : fault (app.chunkPath i) with
      | some e =>
          rw [deleteFrom_of_fault faulty] at stopped
          cases stopped
          refine ⟨i, List.mem_cons_self, ⟨e, faulty, rfl⟩, ?_, .nothing ?_ _⟩
          · intro j mem below
            exact absurd below (least j mem)
          · rintro _ ⟨j, ⟨mem, below⟩, _⟩
            exact least j mem below
      | none =>
          rw [deleteFrom_of_no_fault faulty] at stopped
          obtain ⟨k, listed, failed, first, removed⟩ := ih rising stopped
          refine ⟨k, List.mem_cons_of_mem i listed, failed, ?_,
            (RemovedExactly.one disk (app.chunkPath i)).trans removed ?_⟩
          · intro j mem below
            rcases List.mem_cons.mp mem with rfl | later
            · exact faulty
            · exact first j later below
          · intro path
            constructor
            · rintro ⟨j, ⟨mem, below⟩, same⟩
              rcases List.mem_cons.mp mem with rfl | later
              · exact .inl same
              · exact .inr ⟨j, ⟨later, below⟩, same⟩
            · rintro (same | ⟨j, ⟨later, below⟩, same⟩)
              · exact ⟨i, ⟨List.mem_cons_self, above k listed⟩, same⟩
              · exact ⟨j, ⟨List.mem_cons_of_mem i later, below⟩, same⟩

/-- A deletion without a failing removal returns. -/
theorem deleteFrom_returns (free : ∀ i ∈ indices, fault (app.chunkPath i) = none) (count : Nat)
    (disk : Disk) :
    ∃ total, (app.deleteFrom fault indices count disk).2 = .ok total := by
  induction indices generalizing count disk with
  | nil => exact ⟨count, rfl⟩
  | cons i indices ih =>
      rw [deleteFrom_of_no_fault (free i List.mem_cons_self)]
      exact ih (fun j later => free j (List.mem_cons_of_mem i later)) _ _

/-- With every file gone already, a deletion without a failing removal counts nothing. -/
theorem deleteFrom_of_absent (free : ∀ i ∈ indices, fault (app.chunkPath i) = none)
    (absent : ∀ i ∈ indices, disk (app.chunkPath i) = none) :
    app.deleteFrom fault indices count disk = (disk, .ok count) := by
  induction indices with
  | nil => rfl
  | cons i indices ih =>
      have gone := absent i List.mem_cons_self
      rw [deleteFrom_of_no_fault (free i List.mem_cons_self), writeFile_none_of_absent gone,
        if_pos gone]
      exact ih (fun j later => free j (List.mem_cons_of_mem i later))
        fun j later => absent j (List.mem_cons_of_mem i later)

/-! ### Calling again -/

/-- Calls of `delete_stale_chunks` one after the other, each with the failures it meets: the disk
behind the last one and what they have returned. -/
def deleteCalls (app : PatchApplicator) (patch : DeltaPatch) :
    List (String → Option RemoveFault) → Disk → Disk × List (Except DistError Nat)
  | [], disk => (disk, [])
  | fault :: faults, disk =>
      let (after, result) := app.deleteStaleChunks patch fault disk
      let (last, results) := deleteCalls app patch faults after
      (last, result :: results)

/-- The indices that the patch deletes. -/
abbrev Stale (patch : DeltaPatch) (i : UInt32) : Prop := i ∈ patch.deleted.keys

theorem deleteStaleChunks_ok {total : Nat}
    (returned : app.deleteStaleChunks patch fault disk = (after, .ok total)) :
    RemovedExactly (app.paths (Stale patch)) disk after := by
  have removed := deleteFrom_ok returned
  simpa only [DeltaPatch.mem_chunksToDelete] using removed

theorem deleteStaleChunks_error {error : DistError}
    (stopped : app.deleteStaleChunks patch fault disk = (after, .error error)) :
    ∃ i, app.StoppedAt fault (Stale patch) i error disk after := by
  have atIndex := deleteFrom_error patch.chunksToDelete_sorted stopped
  simpa only [DeltaPatch.mem_chunksToDelete] using atIndex

/-- With nothing stale on the disk no call changes it, and one without failures counts nothing. -/
theorem deleteStaleChunks_of_clean (clean : ∀ i, Stale patch i → disk (app.chunkPath i) = none) :
    (app.deleteStaleChunks patch fault disk).1 = disk ∧
      ((∀ i, Stale patch i → fault (app.chunkPath i) = none) →
        app.deleteStaleChunks patch fault disk = (disk, .ok 0)) := by
  constructor
  · cases called : app.deleteStaleChunks patch fault disk with
    | mk after result =>
        cases result with
        | ok total =>
            refine (deleteStaleChunks_ok called).eq_of_absent ?_
            rintro _ ⟨i, stale, rfl⟩
            exact clean i stale
        | error error =>
            obtain ⟨i, stopped⟩ := deleteStaleChunks_error called
            refine stopped.removed.eq_of_absent ?_
            rintro _ ⟨j, ⟨stale, _⟩, rfl⟩
            exact clean j stale
  · intro free
    refine deleteFrom_of_absent ?_ ?_
    · intro i mem
      exact free i (DeltaPatch.mem_chunksToDelete.mp mem)
    · intro i mem
      exact clean i (DeltaPatch.mem_chunksToDelete.mp mem)

/-- A call leaves the files that a later removal of everything stale would leave. -/
theorem removed_after_call {last : Disk} (fault : String → Option RemoveFault)
    (later : RemovedExactly (app.paths (Stale patch))
      (app.deleteStaleChunks patch fault disk).1 last) :
    RemovedExactly (app.paths (Stale patch)) disk last := by
  cases called : app.deleteStaleChunks patch fault disk with
  | mk after result =>
      rw [called] at later
      cases result with
      | ok total =>
          exact (deleteStaleChunks_ok called).trans later fun path => (or_self_iff).symm
      | error error =>
          obtain ⟨i, stopped⟩ := deleteStaleChunks_error called
          refine stopped.removed.trans later fun path => ?_
          constructor
          · exact .inr
          · rintro (⟨j, ⟨stale, _⟩, same⟩ | stale)
            · exact ⟨j, stale, same⟩
            · exact stale

/-- Calls of which the last returns without an error remove exactly the stale files. -/
theorem deleteCalls_removed {faults : List (String → Option RemoveFault)} {total : Nat}
    (returned : (app.deleteCalls patch faults disk).2.getLast? = some (.ok total)) :
    RemovedExactly (app.paths (Stale patch)) disk (app.deleteCalls patch faults disk).1 := by
  induction faults generalizing disk with
  | nil => cases returned
  | cons fault faults ih =>
      cases faults with
      | nil =>
          have result : (app.deleteStaleChunks patch fault disk).2 = .ok total :=
            Option.some.inj returned
          exact deleteStaleChunks_ok (Prod.ext rfl result)
      | cons second faults =>
          refine removed_after_call fault (ih ?_)
          simpa only [deleteCalls, List.getLast?_cons_cons] using returned

/-- Stale-chunk deletion can be resumed: every failed call has removed the stale files below the index
at which it failed and nothing else, and however many calls have failed in between, one that returns
without an error leaves what a single call without failures leaves, where nothing stale is left for
another call. -/
theorem deleteStaleChunks_resumable (app : PatchApplicator) (patch : DeltaPatch) (disk : Disk)
    (faults : List (String → Option RemoveFault)) :
    (∀ earlier fault later after error, faults = earlier ++ fault :: later →
      app.deleteStaleChunks patch fault (app.deleteCalls patch earlier disk).1 =
        (after, .error error) →
      ∃ i, app.StoppedAt fault (Stale patch) i error (app.deleteCalls patch earlier disk).1 after) ∧
    ∀ total, (app.deleteCalls patch faults disk).2.getLast? = some (.ok total) →
      let last := (app.deleteCalls patch faults disk).1
      RemovedExactly (app.paths (Stale patch)) disk last ∧
        (∃ count, app.deleteStaleChunks patch (fun _ => none) disk = (last, .ok count)) ∧
        ∀ fault, (app.deleteStaleChunks patch fault last).1 = last ∧
          ((∀ i, Stale patch i → fault (app.chunkPath i) = none) →
            app.deleteStaleChunks patch fault last = (last, .ok 0)) := by
  constructor
  · intro earlier fault later after error _ stopped
    exact deleteStaleChunks_error stopped
  · intro total returned last
    have removed : RemovedExactly (app.paths (Stale patch)) disk last := deleteCalls_removed returned
    refine ⟨removed, ?_, fun fault => deleteStaleChunks_of_clean ?_⟩
    · have returns : ∃ count, (app.deleteStaleChunks patch (fun _ => none) disk).2 = .ok count :=
        deleteFrom_returns (fun _ _ => rfl) 0 disk
      obtain ⟨count, once⟩ := returns
      have called : app.deleteStaleChunks patch (fun _ => none) disk =
          ((app.deleteStaleChunks patch (fun _ => none) disk).1, .ok count) := Prod.ext rfl once
      refine ⟨count, called.trans ?_⟩
      rw [(deleteStaleChunks_ok called).unique removed]
    · intro i stale
      exact removed.gone _ ⟨i, stale, rfl⟩

end PatchApplicator

end ModelDistribution
