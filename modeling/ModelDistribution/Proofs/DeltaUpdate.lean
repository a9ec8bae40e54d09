/-
Module: ModelDistribution.Proofs.DeltaUpdate
Layer: Proofs
Purpose: A delta update yields exactly the new version: what the computed patch contains, what its
  verifier and the applicator do with the files of a node, and the update as a whole.
Imports: ModelDistribution.Delta, ModelDistribution.Proofs.Reassembly
Trusted boundary: none
Main exports: Manifest.Counted, DeltaPatch.Kept, DeltaPatch.Describes, compute_describes,
  verifyUnchanged_eq, deleteFrom_ok, delta_update
-/
import ModelDistribution.Delta
import ModelDistribution.Proofs.Reassembly

namespace ModelDistribution

open Foundation

/-- There is one hash for each counted chunk. -/
def Manifest.Counted (manifest : Manifest) : Prop :=
  manifest.chunkHashes.length = manifest.chunkCount.toNat

namespace DeltaPatch

/-- Chunk `i` of the new version is there in the old one with the same hash. -/
def Kept (old new : Manifest) (i : UInt32) : Prop :=
  i < old.chunkCount ∧ old.chunkHashes[i.toNat]? = new.chunkHashes[i.toNat]?

/-- What the patch between two versions contains. -/
structure Describes (patch : DeltaPatch) (old new : Manifest) : Prop where
  unchanged : ∀ i, i ∈ patch.unchanged.keys ↔ i < new.chunkCount ∧ Kept old new i
  changed : ∀ i hash, patch.changed.get? i = some hash ↔
    i < new.chunkCount ∧ ¬ Kept old new i ∧ new.chunkHashes[i.toNat]? = some hash
  deleted : ∀ i, i ∈ patch.deleted.keys ↔ new.chunkCount ≤ i ∧ i < old.chunkCount

/-! ### Computing a patch -/

section Compute

variable {old new : Manifest}

/-- The comparison of a chunk below the new count returns. -/
theorem sameHash_spec (oldCounted : old.Counted) (newCounted : new.Counted) {i : UInt32}
    (below : i < new.chunkCount) :
    ∃ same, sameHash old new i.toNat = .ok same ∧ (same = true ↔ Kept old new i) := by
  have newInside : i.toNat < new.chunkHashes.length := by
    rw [newCounted]
    exact UInt32.lt_iff_toNat_lt.mp below
  unfold sameHash Kept
  by_cases inOld : i < old.chunkCount
  · have inOldNat := UInt32.lt_iff_toNat_lt.mp inOld
    have oldInside : i.toNat < old.chunkHashes.length := by
      rw [oldCounted]
      exact inOldNat
    rw [if_pos inOldNat, indexList_of_lt oldInside, indexList_of_lt newInside,
      List.getElem?_eq_getElem oldInside, List.getElem?_eq_getElem newInside]
    refine ⟨_, rfl, ?_⟩
    simp [inOld]
  · rw [if_neg fun inOldNat => inOld (UInt32.lt_iff_toNat_lt.mpr inOldNat)]
    refine ⟨false, rfl, ?_⟩
    simp [inOld]

/-- A round puts its chunk into one of the two collections. -/
theorem diffChunk_spec (oldCounted : old.Counted) (newCounted : new.Counted) {i : UInt32}
    (below : i < new.chunkCount) (unchanged : HashedSet UInt32) (changed : ShardedMap UInt32 String) :
    (Kept old new i ∧ diffChunk old new (unchanged, changed) i.toNat =
      .ok (unchanged.insert i (), changed)) ∨
    (¬ Kept old new i ∧ ∃ hash, new.chunkHashes[i.toNat]? = some hash ∧
      diffChunk old new (unchanged, changed) i.toNat = .ok (unchanged, changed.insert i hash)) := by
  have newInside : i.toNat < new.chunkHashes.length := by
    rw [newCounted]
    exact UInt32.lt_iff_toNat_lt.mp below
  obtain ⟨same, compared, kept⟩ := sameHash_spec oldCounted newCounted below
  simp only [diffChunk, compared, indexList_of_lt newInside, bind, Except.bind, pure, Except.pure,
    UInt32.ofNat_toNat]
  cases same with
  | true => exact .inl ⟨kept.mp rfl, rfl⟩
  | false =>
      have notKept : ¬ Kept old new i := by
        intro isKept
        cases kept.mpr isKept
      exact .inr ⟨notKept, _, List.getElem?_eq_getElem newInside, rfl⟩

/-- After the rounds below `n`, the chunks below `n` are in one of the two collections. -/
structure ComparedBelow (old new : Manifest) (n : Nat)
    (found : HashedSet UInt32 × ShardedMap UInt32 String) : Prop where
  unchanged : ∀ i, found.1.get? i = some () ↔ i.toNat < n ∧ Kept old new i
  changed : ∀ i hash, found.2.get? i = some hash ↔
    i.toNat < n ∧ ¬ Kept old new i ∧ new.chunkHashes[i.toNat]? = some hash

theorem ComparedBelow.step {n : Nat} {found : HashedSet UInt32 × ShardedMap UInt32 String}
    (compared : ComparedBelow old new n found) (oldCounted : old.Counted) (newCounted : new.Counted)
    (below : n < new.chunkCount.toNat) :
    ∃ next, diffChunk old new found n = .ok next ∧ ComparedBelow old new (n + 1) next := by
  have index : (UInt32.ofNat n).toNat = n :=
    UInt32.toNat_ofNat_of_lt' (Nat.lt_trans below new.chunkCount.toNat_lt)
  have split : ∀ i : UInt32, i.toNat < n + 1 ↔ i.toNat < n ∨ i = UInt32.ofNat n := by
    intro i
    rw [← UInt32.toNat_inj, index]
    exact Nat.lt_succ_iff_lt_or_eq
  have belowCount : UInt32.ofNat n < new.chunkCount := by
    rw [UInt32.lt_iff_toNat_lt, index]
    exact below
  have round := diffChunk_spec oldCounted newCounted belowCount found.1 found.2
  rw [index] at round
  rcases round with ⟨kept, inserted⟩ | ⟨notKept, hash, newHash, inserted⟩
  · refine ⟨_, inserted, ?_, ?_⟩
    · intro i
      rw [ShardedMap.get?_insert, split]
      by_cases last : i = UInt32.ofNat n
      · subst last
        simp [kept]
      · simp [last, compared.unchanged]
    · intro i hash
      rw [compared.changed, split]
      by_cases last : i = UInt32.ofNat n
      · subst last
        simp [kept]
      · simp [last]
  · refine ⟨_, inserted, ?_, ?_⟩
    · intro i
      rw [compared.unchanged, split]
      by_cases last : i = UInt32.ofNat n
      · subst last
        simp [notKept]
      · simp [last]
    · intro i other
      rw [ShardedMap.get?_insert, split]
      by_cases last : i = UInt32.ofNat n
      · subst last
        rw [index]
        simp [notKept, newHash]
      · simp [last, compared.changed]

theorem diffChunks_spec (oldCounted : old.Counted) (newCounted : new.Counted) {n : Nat}
    (fits : n ≤ new.chunkCount.toNat) :
    ∃ found, (List.range n).foldlM (diffChunk old new) (ShardedMap.empty, ShardedMap.empty) =
        .ok found ∧ ComparedBelow old new n found := by
  induction n with
  | zero => exact ⟨_, rfl, by simp, by simp⟩
  | succ n ih =>
      obtain ⟨found, looped, compared⟩ := ih (Nat.le_of_succ_le fits)
      obtain ⟨next, round, comparedNext⟩ := compared.step oldCounted newCounted fits
      refine ⟨next, ?_, comparedNext⟩
      rw [List.range_succ, List.foldlM_append, looped]
      simp [round, bind, Except.bind, pure, Except.pure]

/-- Collecting a range of indices. -/
theorem foldl_insert_range' (set : HashedSet UInt32) (first count : Nat) (i : UInt32)
    (fits : first + count ≤ 2 ^ 32) :
    ((List.range' first count).foldl (fun set i => set.insert (UInt32.ofNat i) ()) set).get? i =
        some () ↔
      set.get? i = some () ∨ (first ≤ i.toNat ∧ i.toNat < first + count) := by
  induction count generalizing set first with
  | zero =>
      have empty : ¬ (first ≤ i.toNat ∧ i.toNat < first + 0) := by omega
      simp only [List.range'_zero, List.foldl_nil, empty, or_false]
  | succ count ih =>
      have index : (UInt32.ofNat first).toNat = first :=
        UInt32.toNat_ofNat_of_lt' (show first < 2 ^ 32 by omega)
      rw [List.range'_succ, List.foldl_cons, ih _ _ (by omega), ShardedMap.get?_insert]
      by_cases here : i = UInt32.ofNat first
      · subst here
        rw [index]
        simp
      · have different : i.toNat ≠ first := fun same =>
          here (UInt32.toNat_inj.mp (same.trans index.symm))
        have shifted : (first + 1 ≤ i.toNat ∧ i.toNat < first + 1 + count) ↔
            (first ≤ i.toNat ∧ i.toNat < first + (count + 1)) := by omega
        rw [if_neg here, shifted]

/-- The patch of two versions of one file. -/
theorem compute_describes (sameFile : old.fileId = new.fileId) (oldCounted : old.Counted)
    (newCounted : new.Counted) :
    ∃ patch, compute old new = .ok patch ∧ patch.Describes old new := by
  obtain ⟨found, looped, compared⟩ := diffChunks_spec oldCounted newCounted (Nat.le_refl _)
  unfold compute
  rw [if_neg (not_not_intro sameFile)]
  simp only [looped, bind, Except.bind, pure, Except.pure]
  refine ⟨_, rfl, ?_, ?_, ?_⟩
  · intro i
    rw [ShardedMap.mem_keys_set, UInt32.lt_iff_toNat_lt, compared.unchanged]
  · intro i hash
    rw [compared.changed, UInt32.lt_iff_toNat_lt]
  · intro i
    have oldFits := old.chunkCount.toNat_lt
    have newFits := new.chunkCount.toNat_lt
    rw [ShardedMap.mem_keys_set, foldl_insert_range' .empty _ _ i (by omega), ShardedMap.get?_empty,
      UInt32.le_iff_toNat_le, UInt32.lt_iff_toNat_lt]
    simp only [reduceCtorEq, false_or]
    omega

end Compute

/-! ### What a patch asks for -/

section Describes

variable {patch : DeltaPatch} {old new : Manifest}

theorem mem_chunksToFetch {i : UInt32} : i ∈ patch.chunksToFetch ↔ i ∈ patch.changed.keys :=
  List.mem_mergeSort

/-- A chunk needs to be fetched exactly when it is listed for that. -/
theorem needsFetch_iff {i : UInt32} : patch.needsFetch i = true ↔ i ∈ patch.chunksToFetch := by
  rw [needsFetch, ShardedMap.contains_iff, mem_chunksToFetch]

theorem mem_chunksToDelete {i : UInt32} : i ∈ patch.chunksToDelete ↔ i ∈ patch.deleted.keys :=
  List.mem_mergeSort

theorem Describes.mem_changed (describes : patch.Describes old new) (newCounted : new.Counted)
    {i : UInt32} : i ∈ patch.changed.keys ↔ i < new.chunkCount ∧ ¬ Kept old new i := by
  rw [ShardedMap.mem_keys]
  constructor
  · rintro ⟨hash, found⟩
    obtain ⟨below, notKept, _⟩ := (describes.changed i hash).mp found
    exact ⟨below, notKept⟩
  · rintro ⟨below, notKept⟩
    have inside : i.toNat < new.chunkHashes.length := by
      rw [newCounted]
      exact UInt32.lt_iff_toNat_lt.mp below
    refine ⟨new.chunkHashes[i.toNat], ?_⟩
    exact (describes.changed i _).mpr ⟨below, notKept, List.getElem?_eq_getElem inside⟩

/-- The chunks of both versions are split into three disjoint sets. -/
structure Partitions (patch : DeltaPatch) (old new : Manifest) : Prop where
  unchanged_changed : ∀ i ∈ patch.unchanged.keys, i ∉ patch.changed.keys
  unchanged_deleted : ∀ i ∈ patch.unchanged.keys, i ∉ patch.deleted.keys
  changed_deleted : ∀ i ∈ patch.changed.keys, i ∉ patch.deleted.keys
  union : ∀ i, i ∈ patch.unchanged.keys ∨ i ∈ patch.changed.keys ↔ i < new.chunkCount
  deleted : ∀ i, i ∈ patch.deleted.keys ↔ new.chunkCount ≤ i ∧ i < old.chunkCount

theorem Describes.partitions (describes : patch.Describes old new) (newCounted : new.Counted) :
    patch.Partitions old new where
  unchanged_changed i inUnchanged := by
    rw [describes.mem_changed newCounted]
    exact fun changed => changed.2 ((describes.unchanged i).mp inUnchanged).2
  unchanged_deleted i inUnchanged := by
    rw [describes.deleted]
    have below := ((describes.unchanged i).mp inUnchanged).1
    exact fun deleted => absurd below (UInt32.not_lt.mpr deleted.1)
  changed_deleted i inChanged := by
    rw [describes.deleted]
    have below := ((describes.mem_changed newCounted).mp inChanged).1
    exact fun deleted => absurd below (UInt32.not_lt.mpr deleted.1)
  union i := by
    rw [describes.unchanged, describes.mem_changed newCounted]
    by_cases kept : Kept old new i <;> simp [kept]
  deleted := describes.deleted

/-- The patch's verifier accepts exactly what the new manifest's does, on its changed chunks. -/
theorem verifyChunk_eq_ok_iff {sha256 : List UInt8 → List UInt8} {i : UInt32} {data : List UInt8} :
    patch.verifyChunk sha256 i data = .ok () ↔
      patch.changed.get? i = some (hashBytes sha256 data) := by
  unfold verifyChunk
  cases patch.changed.get? i with
  | none => simp
  | some expected =>
      by_cases same : hashBytes sha256 data = expected
      · simp [same]
      · simp [same, Ne.symm same]

theorem Describes.verified (describes : patch.Describes old new)
    {sha256 : List UInt8 → List UInt8} {i : UInt32} {data : List UInt8}
    (accepted : patch.verifyChunk sha256 i data = .ok ()) :
    new.verifyChunk sha256 i data = .ok (.ok ()) :=
  Manifest.verifyChunk_eq_ok_iff.mpr
    ((describes.changed i _).mp (verifyChunk_eq_ok_iff.mp accepted)).2.2

end Describes

end DeltaPatch

/-! ### The files of the node -/

namespace PatchApplicator

variable {app : PatchApplicator} {sha256 : List UInt8 → List UInt8}

theorem chunkPath_inj {i j : UInt32} (same : app.chunkPath i = app.chunkPath j) : i = j :=
  chunkPath_injective same

/-- The chunk file can be read and has the hash of the manifest. -/
def intact (sha256 : List UInt8 → List UInt8) (app : PatchApplicator) (manifest : Manifest)
    (fault : String → Option IoError) (disk : Disk) (i : UInt32) : Bool :=
  match readFile fault disk (app.chunkPath i) with
  | .ok data => manifest.chunkHashes[i.toNat]? = some (hashBytes sha256 data)
  | .error _ => false

/-- A chunk that is not intact is noted as corrupt. -/
theorem checkChunk_eq {manifest : Manifest} {fault : String → Option IoError} {disk : Disk}
    {i : UInt32} (inside : i.toNat < manifest.chunkHashes.length) (corrupt : List UInt32) :
    checkChunk sha256 app manifest fault disk corrupt i =
      .ok (if intact sha256 app manifest fault disk i then corrupt else corrupt ++ [i]) := by
  unfold checkChunk intact
  cases readFile fault disk (app.chunkPath i) with
  | error e => rfl
  | ok data =>
      simp only [Manifest.verifyChunk, indexList_of_lt inside, List.getElem?_eq_getElem inside, bind,
        Except.bind, pure, Except.pure, Option.some.injEq, eq_comm]
      by_cases same : hashBytes sha256 data = manifest.chunkHashes[i.toNat] <;> simp [same]

/-- `verify_unchanged` returns the unchanged chunks that are not intact. -/
theorem verifyUnchanged_eq {manifest : Manifest} {patch : DeltaPatch}
    {fault : String → Option IoError} {disk : Disk} {layout : Layout UInt32 Unit}
    (inside : ∀ i ∈ patch.unchanged.keys, i.toNat < manifest.chunkHashes.length) :
    app.verifyUnchanged sha256 layout patch manifest fault disk =
      .ok (.ok (((layout.iter patch.unchanged).map Prod.fst).filter fun i =>
        !intact sha256 app manifest fault disk i)) := by
  have loop : ∀ (indices corrupt : List UInt32),
      (∀ i ∈ indices, i.toNat < manifest.chunkHashes.length) →
      indices.foldlM (checkChunk sha256 app manifest fault disk) corrupt =
        .ok (corrupt ++ indices.filter fun i => !intact sha256 app manifest fault disk i) := by
    intro indices
    induction indices with
    | nil => simp [pure, Except.pure]
    | cons i indices ih =>
        intro corrupt bounded
        rw [List.foldlM_cons, checkChunk_eq (bounded i List.mem_cons_self)]
        have rest := ih (if intact sha256 app manifest fault disk i then corrupt else corrupt ++ [i])
          fun j mem => bounded j (List.mem_cons_of_mem i mem)
        simp only [bind, Except.bind, rest]
        cases good : intact sha256 app manifest fault disk i <;> simp [good]
  have bounded : ∀ i ∈ (layout.iter patch.unchanged).map Prod.fst,
      i.toNat < manifest.chunkHashes.length := by
    intro i mem
    obtain ⟨entry, inIter, rfl⟩ := List.mem_map.mp mem
    exact inside _ (List.mem_map.mpr ⟨entry, Layout.mem_iter.mp inIter, rfl⟩)
  simp only [verifyUnchanged, loop _ _ bounded, bind, Except.bind, pure, Except.pure,
    List.nil_append]

theorem intact_iff {manifest : Manifest} {fault : String → Option IoError} {disk : Disk}
    {i : UInt32} : intact sha256 app manifest fault disk i = true ↔
      ∃ data, readFile fault disk (app.chunkPath i) = .ok data ∧
        manifest.verifyChunk sha256 i data = .ok (.ok ()) := by
  unfold intact
  simp only [Manifest.verifyChunk_eq_ok_iff]
  cases readFile fault disk (app.chunkPath i) <;> simp

/-- Store fetched chunks one after the other. -/
def storeFetched (app : PatchApplicator) (fetched : UInt32 → List UInt8) :
    List UInt32 → Disk → Disk
  | [], disk => disk
  | i :: rest, disk =>
      storeFetched app fetched rest (writeFile disk (app.chunkPath i) (some (fetched i)))

/-- A stored chunk is on the disk afterwards, and every other file is as before. -/
theorem storeFetched_eq (fetched : UInt32 → List UInt8) (indices : List UInt32) (disk : Disk) :
    (∀ i ∈ indices, app.storeFetched fetched indices disk (app.chunkPath i) = some (fetched i)) ∧
      ∀ path, (∀ i ∈ indices, path ≠ app.chunkPath i) →
        app.storeFetched fetched indices disk path = disk path := by
  induction indices generalizing disk with
  | nil => exact ⟨fun i mem => absurd mem List.not_mem_nil, fun _ _ => rfl⟩
  | cons i indices ih =>
      obtain ⟨stored, others⟩ := ih (writeFile disk (app.chunkPath i) (some (fetched i)))
      constructor
      · intro j mem
        by_cases later : j ∈ indices
        · exact stored j later
        · have first : j = i := by
            simpa [later] using mem
          subst first
          rw [storeFetched, others, writeFile_same]
          intro k laterK same
          exact later (chunkPath_inj same ▸ laterK)
      · intro path different
        rw [storeFetched, others path fun j mem => different j (List.mem_cons_of_mem i mem),
          writeFile_ne _ _ (different i List.mem_cons_self)]

/-- The paths of the chunk files with these indices. -/
def paths (app : PatchApplicator) (indices : UInt32 → Prop) (path : String) : Prop :=
  ∃ i, indices i ∧ path = app.chunkPath i

/-- A fault ends the deletion at its index. -/
theorem deleteFrom_of_fault {fault : String → Option RemoveFault} {i : UInt32} {e : RemoveFault}
    (stopped : fault (app.chunkPath i) = some e) (rest : List UInt32) (count : Nat) (disk : Disk) :
    app.deleteFrom fault (i :: rest) count disk = (disk, .error (.io e.val)) := by
  simp only [deleteFrom, removeFile_of_fault stopped, if_neg e.property]

/-- Without a fault the deletion goes on without the file of the index. -/
theorem deleteFrom_of_no_fault {fault : String → Option RemoveFault} {i : UInt32}
    (free : fault (app.chunkPath i) = none) (rest : List UInt32) (count : Nat) (disk : Disk) :
    app.deleteFrom fault (i :: rest) count disk =
      app.deleteFrom fault rest (count + if disk (app.chunkPath i) = none then 0 else 1)
        (writeFile disk (app.chunkPath i) none) := by
  rcases removeFile_of_no_fault free disk with
    ⟨data, present, removed⟩ | ⟨absent, e, notFound, failed⟩
  · simp [deleteFrom, removed, present]
  · simp [deleteFrom, failed, notFound, absent]

/-- A deletion that returns without an error has removed exactly the files of its indices. -/
theorem deleteFrom_ok {fault : String → Option RemoveFault} {indices : List UInt32}
    {count total : Nat} {disk final : Disk}
    (deleted : app.deleteFrom fault indices count disk = (final, .ok total)) :
    RemovedExactly (app.paths (· ∈ indices)) disk final := by
  induction indices generalizing count disk with
  | nil =>
      cases deleted
      refine .nothing ?_ _
      simp [paths]
  | cons i indices ih =>
      cases stopped : fault (app.chunkPath i) with
      | some e =>
          rw [deleteFrom_of_fault stopped] at deleted
          cases deleted
      | none =>
          rw [deleteFrom_of_no_fault stopped] at deleted
          refine (RemovedExactly.one disk (app.chunkPath i)).trans (ih deleted) ?_
          intro path
          simp [paths]

end PatchApplicator

/-! ### The update -/

section Update

variable {patch : DeltaPatch} {old new : Manifest} {app : PatchApplicator}
  {sha256 : List UInt8 → List UInt8}

/-- Every chunk of the manifest is on the disk and verifies. -/
def PatchApplicator.Verifies (app : PatchApplicator) (sha256 : List UInt8 → List UInt8)
    (manifest : Manifest) (disk : Disk) : Prop :=
  ∀ i < manifest.chunkCount, ∃ chunk, disk (app.chunkPath i) = some chunk ∧
    manifest.verifyChunk sha256 i chunk = .ok (.ok ())

/-- The files of the new version, none of the old one behind its end, and no other change. -/
structure PatchApplicator.Updated (app : PatchApplicator) (sha256 : List UInt8 → List UInt8)
    (patch : DeltaPatch) (old new : Manifest) (before after : Disk) : Prop where
  verified : app.Verifies sha256 new after
  gone : ∀ i, new.chunkCount ≤ i → i < old.chunkCount → after (app.chunkPath i) = none
  frame : ∀ path, (∀ i ∈ patch.chunksToFetch, path ≠ app.chunkPath i) →
    (∀ i ∈ patch.chunksToDelete, path ≠ app.chunkPath i) → after path = before path

/-- The unchanged chunks have hashes in the new manifest. -/
theorem DeltaPatch.Describes.unchanged_inside (describes : patch.Describes old new)
    (newCounted : new.Counted) : ∀ i ∈ patch.unchanged.keys, i.toNat < new.chunkHashes.length := by
  intro i mem
  rw [newCounted]
  exact UInt32.lt_iff_toNat_lt.mp ((describes.unchanged i).mp mem).1

/-- `verify_unchanged` returns no index exactly when all unchanged chunks are intact. -/
theorem PatchApplicator.verifyUnchanged_eq_nil_iff (describes : patch.Describes old new)
    (newCounted : new.Counted) {layout : Layout UInt32 Unit} {fault : String → Option IoError}
    {disk : Disk} :
    app.verifyUnchanged sha256 layout patch new fault disk = .ok (.ok []) ↔
      ∀ i ∈ patch.unchanged.keys, intact sha256 app new fault disk i = true := by
  rw [verifyUnchanged_eq (describes.unchanged_inside newCounted)]
  simp only [Except.ok.injEq, List.filter_eq_nil_iff, Bool.not_eq_true', Bool.not_eq_false,
    List.forall_mem_map, ShardedMap.keys, Layout.mem_iter]

/-- Fetching the changed chunks and deleting the stale ones leaves the new version. -/
theorem DeltaPatch.Describes.update (describes : patch.Describes old new) (newCounted : new.Counted)
    {layout : Layout UInt32 Unit} {readFault : String → Option IoError}
    {removeFault : String → Option RemoveFault} {fetched : UInt32 → List UInt8} {count : Nat}
    {disk final : Disk}
    (intact : app.verifyUnchanged sha256 layout patch new readFault disk = .ok (.ok []))
    (accepted : ∀ i ∈ patch.chunksToFetch, patch.verifyChunk sha256 i (fetched i) = .ok ())
    (deleted : app.deleteStaleChunks patch removeFault
      (app.storeFetched fetched patch.chunksToFetch disk) = (final, .ok count)) :
    app.Updated sha256 patch old new disk final := by
  have parts := describes.partitions newCounted
  obtain ⟨stored, notStored⟩ := PatchApplicator.storeFetched_eq fetched patch.chunksToFetch disk
  obtain ⟨gone, notGone⟩ := PatchApplicator.deleteFrom_ok deleted
  have kept : ∀ i < new.chunkCount, final (app.chunkPath i) =
      app.storeFetched fetched patch.chunksToFetch disk (app.chunkPath i) := by
    intro i below
    apply notGone
    rintro ⟨j, stale, same⟩
    rw [DeltaPatch.mem_chunksToDelete, describes.deleted] at stale
    cases PatchApplicator.chunkPath_inj same
    exact absurd below (UInt32.not_lt.mpr stale.1)
  constructor
  · intro i below
    rw [kept i below]
    rcases (parts.union i).mpr below with unchanged | changed
    · have untouched : app.storeFetched fetched patch.chunksToFetch disk (app.chunkPath i) =
          disk (app.chunkPath i) := by
        apply notStored
        intro j fetch same
        cases PatchApplicator.chunkPath_inj same
        exact parts.unchanged_changed i unchanged (DeltaPatch.mem_chunksToFetch.mp fetch)
      obtain ⟨data, read, verified⟩ := PatchApplicator.intact_iff.mp
        ((PatchApplicator.verifyUnchanged_eq_nil_iff describes newCounted).mp intact i unchanged)
      exact ⟨data, untouched.trans (readFile_eq_ok.mp read).2, verified⟩
    · have fetch := DeltaPatch.mem_chunksToFetch.mpr changed
      exact ⟨fetched i, stored i fetch, describes.verified (accepted i fetch)⟩
  · intro i above below
    have stale : i ∈ patch.chunksToDelete := by
      rw [DeltaPatch.mem_chunksToDelete, describes.deleted]
      exact ⟨above, below⟩
    exact gone _ ⟨i, stale, rfl⟩
  · intro path notFetched notDeleted
    rw [notGone path fun ⟨i, stale, same⟩ => notDeleted i stale same, notStored path notFetched]

/-- On the files of the old version the unchanged chunks are intact. -/
theorem DeltaPatch.Describes.intact_of_old (describes : patch.Describes old new)
    (newCounted : new.Counted) {layout : Layout UInt32 Unit} {disk : Disk}
    (verifies : app.Verifies sha256 old disk) :
    app.verifyUnchanged sha256 layout patch new (fun _ => none) disk = .ok (.ok []) := by
  apply (PatchApplicator.verifyUnchanged_eq_nil_iff describes newCounted).mpr
  intro i unchanged
  obtain ⟨_, inOld, sameHash⟩ := (describes.unchanged i).mp unchanged
  obtain ⟨chunk, stored, verified⟩ := verifies i inOld
  rw [Manifest.verifyChunk_eq_ok_iff, sameHash] at verified
  apply PatchApplicator.intact_iff.mpr
  exact ⟨chunk, readFile_eq_ok.mpr ⟨rfl, stored⟩, Manifest.verifyChunk_eq_ok_iff.mpr verified⟩

/-- The hex text of an injective digest tells data apart. -/
theorem hashBytes_inj (injective : ∀ xs ys : List UInt8, sha256 xs = sha256 ys → xs = ys)
    {xs ys : List UInt8} (same : hashBytes sha256 xs = hashBytes sha256 ys) : xs = ys :=
  injective xs ys (hexEncode_injective same)

/-- On the files of the old version, a node fetches the chunks behind its end and those whose file
differs from the new version's chunk. -/
theorem DeltaPatch.Describes.mem_fetch_iff (describes : patch.Describes old new)
    (newCounted : new.Counted) (injective : ∀ xs ys : List UInt8, sha256 xs = sha256 ys → xs = ys)
    {disk : Disk} (verifies : app.Verifies sha256 old disk) {newChunk : UInt32 → List UInt8}
    (newVerified : ∀ i < new.chunkCount, new.verifyChunk sha256 i (newChunk i) = .ok (.ok ()))
    (i : UInt32) :
    i ∈ patch.chunksToFetch ↔ i < new.chunkCount ∧
      (old.chunkCount ≤ i ∨ disk (app.chunkPath i) ≠ some (newChunk i)) := by
  rw [DeltaPatch.mem_chunksToFetch, describes.mem_changed newCounted]
  apply and_congr_right
  intro below
  have newHash := Manifest.verifyChunk_eq_ok_iff.mp (newVerified i below)
  unfold DeltaPatch.Kept
  rw [← UInt32.not_lt]
  by_cases inOld : i < old.chunkCount
  · obtain ⟨chunk, stored, verified⟩ := verifies i inOld
    rw [Manifest.verifyChunk_eq_ok_iff] at verified
    simp only [inOld, true_and, not_true_eq_false, false_or, stored, verified, newHash,
      Option.some.injEq, ne_eq]
    apply not_congr
    exact ⟨hashBytes_inj injective, fun same => by rw [same]⟩
  · simp [inOld]

/-- A delta update yields exactly the new version, for any two versions of one file. The patch splits
the chunks of both into what is kept, fetched and deleted. On any files of which `verify_unchanged`
reports none, storing accepted data for every chunk to fetch and a deletion without an error leave
the new version and change nothing else. On files that verify under the old version it reports none,
and the chunks to fetch are those behind the old end and those that differ from the new version; so
where no file is stored behind the old end, exactly those absent or different. -/
theorem delta_update (sha256 : List UInt8 → List UInt8) (old new : Manifest)
    (sameFile : old.fileId = new.fileId)
    (oldCounted : old.chunkHashes.length = old.chunkCount.toNat)
    (newCounted : new.chunkHashes.length = new.chunkCount.toNat) :
    ∃ patch, DeltaPatch.compute old new = .ok patch ∧ patch.Partitions old new ∧
      (∀ (app : PatchApplicator) (layout : Layout UInt32 Unit) (readFault : String → Option IoError)
        (removeFault : String → Option RemoveFault) (fetched : UInt32 → List UInt8) (count : Nat)
        (disk final : Disk),
        app.verifyUnchanged sha256 layout patch new readFault disk = .ok (.ok []) →
        (∀ i ∈ patch.chunksToFetch, patch.verifyChunk sha256 i (fetched i) = .ok ()) →
        app.deleteStaleChunks patch removeFault
          (app.storeFetched fetched patch.chunksToFetch disk) = (final, .ok count) →
        app.Updated sha256 patch old new disk final) ∧
      ∀ (app : PatchApplicator) (layout : Layout UInt32 Unit) (disk : Disk),
        app.Verifies sha256 old disk →
        app.verifyUnchanged sha256 layout patch new (fun _ => none) disk = .ok (.ok []) ∧
        ((∀ xs ys : List UInt8, sha256 xs = sha256 ys → xs = ys) →
          ∀ newChunk : UInt32 → List UInt8,
          (∀ i < new.chunkCount, new.verifyChunk sha256 i (newChunk i) = .ok (.ok ())) →
          (∀ i, i ∈ patch.chunksToFetch ↔ i < new.chunkCount ∧
            (old.chunkCount ≤ i ∨ disk (app.chunkPath i) ≠ some (newChunk i))) ∧
          ((∀ i, old.chunkCount ≤ i → disk (app.chunkPath i) = none) →
            ∀ i, i ∈ patch.chunksToFetch ↔ i < new.chunkCount ∧
              disk (app.chunkPath i) ≠ some (newChunk i))) := by
  obtain ⟨patch, computed, describes⟩ :=
    DeltaPatch.compute_describes sameFile oldCounted newCounted
  refine ⟨patch, computed, describes.partitions newCounted, ?_, ?_⟩
  · intro app layout readFault removeFault fetched count disk final intact accepted deleted
    exact describes.update newCounted intact accepted deleted
  · intro app layout disk verifies
    refine ⟨describes.intact_of_old newCounted verifies, ?_⟩
    intro injective newChunk newVerified
    have fetch := describes.mem_fetch_iff newCounted injective verifies newVerified
    refine ⟨fetch, ?_⟩
    intro nothingBehind i
    rw [fetch i]
    apply and_congr_right
    intro _
    constructor
    · rintro (behind | differs)
      · simp [nothingBehind i behind]
      · exact differs
    · exact .inr

end Update

/-! ### A file that grows by one chunk -/

/-- The version of the sample file before its last byte. -/
def shorterManifest : Manifest := Manifest.built Manifest.sampleDigest "m" "0" [1, 2] 2

def sampleApplicator : PatchApplicator where
  dataDir := "d"
  fileId := "m"

/-- The chunk files of the sample file below a count. -/
def sampleFiles (count : Nat) : Disk := fun path =>
  if path = "d/m.chunk.000000" then some [1, 2]
  else if path = "d/m.chunk.000001" ∧ 1 < count then some [3]
  else none

theorem shorterManifest_wellFormed : shorterManifest.WellFormed :=
  Manifest.wellFormed_built Manifest.sampleDigest "m" "0" ⟨by decide, by decide, by decide⟩

/-- The only chunk of the shorter version is on the disk. -/
theorem sampleFiles_verify_shorter (count : Nat) :
    sampleApplicator.Verifies Manifest.sampleDigest shorterManifest (sampleFiles count) := by
  intro i below
  have only : i = 0 := by
    have counted : shorterManifest.chunkCount = 1 := by decide
    rw [counted, UInt32.lt_iff_toNat_lt] at below
    exact UInt32.toNat_inj.mp (Nat.lt_one_iff.mp below)
  subst only
  exact ⟨[1, 2], rfl, by decide +kernel⟩

/-- A chunk of the sample file is the first or the last. -/
theorem lt_sampleManifest {i : UInt32} (below : i < sampleManifest.chunkCount) : i = 0 ∨ i = 1 := by
  have counted : sampleManifest.chunkCount = 2 := by decide
  rw [counted, UInt32.lt_iff_toNat_lt] at below
  rw [← UInt32.toNat_inj, ← UInt32.toNat_inj]
  change i.toNat < 2 at below
  change i.toNat = 0 ∨ i.toNat = 1
  omega

theorem samplePatch_describes : ∃ patch,
    DeltaPatch.compute shorterManifest sampleManifest = .ok patch ∧
      patch.Describes shorterManifest sampleManifest :=
  DeltaPatch.compute_describes rfl shorterManifest_wellFormed.hashes sampleManifest_wellFormed.hashes

/-- A node that happens to have the new last chunk already is told to fetch it: its files verify
under both versions. -/
theorem present_chunk_is_fetched :
    ∃ patch, DeltaPatch.compute shorterManifest sampleManifest = .ok patch ∧
      sampleApplicator.Verifies Manifest.sampleDigest shorterManifest (sampleFiles 2) ∧
      sampleApplicator.Verifies Manifest.sampleDigest sampleManifest (sampleFiles 2) ∧
      1 ∈ patch.chunksToFetch := by
  obtain ⟨patch, computed, describes⟩ := samplePatch_describes
  refine ⟨patch, computed, sampleFiles_verify_shorter 2, ?_, ?_⟩
  · intro i below
    rcases lt_sampleManifest below with rfl | rfl
    · exact ⟨[1, 2], rfl, by decide +kernel⟩
    · exact ⟨[3], rfl, by decide +kernel⟩
  · rw [DeltaPatch.mem_chunksToFetch, describes.mem_changed sampleManifest_wellFormed.hashes]
    exact ⟨by decide, fun kept => absurd kept.1 (by decide)⟩

/-- The update of a node that has the shorter version. -/
theorem delta_update_sample :
    ∃ patch final, DeltaPatch.compute shorterManifest sampleManifest = .ok patch ∧
      sampleApplicator.deleteStaleChunks patch (fun _ => none)
        (sampleApplicator.storeFetched (fun _ => [3]) patch.chunksToFetch (sampleFiles 1)) =
        (final, .ok 0) ∧
      sampleApplicator.Updated Manifest.sampleDigest patch shorterManifest sampleManifest
        (sampleFiles 1) final := by
  obtain ⟨patch, computed, _, updates, onOld⟩ := delta_update Manifest.sampleDigest shorterManifest
    sampleManifest rfl shorterManifest_wellFormed.hashes sampleManifest_wellFormed.hashes
  obtain ⟨patch', computed', describes⟩ := samplePatch_describes
  rw [computed] at computed'
  cases computed'
  let layout : Layout UInt32 Unit :=
    { shardCount := 1
      shardOf := fun _ => 0
      shardOf_lt := fun _ => Nat.one_pos
      order := id
      order_perm := fun _ => .refl _ }
  have intact := (onOld sampleApplicator layout (sampleFiles 1) (sampleFiles_verify_shorter 1)).1
  have accepted : ∀ i ∈ patch.chunksToFetch,
      patch.verifyChunk Manifest.sampleDigest i [3] = .ok () := by
    intro i fetch
    rw [DeltaPatch.mem_chunksToFetch, describes.mem_changed sampleManifest_wellFormed.hashes] at fetch
    obtain ⟨below, notKept⟩ := fetch
    rw [DeltaPatch.verifyChunk_eq_ok_iff, describes.changed]
    rcases lt_sampleManifest below with rfl | rfl
    · exact absurd ⟨by decide, by decide +kernel⟩ notKept
    · exact ⟨below, notKept, by decide +kernel⟩
  have nothingStale : patch.chunksToDelete = [] := by
    apply List.eq_nil_iff_forall_not_mem.mpr
    intro i stale
    rw [DeltaPatch.mem_chunksToDelete, describes.deleted] at stale
    have ordered : shorterManifest.chunkCount ≤ sampleManifest.chunkCount := by decide
    exact absurd (UInt32.lt_of_lt_of_le stale.2 ordered) (UInt32.not_lt.mpr stale.1)
  have deleted : ∀ disk, sampleApplicator.deleteStaleChunks patch (fun _ => none) disk =
      (disk, .ok 0) := by
    intro disk
    rw [PatchApplicator.deleteStaleChunks, nothingStale]
    rfl
  exact ⟨patch, _, computed, deleted _, updates sampleApplicator layout (fun _ => none)
    (fun _ => none) (fun _ => [3]) 0 (sampleFiles 1) _ intact accepted (deleted _)⟩

end ModelDistribution
