/-
Module: ModelDistribution.Proofs.DeltaChain
Layer: Proofs
Purpose: Updates one after another. Two updates leave the same files as the direct one, up to explicit
  collisions of the digest, and never fetch or delete less than it. A version with the chunks of an
  earlier one is reached from it without touching a file, so going back restores the files. Over intact
  files of the old version an update always goes through.
Imports: ModelDistribution.Proofs.DeltaWire, ModelDistribution.Proofs.StaleDeletion
Trusted boundary: none
Main exports: PatchApplicator.Applies, PatchApplicator.EndsWith, applies_of_verifies, delta_chain
-/
import ModelDistribution.Proofs.DeltaWire
import ModelDistribution.Proofs.StaleDeletion

namespace ModelDistribution

open Foundation

/-- An update by the patch has gone through: its unchanged chunks were intact, the data for the others
was accepted, and the deletion ended without an error. -/
def PatchApplicator.Applies (app : PatchApplicator) (sha256 : List UInt8 → List UInt8)
    (patch : DeltaPatch) (new : Manifest) (before after : Disk) : Prop :=
  ∃ (layout : Layout UInt32 Unit) (readFault : String → Option IoError)
    (removeFault : String → Option RemoveFault) (fetched : UInt32 → List UInt8) (count : Nat),
    app.verifyUnchanged sha256 layout patch new readFault before = .ok (.ok []) ∧
    (∀ i ∈ patch.chunksToFetch, patch.verifyChunk sha256 i (fetched i) = .ok ()) ∧
    app.deleteStaleChunks patch removeFault
      (app.storeFetched fetched patch.chunksToFetch before) = (after, .ok count)

/-- No chunk file behind the end of the version. -/
def PatchApplicator.EndsWith (app : PatchApplicator) (manifest : Manifest) (disk : Disk) : Prop :=
  ∀ i, manifest.chunkCount ≤ i → disk (app.chunkPath i) = none

section Chain

variable {app : PatchApplicator} {sha256 : List UInt8 → List UInt8} {patch : DeltaPatch}
  {old new middle : Manifest} {before after disk other : Disk}

/-! ### One update -/

theorem PatchApplicator.Applies.updated (applied : app.Applies sha256 patch new before after)
    (describes : patch.Describes old new) (newCounted : new.Counted) :
    app.Updated sha256 patch old new before after := by
  rcases applied with ⟨layout, readFault, removeFault, fetched, count, intact, accepted, deleted⟩
  exact describes.update newCounted intact accepted deleted

/-- Over intact files of the old version, with data that the patch accepts and no faults of the disk,
the update goes through. -/
theorem PatchApplicator.applies_of_verifies (describes : patch.Describes old new)
    (newCounted : new.Counted) (verifies : app.Verifies sha256 old before)
    {fetched : UInt32 → List UInt8}
    (accepted : ∀ i ∈ patch.chunksToFetch, patch.verifyChunk sha256 i (fetched i) = .ok ()) :
    ∃ after, app.Applies sha256 patch new before after := by
  have intact : app.verifyUnchanged sha256 (backwards Unit) patch new (fun _ => none) before =
      .ok (.ok []) := describes.intact_of_old newCounted verifies
  have returns : ∃ count, (app.deleteFrom (fun _ => none) patch.chunksToDelete 0
      (app.storeFetched fetched patch.chunksToFetch before)).2 = .ok count :=
    PatchApplicator.deleteFrom_returns (fun _ _ => rfl) 0 _
  rcases returns with ⟨count, counted⟩
  exact ⟨_, backwards Unit, fun _ => none, fun _ => none, fetched, count, intact, accepted,
    Prod.ext rfl counted⟩

/-- An update leaves every file alone that is no chunk file. -/
theorem PatchApplicator.Updated.elsewhere
    (updated : app.Updated sha256 patch old new before after) {path : String}
    (foreign : ∀ i, path ≠ app.chunkPath i) : after path = before path :=
  updated.frame path (fun i _ => foreign i) fun i _ => foreign i

/-- Where the files end with the old version, they end with the new one after the update. -/
theorem PatchApplicator.Updated.endsWith
    (updated : app.Updated sha256 patch old new before after) (describes : patch.Describes old new)
    (newCounted : new.Counted) (ended : app.EndsWith old before) : app.EndsWith new after := by
  intro i behind
  by_cases below : i < old.chunkCount
  · exact updated.gone i behind below
  · have notBelow := UInt32.not_lt.mp below
    rw [updated.frame, ended i notBelow]
    · intro j fetch same
      cases chunkPath_inj same
      rw [DeltaPatch.mem_chunksToFetch, describes.mem_changed newCounted] at fetch
      exact absurd fetch.1 (UInt32.not_lt.mpr behind)
    · intro j stale same
      cases chunkPath_inj same
      rw [DeltaPatch.mem_chunksToDelete, describes.deleted] at stale
      exact below stale.2

/-! ### Two versions of one file -/

/-- Equal hash texts mean equal data or a collision. -/
theorem eq_or_collides {xs ys : List UInt8} (same : hashBytes sha256 xs = hashBytes sha256 ys) :
    xs = ys ∨ xs ≠ ys ∧ sha256 xs = sha256 ys := by
  by_cases eq : xs = ys
  · exact .inl eq
  · exact .inr ⟨eq, hexEncode_injective same⟩

/-- Two disks with the files of one version, nothing behind its end and the same files elsewhere are
the same, up to collisions. -/
theorem same_files (verifies : app.Verifies sha256 new disk) (ended : app.EndsWith new disk)
    (verifies' : app.Verifies sha256 new other) (ended' : app.EndsWith new other)
    (elsewhere : ∀ path, (∀ i, path ≠ app.chunkPath i) → disk path = other path) (path : String) :
    disk path = other path ∨
      ∃ xs ys, disk path = some xs ∧ other path = some ys ∧ xs ≠ ys ∧ sha256 xs = sha256 ys := by
  by_cases chunk : ∃ i, path = app.chunkPath i
  · rcases chunk with ⟨i, rfl⟩
    by_cases below : i < new.chunkCount
    · rcases verifies i below with ⟨xs, stored, verified⟩
      rcases verifies' i below with ⟨ys, stored', verified'⟩
      rw [Manifest.verifyChunk_eq_ok_iff] at verified verified'
      rw [verified] at verified'
      rcases eq_or_collides (Option.some.inj verified') with rfl | collision
      · exact .inl (stored.trans stored'.symm)
      · exact .inr ⟨xs, ys, stored, stored', collision⟩
    · have behind := UInt32.not_lt.mp below
      exact .inl ((ended i behind).trans (ended' i behind).symm)
  · exact .inl (elsewhere path fun i same => chunk ⟨i, same⟩)

/-! ### Three versions -/

/-- A chunk that is kept in two steps is kept in one. -/
theorem DeltaPatch.Kept.trans {i : UInt32} (first : Kept old middle i) (second : Kept middle new i) :
    Kept old new i :=
  ⟨first.1, first.2.trans second.2⟩

variable {p₁₂ p₂₃ p₁₃ : DeltaPatch}

/-- What the direct update fetches, one of the two steps fetches. -/
theorem DeltaPatch.Describes.fetch_split (first : p₁₂.Describes old middle)
    (second : p₂₃.Describes middle new) (straight : p₁₃.Describes old new)
    (middleCounted : middle.Counted) (newCounted : new.Counted) {i : UInt32}
    (fetch : i ∈ p₁₃.chunksToFetch) : i ∈ p₁₂.chunksToFetch ∨ i ∈ p₂₃.chunksToFetch := by
  rw [mem_chunksToFetch, straight.mem_changed newCounted] at fetch
  rw [mem_chunksToFetch, mem_chunksToFetch, first.mem_changed middleCounted,
    second.mem_changed newCounted]
  by_cases later : Kept middle new i
  · by_cases earlier : Kept old middle i
    · exact absurd (earlier.trans later) fetch.2
    · exact .inl ⟨later.1, earlier⟩
  · exact .inr ⟨fetch.1, later⟩

/-- What the direct update deletes, one of the two steps deletes. -/
theorem DeltaPatch.Describes.delete_split (first : p₁₂.Describes old middle)
    (second : p₂₃.Describes middle new) (straight : p₁₃.Describes old new) {i : UInt32}
    (stale : i ∈ p₁₃.chunksToDelete) : i ∈ p₁₂.chunksToDelete ∨ i ∈ p₂₃.chunksToDelete := by
  rw [mem_chunksToDelete, straight.deleted] at stale
  rw [mem_chunksToDelete, mem_chunksToDelete, first.deleted, second.deleted]
  by_cases inMiddle : i < middle.chunkCount
  · exact .inr ⟨stale.1, inMiddle⟩
  · exact .inl ⟨UInt32.not_lt.mp inMiddle, stale.2⟩

/-- As many chunks are listed to fetch as are changed, each of them once. -/
theorem DeltaPatch.length_chunksToFetch (patch : DeltaPatch) :
    patch.chunksToFetch.length = patch.totalChanged := by
  rw [chunksToFetch, List.length_mergeSort, totalChanged, ShardedMap.keys, List.length_map]

theorem DeltaPatch.nodup_chunksToFetch (patch : DeltaPatch) : patch.chunksToFetch.Nodup :=
  (List.mergeSort_perm _ _).nodup_iff.mpr patch.changed.nodup

theorem DeltaPatch.Describes.total_le (first : p₁₂.Describes old middle)
    (second : p₂₃.Describes middle new) (straight : p₁₃.Describes old new)
    (middleCounted : middle.Counted) (newCounted : new.Counted) :
    p₁₃.totalChanged ≤ p₁₂.totalChanged + p₂₃.totalChanged := by
  have inside : p₁₃.chunksToFetch ⊆ p₁₂.chunksToFetch ++ p₂₃.chunksToFetch := fun i fetch =>
    List.mem_append.mpr (first.fetch_split second straight middleCounted newCounted fetch)
  have bound := (List.subperm_of_subset p₁₃.nodup_chunksToFetch inside).length_le
  rwa [List.length_append, length_chunksToFetch, length_chunksToFetch, length_chunksToFetch]
    at bound

/-- Between versions with the same chunks there is nothing to do. -/
theorem DeltaPatch.Describes.nothing_to_do (describes : patch.Describes old new)
    (newCounted : new.Counted) (sameCount : old.chunkCount = new.chunkCount)
    (sameHashes : old.chunkHashes = new.chunkHashes) :
    patch.chunksToFetch = [] ∧ patch.chunksToDelete = [] := by
  constructor
  · apply List.eq_nil_iff_forall_not_mem.mpr
    intro i fetch
    rw [mem_chunksToFetch, describes.mem_changed newCounted] at fetch
    exact fetch.2 ⟨sameCount ▸ fetch.1, by rw [sameHashes]⟩
  · apply List.eq_nil_iff_forall_not_mem.mpr
    intro i stale
    rw [mem_chunksToDelete, describes.deleted, sameCount] at stale
    exact absurd stale.2 (UInt32.not_lt.mpr stale.1)

end Chain

/-- Two updates that go through, from the files of a first version with nothing behind its end, leave
the same files as the direct update, or a file at which the two have a collision of the digest. What the
direct update fetches and deletes, one of the steps fetches and deletes, so it fetches no more than they
do. Where the third version has the chunks of the first, the direct update changes no file. -/
theorem delta_chain (sha256 : List UInt8 → List UInt8) (app : PatchApplicator)
    (v₁ v₂ v₃ : Manifest) (counted₁ : v₁.Counted) (counted₂ : v₂.Counted) (counted₃ : v₃.Counted)
    (p₁₂ p₂₃ p₁₃ : DeltaPatch) (computed₁₂ : DeltaPatch.compute v₁ v₂ = .ok p₁₂)
    (computed₂₃ : DeltaPatch.compute v₂ v₃ = .ok p₂₃)
    (computed₁₃ : DeltaPatch.compute v₁ v₃ = .ok p₁₃) (disk middle final direct : Disk)
    (ended : app.EndsWith v₁ disk) (first : app.Applies sha256 p₁₂ v₂ disk middle)
    (second : app.Applies sha256 p₂₃ v₃ middle final)
    (straight : app.Applies sha256 p₁₃ v₃ disk direct) :
    (∀ path, final path = direct path ∨ ∃ xs ys, final path = some xs ∧ direct path = some ys ∧
      xs ≠ ys ∧ sha256 xs = sha256 ys) ∧
    (∀ i ∈ p₁₃.chunksToFetch, i ∈ p₁₂.chunksToFetch ∨ i ∈ p₂₃.chunksToFetch) ∧
    (∀ i ∈ p₁₃.chunksToDelete, i ∈ p₁₂.chunksToDelete ∨ i ∈ p₂₃.chunksToDelete) ∧
    p₁₃.totalChanged ≤ p₁₂.totalChanged + p₂₃.totalChanged ∧
    (v₁.chunkCount = v₃.chunkCount → v₁.chunkHashes = v₃.chunkHashes → direct = disk) := by
  have describes₁₂ := DeltaPatch.describes_of_compute counted₁ counted₂ computed₁₂
  have describes₂₃ := DeltaPatch.describes_of_compute counted₂ counted₃ computed₂₃
  have describes₁₃ := DeltaPatch.describes_of_compute counted₁ counted₃ computed₁₃
  have updated₁₂ := first.updated describes₁₂ counted₂
  have updated₂₃ := second.updated describes₂₃ counted₃
  have updated₁₃ := straight.updated describes₁₃ counted₃
  refine ⟨?_, ?_, ?_, ?_, ?_⟩
  · have endedMiddle := updated₁₂.endsWith describes₁₂ counted₂ ended
    apply same_files updated₂₃.verified (updated₂₃.endsWith describes₂₃ counted₃ endedMiddle)
      updated₁₃.verified (updated₁₃.endsWith describes₁₃ counted₃ ended)
    intro path foreign
    rw [updated₂₃.elsewhere foreign, updated₁₂.elsewhere foreign, updated₁₃.elsewhere foreign]
  · intro i fetch
    exact describes₁₂.fetch_split describes₂₃ describes₁₃ counted₂ counted₃ fetch
  · intro i stale
    exact describes₁₂.delete_split describes₂₃ describes₁₃ stale
  · exact describes₁₂.total_le describes₂₃ describes₁₃ counted₂ counted₃
  · intro sameCount sameHashes
    have idle := describes₁₃.nothing_to_do counted₃ sameCount sameHashes
    funext path
    apply updated₁₃.frame
    · rw [idle.1]
      intro i fetch
      cases fetch
    · rw [idle.2]
      intro i stale
      cases stale

/-! ### There and back -/

theorem sampleFiles_endsWith : sampleApplicator.EndsWith shorterManifest (sampleFiles 1) := by
  intro i behind
  have first : sampleApplicator.chunkPath 0 = "d/m.chunk.000000" := rfl
  have different : sampleApplicator.chunkPath i ≠ "d/m.chunk.000000" := by
    rw [← first]
    intro same
    cases PatchApplicator.chunkPath_inj same
    exact absurd behind (by decide)
  simp [sampleFiles, different]

/-- The last chunk is accepted for whatever the growth of the file fetches. -/
theorem growth_accepted {patch : DeltaPatch} (describes : patch.Describes shorterManifest sampleManifest)
    {i : UInt32} (fetch : i ∈ patch.chunksToFetch) :
    patch.verifyChunk Manifest.sampleDigest i [3] = .ok () := by
  rw [DeltaPatch.mem_chunksToFetch, describes.mem_changed sampleManifest_wellFormed.hashes] at fetch
  rcases fetch with ⟨below, notKept⟩
  rw [DeltaPatch.verifyChunk_eq_ok_iff, describes.changed]
  rcases lt_sampleManifest below with rfl | rfl
  · exact absurd ⟨by decide, by decide +kernel⟩ notKept
  · exact ⟨below, notKept, by decide +kernel⟩

/-- Cutting the last chunk off fetches nothing. -/
theorem cut_fetches_nothing {patch : DeltaPatch}
    (describes : patch.Describes sampleManifest shorterManifest) : patch.chunksToFetch = [] := by
  apply List.eq_nil_iff_forall_not_mem.mpr
  intro i fetch
  rw [DeltaPatch.mem_chunksToFetch, describes.mem_changed shorterManifest_wellFormed.hashes] at fetch
  have below : i < sampleManifest.chunkCount := UInt32.lt_of_lt_of_le fetch.1 (by decide)
  rcases lt_sampleManifest below with rfl | rfl
  · exact fetch.2 ⟨below, by decide +kernel⟩
  · exact absurd fetch.1 (by decide)

/-- The shorter version of the sample file, grown by its last chunk and cut again, has the files it
had. -/
theorem delta_chain_sample :
    ∃ p₁₂ p₂₃ middle final, DeltaPatch.compute shorterManifest sampleManifest = .ok p₁₂ ∧
      DeltaPatch.compute sampleManifest shorterManifest = .ok p₂₃ ∧
      sampleApplicator.Applies Manifest.sampleDigest p₁₂ sampleManifest (sampleFiles 1) middle ∧
      sampleApplicator.Applies Manifest.sampleDigest p₂₃ shorterManifest middle final ∧
      final = sampleFiles 1 := by
  have counted₁ : shorterManifest.Counted := shorterManifest_wellFormed.hashes
  have counted₂ : sampleManifest.Counted := sampleManifest_wellFormed.hashes
  rcases samplePatch_describes with ⟨p₁₂, computed₁₂, describes₁₂⟩
  have sameFile : sampleManifest.fileId = shorterManifest.fileId := rfl
  rcases DeltaPatch.compute_describes sameFile counted₂ counted₁ with ⟨p₂₃, computed₂₃, describes₂₃⟩
  rcases DeltaPatch.compute_describes rfl counted₁ counted₁ with ⟨p₁₃, computed₁₃, describes₁₃⟩
  have verifies := sampleFiles_verify_shorter 1
  rcases PatchApplicator.applies_of_verifies describes₁₂ counted₂ verifies
    fun i fetch => growth_accepted describes₁₂ fetch with ⟨middle, first⟩
  have nothing₂₃ : ∀ i ∈ p₂₃.chunksToFetch,
      p₂₃.verifyChunk Manifest.sampleDigest i [] = .ok () := by
    rw [cut_fetches_nothing describes₂₃]
    intro i fetch
    cases fetch
  have nothing₁₃ : ∀ i ∈ p₁₃.chunksToFetch,
      p₁₃.verifyChunk Manifest.sampleDigest i [] = .ok () := by
    rw [(describes₁₃.nothing_to_do counted₁ rfl rfl).1]
    intro i fetch
    cases fetch
  rcases PatchApplicator.applies_of_verifies describes₂₃ counted₁
    (first.updated describes₁₂ counted₂).verified nothing₂₃ with ⟨final, second⟩
  rcases PatchApplicator.applies_of_verifies describes₁₃ counted₁ verifies nothing₁₃
    with ⟨direct, straight⟩
  rcases delta_chain Manifest.sampleDigest sampleApplicator shorterManifest sampleManifest
    shorterManifest counted₁ counted₂ counted₁ p₁₂ p₂₃ p₁₃ computed₁₂ computed₂₃ computed₁₃
    (sampleFiles 1) middle final direct sampleFiles_endsWith first second straight
    with ⟨same, _, _, _, idle⟩
  refine ⟨p₁₂, p₂₃, middle, final, computed₁₂, computed₂₃, first, second, ?_⟩
  funext path
  rw [← idle rfl rfl]
  rcases same path with eq | ⟨xs, ys, _, _, different, digests⟩
  · exact eq
  · exact absurd (Manifest.sampleDigest_injective _ _ digests) different

end ModelDistribution
