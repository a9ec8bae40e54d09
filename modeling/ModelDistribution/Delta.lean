/-
Module: ModelDistribution.Delta
Layer: Model
Purpose: Delta updates between two versions of a file: the patch computed from two manifests, what a
  node fetches and deletes for it, and the applicator on the chunk files of a node. The order in which
  a hash set yields its members is a parameter.
Imports: ModelDistribution.ChunkPath, ModelDistribution.FileStore, ModelDistribution.Manifest,
  ModelDistribution.Foundation.ShardedMap
Trusted boundary: human-reviewed spec
Main exports: DeltaPatch, DeltaPatch.compute, DeltaPatch.chunksToFetch, DeltaPatch.chunksToDelete,
  DeltaPatch.totalChanged, DeltaPatch.totalUnchanged, DeltaPatch.totalDeleted,
  DeltaPatch.verifyChunk, PatchApplicator, PatchApplicator.verifyUnchanged,
  PatchApplicator.deleteStaleChunks

[src/delta.rs]
-/
import ModelDistribution.ChunkPath
import ModelDistribution.FileStore
import ModelDistribution.Manifest
import ModelDistribution.Foundation.ShardedMap

namespace ModelDistribution

open Foundation

/-- `DeltaPatch`: the chunk changes between two versions. -/
structure DeltaPatch where
  oldVersion : String
  newVersion : String
  fileId : String
  /-- Chunks of both versions with the same hash. -/
  unchanged : HashedSet UInt32
  /-- New or changed chunks with the hash of the new version. -/
  changed : ShardedMap UInt32 String
  /-- Chunks of the old version behind the end of the new one. -/
  deleted : HashedSet UInt32

namespace DeltaPatch

/-- The comparison of chunk `i`, which evaluates the hashes only below the old count. -/
def sameHash (old new : Manifest) (i : Nat) : Checked Bool := do
  if i < old.chunkCount.toNat then
    let oldHash ← indexList old.chunkHashes i
    let newHash ← indexList new.chunkHashes i
    return oldHash = newHash
  else
    return false

/-- One round of the loop over the chunks of the new version. -/
def diffChunk (old new : Manifest) (found : HashedSet UInt32 × ShardedMap UInt32 String) (i : Nat) :
    Checked (HashedSet UInt32 × ShardedMap UInt32 String) := do
  if ← sameHash old new i then
    return (found.1.insert (UInt32.ofNat i) (), found.2)
  else
    let newHash ← indexList new.chunkHashes i
    return (found.1, found.2.insert (UInt32.ofNat i) newHash)

/-- `DeltaPatch::compute`. -/
def compute (old new : Manifest) : Checked DeltaPatch := do
  if old.fileId ≠ new.fileId then .error .assertionFailed
  else
    let oldN := old.chunkCount.toNat
    let newN := new.chunkCount.toNat
    let (unchanged, changed) ←
      (List.range newN).foldlM (diffChunk old new) (ShardedMap.empty, ShardedMap.empty)
    let deleted := (List.range' newN (oldN - newN)).foldl
      (fun deleted i => deleted.insert (UInt32.ofNat i) ()) ShardedMap.empty
    return {
      oldVersion := old.version
      newVersion := new.version
      fileId := new.fileId
      unchanged
      changed
      deleted }

/-- `chunks_to_fetch`. -/
def chunksToFetch (patch : DeltaPatch) : List UInt32 := patch.changed.keys.mergeSort (· ≤ ·)

/-- `chunks_to_delete`. -/
def chunksToDelete (patch : DeltaPatch) : List UInt32 := patch.deleted.keys.mergeSort (· ≤ ·)

/-- `needs_fetch`. -/
def needsFetch (patch : DeltaPatch) (chunkIndex : UInt32) : Bool := patch.changed.contains chunkIndex

/-- `total_changed`. -/
def totalChanged (patch : DeltaPatch) : Nat := patch.changed.entries.length

/-- `total_unchanged`. -/
def totalUnchanged (patch : DeltaPatch) : Nat := patch.unchanged.entries.length

/-- `total_deleted`. -/
def totalDeleted (patch : DeltaPatch) : Nat := patch.deleted.entries.length

/-- `verify_chunk` of a patch. -/
def verifyChunk (sha256 : List UInt8 → List UInt8) (patch : DeltaPatch) (chunkIndex : UInt32)
    (data : List UInt8) : Except DistError Unit := do
  match patch.changed.get? chunkIndex with
  | none => .error (.proto s!"chunk {chunkIndex} is not in the delta patch's changed set")
  | some expected =>
      let actual := hashBytes sha256 data
      if actual ≠ expected then .error (.hashMismatch chunkIndex expected actual) else .ok ()

end DeltaPatch

/-- `PatchApplicator`. -/
structure PatchApplicator where
  dataDir : String
  fileId : String
deriving DecidableEq, Repr

namespace PatchApplicator

/-- `chunk_path` of the applicator. -/
def chunkPath (app : PatchApplicator) (chunkIndex : UInt32) : String :=
  joinPath app.dataDir
    (app.fileId ++ ".chunk." ++ String.ofList (paddedDecimal 6 chunkIndex.toNat))

/-- One chunk of `verify_unchanged`: a chunk that cannot be read counts as corrupt. -/
def checkChunk (sha256 : List UInt8 → List UInt8) (app : PatchApplicator) (manifest : Manifest)
    (fault : String → Option IoError) (disk : Disk) (corrupt : List UInt32) (chunkIndex : UInt32) :
    Checked (List UInt32) := do
  match readFile fault disk (app.chunkPath chunkIndex) with
  | .ok data =>
      match ← manifest.verifyChunk sha256 chunkIndex data with
      | .ok () => return corrupt
      | .error _ => return corrupt ++ [chunkIndex]
  | .error _ => return corrupt ++ [chunkIndex]

/-- `verify_unchanged`: the corrupt ones of the unchanged chunks, in the order of the set. -/
def verifyUnchanged (sha256 : List UInt8 → List UInt8) (layout : Layout UInt32 Unit)
    (app : PatchApplicator) (patch : DeltaPatch) (manifest : Manifest)
    (fault : String → Option IoError) (disk : Disk) : Checked (Except DistError (List UInt32)) := do
  let corrupt ← ((layout.iter patch.unchanged).map Prod.fst).foldlM
    (checkChunk sha256 app manifest fault disk) []
  return .ok corrupt

/-- The loop of `delete_stale_chunks`: a file that is not there is passed over, and any other error
ends the loop. -/
def deleteFrom (app : PatchApplicator) (fault : String → Option RemoveFault) :
    List UInt32 → (count : Nat) → Disk → Disk × Except DistError Nat
  | [], count, disk => (disk, .ok count)
  | chunkIndex :: rest, count, disk =>
      match removeFile fault disk (app.chunkPath chunkIndex) with
      | (disk, .ok ()) => deleteFrom app fault rest (count + 1) disk
      | (disk, .error e) =>
          if e.kind = .notFound then deleteFrom app fault rest count disk
          else (disk, .error (.io e))

/-- `delete_stale_chunks`. -/
def deleteStaleChunks (app : PatchApplicator) (patch : DeltaPatch)
    (fault : String → Option RemoveFault) (disk : Disk) : Disk × Except DistError Nat :=
  app.deleteFrom fault patch.chunksToDelete 0 disk

end PatchApplicator

end ModelDistribution
