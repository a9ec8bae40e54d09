/-
Module: ModelDistribution.Manifest
Layer: Model
Purpose: The file manifest: chunk arithmetic, building from memory and from a streamed file, chunk
  verification, and decoding from a JSON value. Hashing is a parameter (`sha256`), and every function
  with 64-bit arithmetic takes the build profile that decides what an overflow does.
Imports: ModelDistribution.Error, ModelDistribution.Foundation.Checked,
  ModelDistribution.Foundation.Chunking, ModelDistribution.Foundation.Json,
  ModelDistribution.Foundation.Text
Trusted boundary: human-reviewed spec
Main exports: Manifest, chunksNeeded, chunkRangeInner, chunkSizeOfMb, hashBytes, Manifest.build,
  Manifest.buildFromFile, Manifest.chunkRange, Manifest.verifyChunk, Manifest.fromValue,
  Manifest.WellFormed

[src/manifest.rs, first half; the chunk size of a job in src/main.rs]
-/
import ModelDistribution.Error
import ModelDistribution.Foundation.Checked
import ModelDistribution.Foundation.Chunking
import ModelDistribution.Foundation.Json
import ModelDistribution.Foundation.Text

namespace ModelDistribution

open Foundation

/-- `Manifest`: file-level metadata handed to every node before the transfer. -/
structure Manifest where
  fileId : String
  version : String
  totalSize : UInt64
  chunkSize : UInt64
  chunkCount : UInt32
  /-- SHA-256 hex digest per chunk. -/
  chunkHashes : List String
deriving DecidableEq, Repr

/-- `chunks_needed`: rounded-up quotient, cast to 32 bits. -/
def chunksNeeded (profile : Profile) (totalSize chunkSize : UInt64) : Checked UInt32 := do
  let sum ← profile.addU64 totalSize chunkSize
  let dividend ← profile.subU64 sum 1
  let count ← divU64 dividend chunkSize
  return count.toUInt32

/-- `chunk_range_inner`: the byte range of a chunk, clipped at the end of the file. -/
def chunkRangeInner (profile : Profile) (index : UInt32) (chunkSize totalSize : UInt64) :
    Checked (UInt64 × UInt64) := do
  let start ← profile.mulU64 index.toUInt64 chunkSize
  let stop ← profile.addU64 start chunkSize
  return (start, min stop totalSize)

/-- The chunk size that `run_client` passes on: `chunk_size_mb * 1024 * 1024`. -/
def chunkSizeOfMb (profile : Profile) (chunkSizeMb : UInt64) : Checked UInt64 := do
  let chunkSizeKb ← profile.mulU64 chunkSizeMb 1024
  profile.mulU64 chunkSizeKb 1024

/-- `hash_bytes`: the hex text of the digest. -/
def hashBytes (sha256 : List UInt8 → List UInt8) (data : List UInt8) : String :=
  hexEncode (sha256 data)

namespace Manifest

/-- Hash of chunk `i` of `data`, the closure that `build` maps over the chunk indices. -/
def hashChunk (profile : Profile) (sha256 : List UInt8 → List UInt8) (data : List UInt8)
    (chunkSize totalSize : UInt64) (i : Nat) : Checked String := do
  let (start, stop) ← chunkRangeInner profile (UInt32.ofNat i) chunkSize totalSize
  let chunk ← sliceList data start.toNat stop.toNat
  return hashBytes sha256 chunk

/-- `Manifest::build`. -/
def build (profile : Profile) (sha256 : List UInt8 → List UInt8) (fileId version : String)
    (data : List UInt8) (chunkSize : UInt64) : Checked (Except DistError Manifest) := do
  let totalSize := UInt64.ofNat data.length
  let chunkCount ← chunksNeeded profile totalSize chunkSize
  let chunkHashes ←
    (List.range chunkCount.toNat).mapM (hashChunk profile sha256 data chunkSize totalSize)
  return .ok { fileId, version, totalSize, chunkSize, chunkCount, chunkHashes }

/-- The reading loop of `build_from_file`: one `read` into the whole buffer for each chunk. `reader`
gives the answer of each call from its number, the buffer length and the bytes left in the file. -/
def readChunks (sha256 : List UInt8 → List UInt8) (reader : Nat → Nat → Nat → Except IoError Nat)
    (contents : List UInt8) (bufferLen : Nat) :
    (rounds call position : Nat) → Except DistError (List String)
  | 0, _, _ => .ok []
  | rounds + 1, call, position =>
      match reader call bufferLen (contents.length - position) with
      | .error e => .error (.io e)
      | .ok n => do
          let rest ← readChunks sha256 reader contents bufferLen rounds (call + 1) (position + n)
          return hashBytes sha256 ((contents.drop position).take n) :: rest

/-- `Manifest::build_from_file`. `file` is what opening the path and asking for its length gives. -/
def buildFromFile (profile : Profile) (sha256 : List UInt8 → List UInt8) (fileId version : String)
    (file : Except IoError (List UInt8)) (reader : Nat → Nat → Nat → Except IoError Nat)
    (chunkSize : UInt64) : Checked (Except DistError Manifest) := do
  match file with
  | .error e => return .error (.io e)
  | .ok contents =>
      let totalSize := UInt64.ofNat contents.length
      let chunkCount ← chunksNeeded profile totalSize chunkSize
      checkCapacity chunkSize.toNat
      match readChunks sha256 reader contents chunkSize.toNat chunkCount.toNat 0 0 with
      | .error e => return .error e
      | .ok chunkHashes =>
          return .ok { fileId, version, totalSize, chunkSize, chunkCount, chunkHashes }

/-- `Manifest::chunk_range`. -/
def chunkRange (profile : Profile) (manifest : Manifest) (index : UInt32) :
    Checked (UInt64 × UInt64) :=
  chunkRangeInner profile index manifest.chunkSize manifest.totalSize

/-- `Manifest::verify_chunk`. -/
def verifyChunk (sha256 : List UInt8 → List UInt8) (manifest : Manifest) (index : UInt32)
    (data : List UInt8) : Checked (Except DistError Unit) := do
  let expected ← indexList manifest.chunkHashes index.toNat
  let actual := hashBytes sha256 data
  return if actual ≠ expected then .error (.hashMismatch index expected actual) else .ok ()

/-- Derived decoding of a manifest from a JSON value: an object with every field by name, or an array
with the fields in order. -/
def fromValue (value : Json) : Except String Manifest := do
  match value with
  | .object _ =>
      let fileId ← value.field "file_id" Json.asString
      let version ← value.field "version" Json.asString
      let totalSize ← value.field "total_size" Json.asUInt64
      let chunkSize ← value.field "chunk_size" Json.asUInt64
      let chunkCount ← value.field "chunk_count" Json.asUInt32
      let chunkHashes ← value.field "chunk_hashes" Json.asStrings
      return { fileId, version, totalSize, chunkSize, chunkCount, chunkHashes }
  | .array [fileId, version, totalSize, chunkSize, chunkCount, chunkHashes] =>
      let fileId ← fileId.asString
      let version ← version.asString
      let totalSize ← totalSize.asUInt64
      let chunkSize ← chunkSize.asUInt64
      let chunkCount ← chunkCount.asUInt32
      let chunkHashes ← chunkHashes.asStrings
      return { fileId, version, totalSize, chunkSize, chunkCount, chunkHashes }
  | .array items =>
      .error s!"invalid length {items.length}, expected struct Manifest with 6 elements"
  | other => other.invalidType "struct Manifest"

/-- A manifest whose fields agree: one hash for each of the `⌈totalSize / chunkSize⌉` chunks, with
the rounded-up quotient and so every chunk range inside 64 bits. -/
structure WellFormed (manifest : Manifest) : Prop where
  size_pos : 0 < manifest.chunkSize.toNat
  fits : manifest.totalSize.toNat + manifest.chunkSize.toNat - 1 < 2 ^ 64
  count : manifest.chunkCount.toNat = ceilDiv manifest.totalSize.toNat manifest.chunkSize.toNat
  hashes : manifest.chunkHashes.length = manifest.chunkCount.toNat

/-- The bytes are an acceptable chunk `i`: the length of its range and the hash of the manifest. -/
structure ChunkVerified (profile : Profile) (sha256 : List UInt8 → List UInt8)
    (manifest : Manifest) (i : UInt32) (data : List UInt8) : Prop where
  range : ∃ start stop, manifest.chunkRange profile i = .ok (start, stop) ∧
    data.length = stop.toNat - start.toNat
  hash : manifest.chunkHashes[i.toNat]? = some (hashBytes sha256 data)

/-! ### Chunk arithmetic without overflow -/

/-- Without an overflow panic the count is the cast quotient; at a sum of exactly `2 ^ 64` a release
build wraps twice and still gets there. -/
theorem chunksNeeded_eq {profile : Profile} {totalSize chunkSize : UInt64}
    (positive : 0 < chunkSize.toNat)
    (delivered : totalSize.toNat + chunkSize.toNat < 2 ^ 64 ∨ profile = .release) :
    chunksNeeded profile totalSize chunkSize =
      .ok ((totalSize + chunkSize - 1) / chunkSize).toUInt32 := by
  have nonzero : chunkSize ≠ 0 := fun zero => by simp [zero] at positive
  have divided : ∀ a : UInt64, divU64 a chunkSize = .ok (a / chunkSize) := fun a => if_neg nonzero
  rcases delivered with small | rfl
  · have noBorrow : (1 : UInt64).toNat ≤ (totalSize + chunkSize).toNat := by
      rw [UInt64.toNat_add, Nat.mod_eq_of_lt small]
      exact Nat.le_trans positive (Nat.le_add_left _ _)
    rw [chunksNeeded, profile.addU64_of_fits small]
    simp only [bind, Except.bind]
    rw [profile.subU64_of_le noBorrow]
    simp only [divided, pure, Except.pure]
  · simp only [chunksNeeded, Profile.addU64, Profile.subU64, Profile.deliver_release, divided, bind,
      Except.bind, pure, Except.pure]

/-- The cast quotient is the exact chunk count when the rounded-up sum and the count fit. -/
theorem toNat_chunkQuotient (totalSize chunkSize : UInt64) (positive : 0 < chunkSize.toNat)
    (fits : totalSize.toNat + chunkSize.toNat - 1 < 2 ^ 64)
    (few : ceilDiv totalSize.toNat chunkSize.toNat < 2 ^ 32) :
    ((totalSize + chunkSize - 1) / chunkSize).toUInt32.toNat =
      ceilDiv totalSize.toNat chunkSize.toNat := by
  have dividend : (totalSize + chunkSize - 1).toNat = totalSize.toNat + chunkSize.toNat - 1 := by
    rw [UInt64.toNat_sub, UInt64.toNat_add, UInt64.toNat_one]
    omega
  rw [UInt64.toNat_toUInt32, UInt64.toNat_div, dividend]
  exact Nat.mod_eq_of_lt few

private theorem toNat_minU64 (a b : UInt64) : (min a b).toNat = min a.toNat b.toNat := by
  rw [show min a b = if a ≤ b then a else b from rfl, Nat.min_def]
  by_cases ordered : a ≤ b
  · rw [if_pos ordered, if_pos (UInt64.le_iff_toNat_le.mp ordered)]
  · rw [if_neg ordered, if_neg fun le => ordered (UInt64.le_iff_toNat_le.mpr le)]

/-- Where the unclipped end fits 64 bits, the two ends are the mathematical ones. -/
theorem chunkRangeInner_of_fits (profile : Profile) (index : UInt32) (chunkSize totalSize : UInt64)
    (fits : (index.toNat + 1) * chunkSize.toNat < 2 ^ 64) :
    ∃ start stop, chunkRangeInner profile index chunkSize totalSize = .ok (start, stop) ∧
      start.toNat = index.toNat * chunkSize.toNat ∧
      stop.toNat = min ((index.toNat + 1) * chunkSize.toNat) totalSize.toNat := by
  have widened : index.toUInt64.toNat = index.toNat := UInt32.toNat_toUInt64 index
  rw [Nat.add_mul, Nat.one_mul] at fits
  obtain ⟨start, multiplied, startEq⟩ := profile.mulU64_exact (a := index.toUInt64) (b := chunkSize)
    (by rw [widened]; omega)
  rw [widened] at startEq
  obtain ⟨stop, added, stopEq⟩ := profile.addU64_exact (a := start) (b := chunkSize) (by omega)
  refine ⟨start, min stop totalSize, ?_, startEq, ?_⟩
  · simp [chunkRangeInner, multiplied, added, bind, Except.bind, pure, Except.pure]
  · rw [toNat_minU64, stopEq, startEq, Nat.add_mul, Nat.one_mul]

/-- An exact chunk range: no overflow, and the two ends are the mathematical ones. -/
theorem chunkRangeInner_exact (profile : Profile) (index : UInt32) (chunkSize totalSize : UInt64)
    (positive : 0 < chunkSize.toNat) (fits : totalSize.toNat + chunkSize.toNat - 1 < 2 ^ 64)
    (below : index.toNat < ceilDiv totalSize.toNat chunkSize.toNat) :
    ∃ start stop, chunkRangeInner profile index chunkSize totalSize = .ok (start, stop) ∧
      start.toNat = index.toNat * chunkSize.toNat ∧
      stop.toNat = min ((index.toNat + 1) * chunkSize.toNat) totalSize.toNat := by
  have inside := start_lt_of_lt_ceilDiv positive below
  apply chunkRangeInner_of_fits
  rw [Nat.add_mul, Nat.one_mul]
  omega

/-- Every chunk range of a well-formed manifest is computed exactly. -/
theorem WellFormed.chunkRange_exact {manifest : Manifest} (wellFormed : manifest.WellFormed)
    (profile : Profile) {index : UInt32} (below : index < manifest.chunkCount) :
    ∃ start stop, manifest.chunkRange profile index = .ok (start, stop) ∧
      start.toNat = index.toNat * manifest.chunkSize.toNat ∧
      stop.toNat = min ((index.toNat + 1) * manifest.chunkSize.toNat) manifest.totalSize.toNat := by
  refine chunkRangeInner_exact profile _ _ _ wellFormed.size_pos wellFormed.fits ?_
  rw [← wellFormed.count]
  exact UInt32.lt_iff_toNat_lt.mp below

/-- The ends of a chunk range of a well-formed manifest are ordered. -/
theorem WellFormed.start_le_stop {manifest : Manifest} (wellFormed : manifest.WellFormed)
    {profile : Profile} {index : UInt32} {start stop : UInt64} (below : index < manifest.chunkCount)
    (range : manifest.chunkRange profile index = .ok (start, stop)) : start.toNat ≤ stop.toNat := by
  obtain ⟨start', stop', exactRange, startEq, stopEq⟩ := wellFormed.chunkRange_exact profile below
  rw [exactRange] at range
  cases range
  have inside := start_lt_of_lt_ceilDiv wellFormed.size_pos
    (wellFormed.count ▸ UInt32.lt_iff_toNat_lt.mp below)
  rw [startEq, stopEq, Nat.add_mul]
  omega

/-! ### Verification -/

/-- `verify_chunk` accepts exactly the bytes whose hash is the expected one. -/
theorem verifyChunk_eq_ok_iff {sha256 : List UInt8 → List UInt8} {manifest : Manifest}
    {index : UInt32} {data : List UInt8} :
    manifest.verifyChunk sha256 index data = .ok (.ok ()) ↔
      manifest.chunkHashes[index.toNat]? = some (hashBytes sha256 data) := by
  unfold verifyChunk indexList
  cases found : manifest.chunkHashes[index.toNat]? with
  | none => simp [bind, Except.bind]
  | some expected =>
      by_cases same : hashBytes sha256 data = expected
      · simp [same, bind, Except.bind, pure, Except.pure]
      · have different : expected ≠ hashBytes sha256 data := fun e => same e.symm
        simp [same, different, bind, Except.bind, pure, Except.pure]

/-- `verify_chunk` returns on every chunk that has a hash. -/
theorem verifyChunk_returns {manifest : Manifest} {index : UInt32}
    (hashed : index.toNat < manifest.chunkHashes.length) (sha256 : List UInt8 → List UInt8)
    (data : List UInt8) : ∃ verdict, manifest.verifyChunk sha256 index data = .ok verdict := by
  simp only [verifyChunk, indexList_of_lt hashed, bind, Except.bind]
  exact ⟨_, rfl⟩

end Manifest

end ModelDistribution
