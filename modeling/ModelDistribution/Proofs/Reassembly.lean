/-
Module: ModelDistribution.Proofs.Reassembly
Layer: Proofs
Purpose: What `Manifest::build` returns, and that its chunks partition the file, pass their own
  verification and, when the digest is injective, join back to exactly the file they were cut from.
Imports: ModelDistribution.Foundation.Digest, ModelDistribution.Manifest
Trusted boundary: none
Main exports: Manifest.built, Manifest.build_eq_ok_iff, Manifest.wellFormed_built,
  Manifest.Partitions, build_chunks_reassemble
-/
import ModelDistribution.Foundation.Digest
import ModelDistribution.Manifest

namespace ModelDistribution

open Foundation

namespace Manifest

/-- The manifest of the whole contents: one hash for each piece of the file. -/
def built (sha256 : List UInt8 → List UInt8) (fileId version : String) (data : List UInt8)
    (chunkSize : UInt64) : Manifest where
  fileId := fileId
  version := version
  totalSize := UInt64.ofNat data.length
  chunkSize := chunkSize
  chunkCount := UInt32.ofNat (ceilDiv data.length chunkSize.toNat)
  chunkHashes := (List.range (ceilDiv data.length chunkSize.toNat)).map fun i =>
    hashBytes sha256 (piece data chunkSize.toNat i)

/-- The contents and the chunk size stay inside the machine's numbers: the rounded-up sum fits 64
bits and the number of chunks fits 32. -/
structure Measurable (data : List UInt8) (chunkSize : UInt64) : Prop where
  size_pos : 1 ≤ chunkSize.toNat
  fits : data.length + chunkSize.toNat - 1 < 2 ^ 64
  few : ceilDiv data.length chunkSize.toNat < 2 ^ 32

/-- The sum inside `chunks_needed` raises no panic. -/
def SumDelivered (profile : Profile) (data : List UInt8) (chunkSize : UInt64) : Prop :=
  data.length + chunkSize.toNat < 2 ^ 64 ∨ profile = .release

namespace Measurable

variable {data : List UInt8} {chunkSize : UInt64}

theorem toNat_totalSize (measurable : Measurable data chunkSize) :
    (UInt64.ofNat data.length).toNat = data.length := by
  have positive := measurable.size_pos
  have fits := measurable.fits
  apply UInt64.toNat_ofNat_of_lt
  show data.length < 2 ^ 64
  omega

theorem toNat_chunkCount (measurable : Measurable data chunkSize) :
    (UInt32.ofNat (ceilDiv data.length chunkSize.toNat)).toNat =
      ceilDiv data.length chunkSize.toNat :=
  UInt32.toNat_ofNat_of_lt measurable.few

end Measurable

section Build

variable {sha256 : List UInt8 → List UInt8} {fileId version : String} {data : List UInt8}
  {chunkSize : UInt64}

/-- The manifest of the whole contents has agreeing fields. -/
theorem wellFormed_built (sha256 : List UInt8 → List UInt8) (fileId version : String)
    (measurable : Measurable data chunkSize) :
    (built sha256 fileId version data chunkSize).WellFormed where
  size_pos := measurable.size_pos
  fits := by
    rw [built, measurable.toNat_totalSize]
    exact measurable.fits
  count := by
    rw [built, measurable.toNat_chunkCount, measurable.toNat_totalSize]
  hashes := by
    rw [built, measurable.toNat_chunkCount, List.length_map, List.length_range]

/-- Each call of the closure in `build` hashes the piece of the file under its index. -/
theorem hashChunk_eq (measurable : Measurable data chunkSize) (profile : Profile) {i : Nat}
    (below : i < ceilDiv data.length chunkSize.toNat) :
    hashChunk profile sha256 data chunkSize (UInt64.ofNat data.length) i =
      .ok (hashBytes sha256 (piece data chunkSize.toNat i)) := by
  have total := measurable.toNat_totalSize
  have index : (UInt32.ofNat i).toNat = i :=
    UInt32.toNat_ofNat_of_lt (Nat.lt_trans below measurable.few)
  have inside := start_lt_of_lt_ceilDiv measurable.size_pos below
  obtain ⟨start, stop, range, startEq, stopEq⟩ :=
    chunkRangeInner_exact profile (UInt32.ofNat i) chunkSize (UInt64.ofNat data.length)
      measurable.size_pos
      (by rw [total]; exact measurable.fits) (by rw [total, index]; exact below)
  rw [index] at startEq
  rw [index, total, Nat.add_mul, Nat.one_mul] at stopEq
  have sliced : sliceList data start.toNat stop.toNat =
      .ok ((data.drop start.toNat).take (stop.toNat - start.toNat)) := by
    apply sliceList_of_le
    · omega
    · omega
  have clipped : (data.drop start.toNat).take (stop.toNat - start.toNat) =
      piece data chunkSize.toNat i := by
    rw [piece, startEq, List.take_eq_take_iff, List.length_drop]
    omega
  simp only [hashChunk, range, bind, Except.bind, sliced, clipped, pure, Except.pure]

/-- With the sum delivered, the chunk count is the exact quotient. -/
theorem chunksNeeded_of_delivered (measurable : Measurable data chunkSize) {profile : Profile}
    (delivered : SumDelivered profile data chunkSize) :
    chunksNeeded profile (UInt64.ofNat data.length) chunkSize =
      .ok (UInt32.ofNat (ceilDiv data.length chunkSize.toNat)) := by
  have total := measurable.toNat_totalSize
  have quotient := toNat_chunkQuotient (UInt64.ofNat data.length) chunkSize
    measurable.size_pos (by rw [total]; exact measurable.fits)
    (by rw [total]; exact measurable.few)
  rw [total] at quotient
  rw [chunksNeeded_eq measurable.size_pos (by rw [total]; exact delivered)]
  apply congrArg Except.ok
  apply UInt32.toNat_inj.mp
  rw [quotient, measurable.toNat_chunkCount]

/-- A debug build panics when the sum is exactly `2 ^ 64`. -/
theorem chunksNeeded_overflow (measurable : Measurable data chunkSize) {profile : Profile}
    (stopped : ¬ SumDelivered profile data chunkSize) :
    chunksNeeded profile (UInt64.ofNat data.length) chunkSize = .error .arithmeticOverflow := by
  have debug : profile = .debug := by
    cases profile with
    | debug => rfl
    | release => exact absurd (.inr rfl) stopped
  subst debug
  have overflow : ¬ (UInt64.ofNat data.length).toNat + chunkSize.toNat < 2 ^ 64 := by
    rw [measurable.toNat_totalSize]
    intro small
    exact stopped (.inl small)
  simp only [chunksNeeded, Profile.addU64, decide_eq_false overflow, Profile.deliver, bind,
    Except.bind]

/-- With the sum delivered, `build` returns the manifest of the whole contents. -/
theorem build_eq_built (measurable : Measurable data chunkSize) {profile : Profile}
    (delivered : SumDelivered profile data chunkSize) :
    build profile sha256 fileId version data chunkSize =
      .ok (.ok (built sha256 fileId version data chunkSize)) := by
  have needed := chunksNeeded_of_delivered measurable delivered
  have hashed : (List.range (ceilDiv data.length chunkSize.toNat)).mapM
      (hashChunk profile sha256 data chunkSize (UInt64.ofNat data.length)) =
      .ok (built sha256 fileId version data chunkSize).chunkHashes := by
    apply mapM_eq_ok
    intro i mem
    exact hashChunk_eq measurable profile (List.mem_range.mp mem)
  simp only [build, needed, bind, Except.bind, measurable.toNat_chunkCount, hashed, pure,
    Except.pure]
  rfl

theorem build_overflow (measurable : Measurable data chunkSize) {profile : Profile}
    (stopped : ¬ SumDelivered profile data chunkSize) :
    build profile sha256 fileId version data chunkSize = .error .arithmeticOverflow := by
  simp only [build, chunksNeeded_overflow measurable stopped, bind, Except.bind]

/-- `build` returns exactly one manifest, and it returns unless the sum panics. -/
theorem build_eq_ok_iff (measurable : Measurable data chunkSize) {profile : Profile}
    {manifest : Manifest} :
    build profile sha256 fileId version data chunkSize = .ok (.ok manifest) ↔
      SumDelivered profile data chunkSize ∧
        manifest = built sha256 fileId version data chunkSize := by
  by_cases delivered : SumDelivered profile data chunkSize
  · rw [build_eq_built measurable delivered]
    simp [delivered, eq_comm]
  · rw [build_overflow measurable delivered]
    simp [delivered]

end Build

/-- The chunk ranges cut `[0, totalSize)` at increasing bounds: chunk `i` is the non-empty interval
between bound `i` and bound `i + 1` and is no longer than the chunk size. -/
structure Partitions (profile : Profile) (manifest : Manifest) (bound : Nat → Nat) : Prop where
  first : bound 0 = 0
  last : bound manifest.chunkCount.toNat = manifest.totalSize.toNat
  range : ∀ i < manifest.chunkCount, ∃ start stop,
    manifest.chunkRange profile i = .ok (start, stop) ∧
      start.toNat = bound i.toNat ∧ stop.toNat = bound (i.toNat + 1)
  nonempty : ∀ i < manifest.chunkCount.toNat, bound i < bound (i + 1)
  short : ∀ i < manifest.chunkCount.toNat, bound (i + 1) ≤ bound i + manifest.chunkSize.toNat

/-- Every well-formed manifest partitions its file, without overflow in any profile. -/
theorem WellFormed.partitions {manifest : Manifest} (wellFormed : manifest.WellFormed)
    (profile : Profile) :
    manifest.Partitions profile fun i =>
      min (i * manifest.chunkSize.toNat) manifest.totalSize.toNat where
  first := by simp
  last := by
    have reached := total_le_ceilDiv_mul manifest.totalSize.toNat wellFormed.size_pos
    rw [← wellFormed.count] at reached
    exact Nat.min_eq_right reached
  range := by
    intro i below
    obtain ⟨start, stop, range, startEq, stopEq⟩ := wellFormed.chunkRange_exact profile below
    have inside := start_lt_of_lt_ceilDiv wellFormed.size_pos
      (wellFormed.count ▸ UInt32.lt_iff_toNat_lt.mp below)
    refine ⟨start, stop, range, ?_, stopEq⟩
    rw [startEq, Nat.min_eq_left (Nat.le_of_lt inside)]
  nonempty := by
    intro i below
    have positive := wellFormed.size_pos
    have inside := start_lt_of_lt_ceilDiv positive (wellFormed.count ▸ below)
    show min _ _ < min ((i + 1) * _) _
    rw [Nat.add_mul]
    omega
  short := by
    intro i below
    show min ((i + 1) * _) _ ≤ min _ _ + _
    rw [Nat.add_mul]
    omega

section Verify

variable {sha256 : List UInt8 → List UInt8} {fileId version : String} {data : List UInt8}
  {chunkSize : UInt64}

/-- Under a built manifest `verify_chunk` accepts exactly the bytes that hash like the piece. -/
theorem verifyChunk_built_iff (measurable : Measurable data chunkSize) {i : UInt32}
    {chunk : List UInt8}
    (below : i < (built sha256 fileId version data chunkSize).chunkCount) :
    (built sha256 fileId version data chunkSize).verifyChunk sha256 i chunk = .ok (.ok ()) ↔
      hashBytes sha256 chunk = hashBytes sha256 (piece data chunkSize.toNat i.toNat) := by
  have inside : i.toNat < ceilDiv data.length chunkSize.toNat := by
    rw [← measurable.toNat_chunkCount]
    exact UInt32.lt_iff_toNat_lt.mp below
  rw [verifyChunk_eq_ok_iff]
  simp [built, inside, eq_comm]

/-- The slice of the contents under a chunk range is the piece with that index. -/
theorem sliceList_range_eq_piece (measurable : Measurable data chunkSize) {profile : Profile}
    {i : UInt32} {start stop : UInt64}
    (below : i < (built sha256 fileId version data chunkSize).chunkCount)
    (range : (built sha256 fileId version data chunkSize).chunkRange profile i =
      .ok (start, stop)) :
    sliceList data start.toNat stop.toNat = .ok (piece data chunkSize.toNat i.toNat) := by
  have wellFormed := wellFormed_built sha256 fileId version measurable
  obtain ⟨start', stop', exactRange, startEq, stopEq⟩ := wellFormed.chunkRange_exact profile below
  rw [exactRange] at range
  cases range
  have total : (built sha256 fileId version data chunkSize).totalSize.toNat = data.length :=
    measurable.toNat_totalSize
  have inside := start_lt_of_lt_ceilDiv wellFormed.size_pos
    (wellFormed.count ▸ UInt32.lt_iff_toNat_lt.mp below)
  rw [total] at stopEq inside
  have size : (built sha256 fileId version data chunkSize).chunkSize = chunkSize := rfl
  rw [size] at startEq stopEq inside
  rw [Nat.add_mul, Nat.one_mul] at stopEq
  rw [sliceList_of_le (by omega) (by omega)]
  apply congrArg Except.ok
  rw [piece, startEq, List.take_eq_take_iff, List.length_drop]
  omega

/-- Accepted chunks of a built manifest join to the file when the digest is injective. -/
theorem flatMap_verified_eq (measurable : Measurable data chunkSize)
    (injective : ∀ {xs ys : List UInt8}, sha256 xs = sha256 ys → xs = ys)
    {chunks : UInt32 → List UInt8}
    (verified : ∀ i < (built sha256 fileId version data chunkSize).chunkCount,
      (built sha256 fileId version data chunkSize).verifyChunk sha256 i (chunks i) =
        .ok (.ok ())) :
    (List.range (built sha256 fileId version data chunkSize).chunkCount.toNat).flatMap
      (fun i => chunks (UInt32.ofNat i)) = data := by
  have count : (built sha256 fileId version data chunkSize).chunkCount.toNat =
      ceilDiv data.length chunkSize.toNat := measurable.toNat_chunkCount
  have pieces : ∀ i ∈ List.range (ceilDiv data.length chunkSize.toNat),
      chunks (UInt32.ofNat i) = piece data chunkSize.toNat i := by
    intro i mem
    have inside := List.mem_range.mp mem
    have index : (UInt32.ofNat i).toNat = i :=
      UInt32.toNat_ofNat_of_lt (Nat.lt_trans inside measurable.few)
    have below : UInt32.ofNat i < (built sha256 fileId version data chunkSize).chunkCount := by
      apply UInt32.lt_iff_toNat_lt.mpr
      rw [index, count]
      exact inside
    have hashed := (verifyChunk_built_iff measurable below).mp (verified _ below)
    rw [index] at hashed
    exact injective (hexEncode_injective hashed)
  rw [count, List.flatMap_congr pieces]
  exact flatMap_all_pieces data measurable.size_pos

end Verify

/-- The chunks of every manifest that `build` returns partition the file with exactly computed
ranges, pass verification, and under an injective digest are determined by it, so that accepted
chunks join to the file. `build` does return: always in a release build, and in a debug build unless
the sum of size and chunk size is exactly `2 ^ 64`. -/
theorem build_chunks_reassemble (sha256 : List UInt8 → List UInt8) (fileId version : String)
    (data : List UInt8) (chunkSize : UInt64) (positive : 1 ≤ chunkSize.toNat)
    (fits : data.length + chunkSize.toNat - 1 < 2 ^ 64)
    (few : ceilDiv data.length chunkSize.toNat < 2 ^ 32) :
    (∀ profile, profile = .release ∨ data.length + chunkSize.toNat ≠ 2 ^ 64 →
      ∃ manifest, build profile sha256 fileId version data chunkSize = .ok (.ok manifest)) ∧
    ∀ profile manifest,
      build profile sha256 fileId version data chunkSize = .ok (.ok manifest) →
      manifest.totalSize.toNat = data.length ∧
      (∃ bound, ∀ anyProfile, manifest.Partitions anyProfile bound) ∧
      (∀ i < manifest.chunkCount, ∀ anyProfile start stop,
        manifest.chunkRange anyProfile i = .ok (start, stop) →
        ∃ chunk, sliceList data start.toNat stop.toNat = .ok chunk ∧
          manifest.verifyChunk sha256 i chunk = .ok (.ok ())) ∧
      ((∀ xs ys, sha256 xs = sha256 ys → xs = ys) →
        ∀ chunks : UInt32 → List UInt8,
          (∀ i < manifest.chunkCount,
            manifest.verifyChunk sha256 i (chunks i) = .ok (.ok ())) →
          (List.range manifest.chunkCount.toNat).flatMap (fun i => chunks (UInt32.ofNat i)) =
            data) := by
  have measurable : Measurable data chunkSize := ⟨positive, fits, few⟩
  constructor
  · intro profile allowed
    refine ⟨built sha256 fileId version data chunkSize, build_eq_built measurable ?_⟩
    rcases allowed with release | notBoundary
    · exact .inr release
    · exact .inl (by omega)
  · intro profile manifest returned
    obtain ⟨_, rfl⟩ := (build_eq_ok_iff measurable).mp returned
    refine ⟨measurable.toNat_totalSize, ?_, ?_, ?_⟩
    · exact ⟨_, fun anyProfile =>
        (wellFormed_built sha256 fileId version measurable).partitions anyProfile⟩
    · intro i below anyProfile start stop range
      exact ⟨_, sliceList_range_eq_piece measurable below range,
        (verifyChunk_built_iff measurable below).mpr rfl⟩
    · intro injective chunks verified
      exact flatMap_verified_eq measurable (injective _ _) verified

/-! ### A file of three bytes in chunks of two -/

/-- SHA-256 on the pieces of the sample file, in chunks of two bytes and of one, and on the pieces that
short reads cut from it. -/
def sampleTable : List (List UInt8 × List UInt8) :=
  [([1, 2], digestOfNat 0xa12871fee210fb8619291eaea194581cbd2531e4b23759d225f6806923f63222),
   ([3], digestOfNat 0x084fed08b978af4d7d196a7446a86b58009e636b611db16211b65a9aadff29c5),
   ([1], digestOfNat 0x4bf5122f344554c53bde2ebb8cd2b7e3d1600ad631c385a5d7cce23c7785459a),
   ([2, 3], digestOfNat 0xee9040f65c341855e070ff438eb0ea9d5b831b2a2c270fb7ef592d750408e3b3),
   ([2], digestOfNat 0xdbc1b4c900ffe48d575b5da5c638040125f65db0fe3e24494b76ea986457d986)]

/-- A digest that is SHA-256 on every byte string of the samples. -/
def sampleDigest : List UInt8 → List UInt8 := tabulatedDigest sampleTable

theorem sampleDigest_injective (xs ys : List UInt8) (same : sampleDigest xs = sampleDigest ys) :
    xs = ys := by
  refine tabulatedDigest_injective ?_ ?_ same
  · simp [sampleTable]
  · decide

/-- The sample file meets the bounds, and its accepted chunks join to it. -/
theorem build_chunks_reassemble_sample :
    ∃ manifest, build .debug sampleDigest "m" "1" [1, 2, 3] 2 = .ok (.ok manifest) ∧
      manifest.totalSize.toNat = 3 ∧
      ∀ chunks : UInt32 → List UInt8,
        (∀ i < manifest.chunkCount,
          manifest.verifyChunk sampleDigest i (chunks i) = .ok (.ok ())) →
        (List.range manifest.chunkCount.toNat).flatMap (fun i => chunks (UInt32.ofNat i)) =
          [1, 2, 3] := by
  obtain ⟨returns, holds⟩ := build_chunks_reassemble sampleDigest "m" "1" [1, 2, 3] 2
    (by decide) (by decide) (by decide)
  obtain ⟨manifest, built⟩ := returns .debug (.inr (by decide))
  obtain ⟨total, _, _, reassemble⟩ := holds .debug manifest built
  exact ⟨manifest, built, total, reassemble sampleDigest_injective⟩

end Manifest

/-- The manifest of the sample file. -/
def sampleManifest : Manifest := Manifest.built Manifest.sampleDigest "m" "1" [1, 2, 3] 2

theorem sampleManifest_wellFormed : sampleManifest.WellFormed :=
  Manifest.wellFormed_built Manifest.sampleDigest "m" "1" ⟨by decide, by decide, by decide⟩

end ModelDistribution
