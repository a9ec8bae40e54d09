/-
Module: ModelDistribution.Proofs.StreamedManifest
Layer: Proofs
Purpose: When the streaming `Manifest::build_from_file` agrees with the in-memory `Manifest::build`.
  The loop takes one `read` for each chunk, so the two agree exactly on readers that always fill the
  buffer up to the end of the file.
Imports: ModelDistribution.Proofs.Reassembly
Trusted boundary: none
Main exports: LegalReader, FullRead, readChunks_eq_iff, buildFromFile_eq_build_iff
-/
import ModelDistribution.Proofs.Reassembly

namespace ModelDistribution

open Foundation

namespace Manifest

/-- A reader delivers at least one byte before the end of the file, and never more than the buffer
or the rest of the file holds. -/
structure LegalReader (reader : Nat → Nat → Nat → Except IoError Nat) : Prop where
  answers : ∀ call bufferLen remaining, 0 < bufferLen →
    ∃ n, reader call bufferLen remaining = .ok n ∧ n ≤ min bufferLen remaining ∧
      (0 < remaining → 1 ≤ n)

/-- Call `i`, made at the start of chunk `i`, delivers the whole chunk. -/
def FullRead (reader : Nat → Nat → Nat → Except IoError Nat) (total size i : Nat) : Prop :=
  reader i size (total - i * size) = .ok (min size (total - i * size))

section Loop

variable {sha256 : List UInt8 → List UInt8} {reader : Nat → Nat → Nat → Except IoError Nat}
  {size : Nat}

/-- The hash of what one call delivered is the hash of the piece exactly for a full read. -/
theorem hash_delivered_iff (contents : List UInt8)
    (injective : ∀ xs ys, sha256 xs = sha256 ys → xs = ys) {n i : Nat}
    (bounded : n ≤ min size (contents.length - i * size)) :
    hashBytes sha256 ((contents.drop (i * size)).take n) =
        hashBytes sha256 (piece contents size i) ↔
      n = min size (contents.length - i * size) := by
  constructor
  · intro hashed
    have sameBytes := injective _ _ (hexEncode_injective hashed)
    have sameLength := congrArg List.length sameBytes
    rw [length_piece, List.length_take, List.length_drop] at sameLength
    omega
  · intro full
    apply congrArg (hashBytes sha256)
    rw [piece, full, List.take_eq_take_iff, List.length_drop]
    omega

/-- A legal reader never makes the loop fail. -/
theorem readChunks_returns (sha256 : List UInt8 → List UInt8) (contents : List UInt8)
    (legal : LegalReader reader) (positive : 0 < size) (rounds : Nat) :
    ∀ call position, ∃ hashes,
      readChunks sha256 reader contents size rounds call position = .ok hashes := by
  induction rounds with
  | zero =>
      intro call position
      exact ⟨[], rfl⟩
  | succ rounds ih =>
      intro call position
      obtain ⟨n, answered, _, _⟩ := legal.answers call size (contents.length - position) positive
      obtain ⟨rest, returned⟩ := ih (call + 1) (position + n)
      refine ⟨hashBytes sha256 ((contents.drop position).take n) :: rest, ?_⟩
      simp only [readChunks, answered, returned, bind, Except.bind, pure, Except.pure]

/-- After a full read of a chunk the file is at the next chunk, if there is one. -/
theorem aligned_of_full {length call rounds n : Nat} (positive : 0 < size)
    (bounded : call + (rounds + 1) ≤ ceilDiv length size)
    (full : n = min size (length - call * size)) :
    rounds = 0 ∨ call * size + n = (call + 1) * size := by
  rcases Nat.eq_zero_or_pos rounds with last | more
  · exact .inl last
  · -- A next chunk exists, so this one is not clipped.
    have next : (call + 1) * size < length := start_lt_of_lt_ceilDiv positive (by omega)
    rw [Nat.add_mul] at next
    rw [Nat.add_mul]
    exact .inr (by omega)

/-- The loop, entered at the start of a chunk, collects the hashes of the next pieces exactly when
every one of its reads is full. After a full read that is not the last one the file position is at
the next chunk again; that is the invariant of the loop. -/
theorem readChunks_eq_iff (contents : List UInt8)
    (injective : ∀ xs ys, sha256 xs = sha256 ys → xs = ys) (legal : LegalReader reader)
    (positive : 0 < size) (rounds : Nat) :
    ∀ call position, call + rounds ≤ ceilDiv contents.length size →
      (rounds = 0 ∨ position = call * size) →
      (readChunks sha256 reader contents size rounds call position =
          .ok ((List.range' call rounds).map fun i => hashBytes sha256 (piece contents size i)) ↔
        ∀ i, call ≤ i → i < call + rounds → FullRead reader contents.length size i) := by
  induction rounds with
  | zero =>
      intro call position _ _
      simp only [readChunks, List.range'_zero, List.map_nil, true_iff]
      intro i above below
      omega
  | succ rounds ih =>
      intro call position bounded aligned
      have atChunk : position = call * size := by
        rcases aligned with none | aligned
        · exact absurd none (Nat.succ_ne_zero rounds)
        · exact aligned
      subst atChunk
      obtain ⟨n, answered, within, _⟩ :=
        legal.answers call size (contents.length - call * size) positive
      obtain ⟨rest, returned⟩ := readChunks_returns sha256 contents legal positive rounds (call + 1)
        (call * size + n)
      have unfolded : readChunks sha256 reader contents size (rounds + 1) call (call * size) =
          .ok (hashBytes sha256 ((contents.drop (call * size)).take n) :: rest) := by
        simp only [readChunks, answered, returned, bind, Except.bind, pure, Except.pure]
      have firstFull : FullRead reader contents.length size call ↔
          n = min size (contents.length - call * size) := by
        rw [FullRead, answered]
        simp
      rw [unfolded, List.range'_succ, List.map_cons, Except.ok.injEq, List.cons.injEq,
        hash_delivered_iff contents injective within]
      constructor
      · rintro ⟨full, restHashes⟩ i above below
        rcases Nat.eq_or_lt_of_le above with rfl | later
        · exact firstFull.mpr full
        · have following := ih (call + 1) (call * size + n) (by omega)
            (aligned_of_full positive bounded full)
          rw [returned, restHashes] at following
          exact following.mp rfl i later (by omega)
      · intro all
        have full := firstFull.mp (all call (Nat.le_refl _) (by omega))
        refine ⟨full, ?_⟩
        have following := (ih (call + 1) (call * size + n) (by omega)
          (aligned_of_full positive bounded full)).mpr fun i above below =>
            all i (by omega) (by omega)
        rw [returned] at following
        exact Except.ok.inj following

end Loop

/-- With a sum that does not panic and a buffer that can be allocated, streaming gives the in-memory
manifest exactly when every read fills the buffer up to the end of the file. -/
theorem buildFromFile_eq_built_iff {profile : Profile} {sha256 : List UInt8 → List UInt8}
    (injective : ∀ xs ys, sha256 xs = sha256 ys → xs = ys) (fileId version : String)
    {contents : List UInt8} {reader : Nat → Nat → Nat → Except IoError Nat}
    (legal : LegalReader reader) {chunkSize : UInt64} (measurable : Measurable contents chunkSize)
    (delivered : SumDelivered profile contents chunkSize) (room : chunkSize.toNat < 2 ^ 63) :
    buildFromFile profile sha256 fileId version (.ok contents) reader chunkSize =
        .ok (.ok (built sha256 fileId version contents chunkSize)) ↔
      ∀ i < ceilDiv contents.length chunkSize.toNat,
        FullRead reader contents.length chunkSize.toNat i := by
  obtain ⟨hashes, read⟩ := readChunks_returns sha256 contents legal measurable.size_pos
    (ceilDiv contents.length chunkSize.toNat) 0 0
  have collected := readChunks_eq_iff contents injective legal measurable.size_pos
    (ceilDiv contents.length chunkSize.toNat) 0 0 (by omega) (.inr (by omega))
  rw [read, Except.ok.injEq] at collected
  have streamed : buildFromFile profile sha256 fileId version (.ok contents) reader chunkSize =
      .ok (.ok { built sha256 fileId version contents chunkSize with
        chunkHashes := hashes }) := by
    simp only [buildFromFile, chunksNeeded_of_delivered measurable delivered, bind, Except.bind,
      checkCapacity_of_lt room, measurable.toNat_chunkCount, read, pure, Except.pure]
    rfl
  have sameHashes : ({ built sha256 fileId version contents chunkSize with
        chunkHashes := hashes } : Manifest) = built sha256 fileId version contents chunkSize ↔
      hashes = (built sha256 fileId version contents chunkSize).chunkHashes := by
    constructor
    · intro same
      exact congrArg Manifest.chunkHashes same
    · rintro rfl
      rfl
  rw [streamed, Except.ok.injEq, Except.ok.injEq, sameHashes, built, List.range_eq_range', collected]
  constructor
  · intro all i below
    exact all i (Nat.zero_le i) (by omega)
  · intro all i _ below
    exact all i (by omega)

/-- Streaming and in-memory building agree exactly when the buffer can be allocated and every read
fills it up to the end of the file, or when the size sum panics in both. -/
theorem buildFromFile_eq_build_iff (profile : Profile) (sha256 : List UInt8 → List UInt8)
    (injective : ∀ xs ys, sha256 xs = sha256 ys → xs = ys) (fileId version : String)
    (contents : List UInt8) (reader : Nat → Nat → Nat → Except IoError Nat)
    (legal : LegalReader reader) (chunkSize : UInt64) (positive : 1 ≤ chunkSize.toNat)
    (fits : contents.length + chunkSize.toNat - 1 < 2 ^ 64)
    (few : ceilDiv contents.length chunkSize.toNat < 2 ^ 32) :
    buildFromFile profile sha256 fileId version (.ok contents) reader chunkSize =
        build profile sha256 fileId version contents chunkSize ↔
      (profile = .debug ∧ contents.length + chunkSize.toNat = 2 ^ 64) ∨
        (chunkSize.toNat < 2 ^ 63 ∧ ∀ i < ceilDiv contents.length chunkSize.toNat,
          FullRead reader contents.length chunkSize.toNat i) := by
  have measurable : Measurable contents chunkSize := ⟨positive, fits, few⟩
  by_cases delivered : SumDelivered profile contents chunkSize
  · have notBoundary : ¬ (profile = .debug ∧ contents.length + chunkSize.toNat = 2 ^ 64) := by
      rintro ⟨rfl, boundary⟩
      rcases delivered with small | release
      · omega
      · cases release
    rw [build_eq_built measurable delivered]
    by_cases room : chunkSize.toNat < 2 ^ 63
    · rw [buildFromFile_eq_built_iff injective fileId version legal measurable delivered room]
      simp only [notBoundary, false_or, room, true_and]
    · have panics : buildFromFile profile sha256 fileId version (.ok contents) reader chunkSize =
          .error .capacityOverflow := by
        simp only [buildFromFile, chunksNeeded_of_delivered measurable delivered, bind, Except.bind,
          checkCapacity, if_neg room]
      rw [panics]
      constructor
      · intro same
        cases same
      · rintro (boundary | ⟨fills, _⟩)
        · exact absurd boundary notBoundary
        · exact absurd fills room
  · have boundary : profile = .debug ∧ contents.length + chunkSize.toNat = 2 ^ 64 := by
      unfold SumDelivered at delivered
      push Not at delivered
      refine ⟨?_, by omega⟩
      cases profile with
      | debug => rfl
      | release => exact absurd rfl delivered.2
    have panics : buildFromFile profile sha256 fileId version (.ok contents) reader chunkSize =
        .error .arithmeticOverflow := by
      simp only [buildFromFile, chunksNeeded_overflow measurable delivered, bind, Except.bind]
    rw [panics, build_overflow measurable delivered]
    simp [boundary]

/-! ### A reader that answers the first call with one byte -/

/-- Delivers one byte on the first call and as much as fits afterwards. -/
def shortFirstReader (call bufferLen remaining : Nat) : Except IoError Nat :=
  .ok (if call = 0 then min 1 (min bufferLen remaining) else min bufferLen remaining)

/-- Delivers as much as fits. -/
def fullReader (_call bufferLen remaining : Nat) : Except IoError Nat :=
  .ok (min bufferLen remaining)

theorem legal_shortFirstReader : LegalReader shortFirstReader where
  answers := by
    intro call bufferLen remaining positive
    by_cases first : call = 0
    · exact ⟨min 1 (min bufferLen remaining), by simp [shortFirstReader, first], by omega, by omega⟩
    · exact ⟨min bufferLen remaining, by simp [shortFirstReader, first], by omega, by omega⟩

theorem legal_fullReader : LegalReader fullReader where
  answers := by
    intro call bufferLen remaining positive
    exact ⟨min bufferLen remaining, rfl, Nat.le_refl _, by omega⟩

/-- The sample file read in full gives the in-memory manifest. -/
theorem buildFromFile_eq_build_sample :
    buildFromFile .debug sampleDigest "m" "1" (.ok [1, 2, 3]) fullReader 2 =
      build .debug sampleDigest "m" "1" [1, 2, 3] 2 :=
  (buildFromFile_eq_build_iff .debug sampleDigest sampleDigest_injective "m" "1" [1, 2, 3]
    fullReader legal_fullReader 2 (by decide) (by decide) (by decide)).mpr
    (.inr ⟨by decide, fun _ _ => rfl⟩)

/-- A buffer of 8192 bytes in front of a file of `total` bytes, read in smaller pieces: a read delivers
what the buffer still holds. -/
def bufferedReader (total : Nat) (_call bufferLen remaining : Nat) : Except IoError Nat :=
  .ok (min bufferLen (min remaining (8192 - (total - remaining) % 8192)))

theorem legal_bufferedReader (total : Nat) : LegalReader (bufferedReader total) where
  answers := by
    intro call bufferLen remaining positive
    refine ⟨_, rfl, by omega, ?_⟩
    intro more
    have left : (total - remaining) % 8192 < 8192 := Nat.mod_lt _ (by decide)
    omega

/-- The second of two chunks of 5000 bytes lies over the end of the first buffer. -/
theorem bufferedReader_short : ¬ FullRead (bufferedReader 10000) 10000 5000 1 := by
  unfold FullRead
  decide

/-- One short read gives the sample file another manifest, with the hashes of `[1]` and `[2, 3]`. A
buffered reader does so to every file of 10000 bytes in chunks of 5000: its second read delivers the
3192 bytes that the buffer still holds. -/
theorem buildFromFile_short_read :
    (LegalReader shortFirstReader ∧
      buildFromFile .debug sampleDigest "m" "1" (.ok [1, 2, 3]) shortFirstReader 2 ≠
        build .debug sampleDigest "m" "1" [1, 2, 3] 2) ∧
    LegalReader (bufferedReader 10000) ∧
      ∀ sha256 : List UInt8 → List UInt8, (∀ xs ys, sha256 xs = sha256 ys → xs = ys) →
        ∀ contents : List UInt8, contents.length = 10000 →
          buildFromFile .release sha256 "m" "1" (.ok contents) (bufferedReader 10000) 5000 ≠
            build .release sha256 "m" "1" contents 5000 := by
  refine ⟨⟨legal_shortFirstReader, by decide +kernel⟩, legal_bufferedReader 10000, ?_⟩
  intro sha256 injective contents length same
  have size : (5000 : UInt64).toNat = 5000 := rfl
  have count : ceilDiv 10000 5000 = 2 := by decide
  have measurable : Measurable contents 5000 := by
    refine ⟨by decide, ?_, ?_⟩
    · rw [length, size]
      omega
    · rw [length, size, count]
      omega
  have delivered : SumDelivered .release contents 5000 := .inr rfl
  rw [build_eq_built measurable delivered] at same
  have full := (buildFromFile_eq_built_iff injective "m" "1" (legal_bufferedReader 10000) measurable
    delivered (by decide)).mp same
  rw [length, size, count] at full
  exact bufferedReader_short (full 1 (by omega))

end Manifest

end ModelDistribution
