/-
Module: ModelDistribution.Proofs.BitmapWire
Layer: Proofs
Purpose: A bitmap on the wire. The bytes of `as_bytes` carry every live bit in its place, and what
  `from_bytes` makes of them answers like the bitmap that was sent, also after both are marked
  further. Padding bits stay in the storage of the decoded bitmap but are never looked at.
Imports: ModelDistribution.Proofs.BitmapSequence
Trusted boundary: none
Main exports: ChunkBitmap.wireBit, ChunkBitmap.Agree, ChunkBitmap.agree_of_has,
  ChunkBitmap.markAll_agrees, ChunkBitmap.has_fromBytes, ChunkBitmap.isComplete_fromBytes_iff,
  ChunkBitmap.wire_round_trip
-/
import ModelDistribution.Proofs.BitmapSequence

namespace ModelDistribution

open Foundation

namespace ChunkBitmap

/-- Chunk `i` on the wire is bit `7 - i mod 8` of byte `i / 8`. -/
def wireBit (bytes : List UInt8) (i : Nat) : Bool :=
  (bytes.getD (i / 8) 0).toNat.testBit (7 - i % 8)

theorem bit_fromSlice (bytes : List UInt8) (i : Nat) :
    (BitBuffer.fromSlice bytes).bit i = wireBit bytes i := by
  have inByte : i % 8 < 8 := Nat.mod_lt _ (by decide)
  simp [BitBuffer.bit, BitBuffer.fromSlice, wireBit, msb0, BitVec.getMsbD, inByte, BitVec.getLsbD]

/-- The lookups of a decoded bitmap are the leading bits of its bytes. -/
theorem has_fromBytes {bytes : List UInt8} {n : UInt32} (enough : n.toNat ≤ 8 * bytes.length)
    (i : UInt32) :
    (fromBytes bytes n).has i = .ok (decide (i < n) && wireBit bytes i.toNat) := by
  rw [(full_fromBytes_iff.mpr enough).has_eq, ← bit_fromSlice]
  rfl

/-- Bytes that are too short have no bit there, so looking behind them never finds a chunk. -/
theorem has_fromBytes_iff {bytes : List UInt8} {n i : UInt32} :
    (fromBytes bytes n).has i = .ok true ↔ i < n ∧ wireBit bytes i.toNat = true := by
  by_cases below : i < n
  · by_cases inside : i.toNat < 8 * bytes.length
    · have live : i.toNat < (fromBytes bytes n).bits.len :=
        Nat.lt_min.mpr ⟨inside, UInt32.lt_iff_toNat_lt.mp below⟩
      rw [has_of_lt_len live, ← bit_fromSlice]
      simp [below, fromBytes]
    · have short : (fromBytes bytes n).bits.len ≤ i.toNat :=
        Nat.le_trans (Nat.min_le_left _ _) (Nat.not_lt.mp inside)
      have noByte : bytes.length ≤ i.toNat / 8 := by omega
      rw [has_of_len_le short below]
      simp [wireBit, noByte]
  · rw [has_of_ge (UInt32.not_lt.mp below)]
    simp [below]

/-- Bytes of any length are complete exactly when they carry every one of the first `n` bits. -/
theorem isComplete_fromBytes_iff {bytes : List UInt8} {n : UInt32} :
    (fromBytes bytes n).isComplete = true ↔ ∀ i < n, wireBit bytes i.toNat = true := by
  rw [isComplete_iff]
  constructor
  · intro all i below
    exact (has_fromBytes_iff.mp (all i below)).2
  · intro all i below
    exact has_fromBytes_iff.mpr ⟨below, all i below⟩

/-- The two bitmaps answer alike: `BitVec` equality compares the live bits, and no answer looks at
anything else. -/
structure Agree (a b : ChunkBitmap) : Prop where
  live : a.bits.toList = b.bits.toList
  has : ∀ i, a.has i = b.has i
  completedCount : a.completedCount = b.completedCount
  isComplete : a.isComplete = b.isComplete
  missing : a.missing = b.missing

section Agreement

variable {a b : ChunkBitmap} (fullA : a.Full) (fullB : b.Full)
  (sameCount : a.chunkCount = b.chunkCount) (same : ∀ i, a.has i = b.has i)
include fullA fullB sameCount same

/-- Full bitmaps with the same lookups agree in everything else. -/
theorem agree_of_has : Agree a b where
  live := by
    have sameLen : a.bits.len = b.bits.len := by rw [fullA, fullB, sameCount]
    unfold BitBuffer.toList
    rw [sameLen]
    refine List.map_congr_left fun k inside => ?_
    rw [fullB] at inside
    have roundTrip := toNat_of_mem_range inside
    have below : UInt32.ofNat k < b.chunkCount := by
      rw [UInt32.lt_iff_toNat_lt, roundTrip]
      exact List.mem_range.mp inside
    have looked := same (UInt32.ofNat k)
    rw [fullA.has_eq, fullB.has_eq, sameCount, roundTrip] at looked
    simpa [below] using looked
  has := same
  completedCount := by
    apply UInt32.toNat_inj.mp
    simp only [completedCount_eq_filter fullA, completedCount_eq_filter fullB, sameCount, same]
  isComplete := by
    apply Bool.eq_iff_iff.mpr
    simp only [isComplete_iff, sameCount, same]
  missing := by
    simp only [missing_eq_filter fullA, missing_eq_filter fullB, sameCount, same]

/-- Agreement survives common marks, and the answers on the way are the same. -/
theorem markAll_agrees (calls : List UInt32) :
    ∃ answers a' b', a.markAll calls = .ok (answers, a') ∧ b.markAll calls = .ok (answers, b') ∧
      Agree a' b' := by
  induction calls generalizing a b with
  | nil => exact ⟨[], a, b, rfl, rfl, agree_of_has fullA fullB sameCount same⟩
  | cons index rest ih =>
      obtain ⟨freshA, a₁, marksA, raisedA, freshIffA⟩ := markComplete_raises fullA index
      obtain ⟨freshB, b₁, marksB, raisedB, freshIffB⟩ := markComplete_raises fullB index
      have sameFresh : freshA = freshB := by
        rw [Bool.eq_iff_iff, freshIffA, freshIffB, sameCount, same]
      have sameCount₁ : a₁.chunkCount = b₁.chunkCount := by
        rw [raisedA.chunkCount, raisedB.chunkCount, sameCount]
      have same₁ : ∀ i, a₁.has i = b₁.has i := by
        intro i
        rw [raisedA.has_eq fullA, raisedB.has_eq fullB, sameCount, same]
      obtain ⟨answers, a', b', loopedA, loopedB, agree⟩ :=
        ih (raisedA.full fullA) (raisedB.full fullB) sameCount₁ same₁
      refine ⟨freshA :: answers, a', b', ?_, ?_, agree⟩
      · simp [markAll, marksA, loopedA, bind, Except.bind, pure, Except.pure]
      · simp [markAll, marksB, loopedB, sameFresh, bind, Except.bind, pure, Except.pure]

end Agreement

/-- The bytes of a full bitmap carry its live bits in place. -/
theorem has_eq_wireBit {bitmap : ChunkBitmap} (full : bitmap.Full) {i : UInt32}
    (below : i < bitmap.chunkCount) : bitmap.has i = .ok (wireBit bitmap.asBytes i.toNat) := by
  have inside : i.toNat < bitmap.bits.len := full ▸ UInt32.lt_iff_toNat_lt.mp below
  rw [has_of_lt_len inside, ← bit_fromSlice, asBytes, BitBuffer.fromSlice_asRawSlice_bit _ inside]

/-- Whatever marks led to a bitmap of `n` chunks, decoding its bytes gives a bitmap that agrees with
it now and after any further common marks. The bytes are as many as the chunks need, chunk `i` is bit
`7 - i mod 8` of byte `i / 8`, and other bytes that carry the same first `n` bits, whatever they have
behind them, decode to the same. -/
theorem wire_round_trip {n : UInt32} {source : ChunkBitmap} (origin : Origin n source)
    (calls : List UInt32) :
    ∃ answers bitmap, source.markAll calls = .ok (answers, bitmap) ∧
      Agree (.fromBytes bitmap.asBytes n) bitmap ∧
      (∀ further, ∃ later decoded' bitmap',
        (fromBytes bitmap.asBytes n).markAll further = .ok (later, decoded') ∧
        bitmap.markAll further = .ok (later, bitmap') ∧ Agree decoded' bitmap') ∧
      bitmap.asBytes.length = (n.toNat + 7) / 8 ∧
      (∀ i < n, bitmap.has i = .ok (wireBit bitmap.asBytes i.toNat)) ∧
      ∀ bytes : List UInt8, n.toNat ≤ 8 * bytes.length →
        (∀ i < n.toNat, wireBit bytes i = wireBit bitmap.asBytes i) →
          Agree (.fromBytes bytes n) (.fromBytes bitmap.asBytes n) := by
  obtain ⟨answers, bitmap, returned, _, raised⟩ := markAll_raises origin.full calls
  have full := raised.full origin.full
  have count : bitmap.chunkCount = n := raised.chunkCount.trans origin.chunkCount
  subst count
  have length : bitmap.asBytes.length = (bitmap.chunkCount.toNat + 7) / 8 := by
    rw [asBytes, BitBuffer.length_asRawSlice, full]
  have decodedFull := full_fromBytes_asBytes full
  have same := has_fromBytes_asBytes full
  refine ⟨answers, bitmap, returned, agree_of_has decodedFull full rfl same,
    markAll_agrees decodedFull full rfl same, length, fun i => has_eq_wireBit full, ?_⟩
  intro bytes enough leading
  apply agree_of_has (full_fromBytes_iff.mpr enough) decodedFull rfl
  intro i
  rw [has_fromBytes enough, has_fromBytes (by omega)]
  by_cases below : i < bitmap.chunkCount
  · rw [leading _ (UInt32.lt_iff_toNat_lt.mp below)]
  · simp [below]

/-- Eleven chunks, the last byte only partly used and its padding raised from the start. -/
theorem wire_round_trip_eleven :
    Origin 11 (.fromBytes [0xA0, 0xFF] 11) ∧
      ∃ answers bitmap, (fromBytes [0xA0, 0xFF] 11).markAll [3, 12] = .ok (answers, bitmap) ∧
        Agree (.fromBytes bitmap.asBytes 11) bitmap := by
  have origin : Origin 11 (.fromBytes [0xA0, 0xFF] 11) := .fromBytes _ (by decide)
  obtain ⟨answers, bitmap, returned, agree, _⟩ := wire_round_trip origin [3, 12]
  exact ⟨origin, answers, bitmap, returned, agree⟩

end ChunkBitmap

end ModelDistribution
