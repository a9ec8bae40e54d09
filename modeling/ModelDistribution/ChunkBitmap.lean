/-
Module: ModelDistribution.ChunkBitmap
Layer: Model
Purpose: The per-node chunk bitfield. A bitmap carries that its counter equals the number of raised
  bits and that it has at most one bit per chunk; `Full` bitmaps have exactly one, and only on those
  is `has` free of index panics.
Imports: ModelDistribution.Foundation.BitBuffer, ModelDistribution.Foundation.Binary32,
  Mathlib.Data.List.Nodup
Trusted boundary: human-reviewed spec
Main exports: ChunkBitmap, ChunkBitmap.new, ChunkBitmap.fromBytes, ChunkBitmap.markComplete,
  ChunkBitmap.has, ChunkBitmap.isComplete, ChunkBitmap.completionRatio, ChunkBitmap.missing,
  ChunkBitmap.asBytes, ChunkBitmap.Full, isComplete_iff, markComplete_spec, has_fromBytes_asBytes

[src/manifest.rs, second half]
-/
import ModelDistribution.Foundation.BitBuffer
import ModelDistribution.Foundation.Binary32
import Mathlib.Data.List.Nodup

namespace ModelDistribution

open Foundation

/-- `ChunkBitmap`: bit `i` set means chunk `i` is received and verified. -/
structure ChunkBitmap where
  bits : BitBuffer
  complete : UInt32
  chunkCount : UInt32
  /-- The cached counter is the number of raised bits. -/
  counted : complete.toNat = bits.countOnes
  /-- There is no bit behind the last chunk. -/
  within : bits.len ≤ chunkCount.toNat
deriving DecidableEq, Repr

namespace ChunkBitmap

/-- `ChunkBitmap::new`. -/
def new (chunkCount : UInt32) : ChunkBitmap where
  bits := .zeros chunkCount.toNat
  complete := 0
  chunkCount := chunkCount
  counted := by simp
  within := Nat.le_refl _

private theorem truncated_count_fits (bytes : List UInt8) (chunkCount : UInt32) :
    ((BitBuffer.fromSlice bytes).truncate chunkCount.toNat).countOnes < 2 ^ 32 :=
  calc ((BitBuffer.fromSlice bytes).truncate chunkCount.toNat).countOnes
      ≤ min (8 * bytes.length) chunkCount.toNat := BitBuffer.countOnes_le _
    _ ≤ chunkCount.toNat := Nat.min_le_right _ _
    _ < 2 ^ 32 := chunkCount.toNat_lt

/-- `ChunkBitmap::from_bytes`: the leading bits of the bytes of a heartbeat, however many. -/
def fromBytes (bytes : List UInt8) (chunkCount : UInt32) : ChunkBitmap where
  bits := (BitBuffer.fromSlice bytes).truncate chunkCount.toNat
  complete := UInt32.ofNat ((BitBuffer.fromSlice bytes).truncate chunkCount.toNat).countOnes
  chunkCount := chunkCount
  counted := UInt32.toNat_ofNat_of_lt (truncated_count_fits bytes chunkCount)
  within := Nat.min_le_right _ _

/-- Raising a cleared bit moves the counter along; the counter has room because the cleared bit is
not counted yet. -/
private theorem counted_set (bitmap : ChunkBitmap) {i : Nat} {raised : BitBuffer}
    (cleared : bitmap.bits.get i = .ok false) (h : bitmap.bits.set i = .ok raised) :
    (bitmap.complete + 1).toNat = raised.countOnes ∧ raised.len = bitmap.bits.len := by
  have inside : i < bitmap.bits.len := by
    by_contra outside
    rw [BitBuffer.get_of_ge (Nat.not_lt.mp outside)] at cleared
    cases cleared
  rw [BitBuffer.get_of_lt inside] at cleared
  have bitCleared : bitmap.bits.bit i = false := by injection cleared
  have raisedCount := BitBuffer.countOnes_set inside bitCleared h
  obtain ⟨raised', returned, sameLen, _⟩ := BitBuffer.set_of_lt inside
  rw [returned] at h
  cases h
  have bound := raised.countOnes_le
  have room := bitmap.chunkCount.toNat_lt
  have fits := bitmap.within
  refine ⟨?_, sameLen⟩
  rw [UInt32.toNat_add, UInt32.toNat_one, bitmap.counted, raisedCount]
  exact Nat.mod_eq_of_lt (by omega)

/-- `mark_complete`: whether the chunk was newly set, and the bitmap afterwards. -/
def markComplete (bitmap : ChunkBitmap) (index : UInt32) : Checked (Bool × ChunkBitmap) :=
  if bitmap.chunkCount ≤ index then .ok (false, bitmap)
  else
    match found : bitmap.bits.get index.toNat with
    | .error panic => .error panic
    | .ok true => .ok (false, bitmap)
    | .ok false =>
        match updated : bitmap.bits.set index.toNat with
        | .error panic => .error panic
        | .ok bits =>
            .ok (true,
              { bits
                complete := bitmap.complete + 1
                chunkCount := bitmap.chunkCount
                counted := (counted_set bitmap found updated).1
                within := (counted_set bitmap found updated).2 ▸ bitmap.within })

/-- `has`: an index below the chunk count is looked up, and so can panic. -/
def has (bitmap : ChunkBitmap) (index : UInt32) : Checked Bool :=
  if index < bitmap.chunkCount then bitmap.bits.get index.toNat else .ok false

/-- `is_complete`. -/
def isComplete (bitmap : ChunkBitmap) : Bool := bitmap.complete = bitmap.chunkCount

/-- `completion_ratio`, in single precision. -/
def completionRatio (bitmap : ChunkBitmap) : Float32 :=
  if bitmap.chunkCount = 0 then 1.0
  else bitmap.complete.toFloat32 / bitmap.chunkCount.toFloat32

/-- `completed_count`. -/
def completedCount (bitmap : ChunkBitmap) : UInt32 := bitmap.complete

/-- `missing`: the positions of the cleared bits in increasing order. -/
def missing (bitmap : ChunkBitmap) : List UInt32 :=
  (bitmap.bits.toList.zipIdx.filter fun entry => !entry.1).map fun entry => UInt32.ofNat entry.2

/-- `as_bytes`. -/
def asBytes (bitmap : ChunkBitmap) : List UInt8 := bitmap.bits.asRawSlice

/-- The bitmap has a bit for every chunk. -/
def Full (bitmap : ChunkBitmap) : Prop := bitmap.bits.len = bitmap.chunkCount.toNat

instance (bitmap : ChunkBitmap) : Decidable bitmap.Full :=
  inferInstanceAs (Decidable (bitmap.bits.len = bitmap.chunkCount.toNat))

/-! ### Reading the operations back -/

@[simp] theorem new_chunkCount (n : UInt32) : (new n).chunkCount = n := rfl

@[simp] theorem fromBytes_chunkCount (bytes : List UInt8) (n : UInt32) :
    (fromBytes bytes n).chunkCount = n := rfl

theorem full_new (n : UInt32) : (new n).Full := rfl

/-- Decoded bytes give a full bitmap exactly when there are enough bits. -/
theorem full_fromBytes_iff {bytes : List UInt8} {n : UInt32} :
    (fromBytes bytes n).Full ↔ n.toNat ≤ 8 * bytes.length := by
  simp only [Full, fromBytes, BitBuffer.truncate_len, BitBuffer.fromSlice_len]
  omega

theorem has_of_ge {bitmap : ChunkBitmap} {i : UInt32} (h : bitmap.chunkCount ≤ i) :
    bitmap.has i = .ok false :=
  if_neg (UInt32.not_lt.mpr h)

theorem has_of_lt_len {bitmap : ChunkBitmap} {i : UInt32} (h : i.toNat < bitmap.bits.len) :
    bitmap.has i = .ok (bitmap.bits.bit i.toNat) := by
  have below : i < bitmap.chunkCount :=
    UInt32.lt_iff_toNat_lt.mpr (Nat.lt_of_lt_of_le h bitmap.within)
  rw [has, if_pos below, BitBuffer.get_of_lt h]

/-- An index behind the bits but below the chunk count panics. -/
theorem has_of_len_le {bitmap : ChunkBitmap} {i : UInt32} (short : bitmap.bits.len ≤ i.toNat)
    (below : i < bitmap.chunkCount) : bitmap.has i = .error .indexOutOfBounds := by
  rw [has, if_pos below, BitBuffer.get_of_ge short]

/-- A full bitmap answers every index. -/
theorem Full.has_eq {bitmap : ChunkBitmap} (full : bitmap.Full) (i : UInt32) :
    bitmap.has i = .ok (decide (i < bitmap.chunkCount) && bitmap.bits.bit i.toNat) := by
  by_cases below : i < bitmap.chunkCount
  · rw [has_of_lt_len (full ▸ UInt32.lt_iff_toNat_lt.mp below)]
    simp [below]
  · rw [has_of_ge (UInt32.not_lt.mp below)]
    simp [below]

theorem has_lt {bitmap : ChunkBitmap} {i : UInt32} (h : bitmap.has i = .ok true) :
    i < bitmap.chunkCount := by
  by_contra outside
  rw [has_of_ge (UInt32.not_lt.mp outside)] at h
  cases h

@[simp] theorem has_new (n i : UInt32) : (new n).has i = .ok false := by
  rw [(full_new n).has_eq]
  simp [new]

/-- The counter reaches the chunk count exactly when every chunk is there. -/
theorem isComplete_iff {bitmap : ChunkBitmap} :
    bitmap.isComplete = true ↔ ∀ i < bitmap.chunkCount, bitmap.has i = .ok true := by
  have bound := bitmap.bits.countOnes_le
  have fits := bitmap.within
  have unfolded : bitmap.isComplete = true ↔ bitmap.bits.countOnes = bitmap.chunkCount.toNat := by
    rw [isComplete, decide_eq_true_iff, ← bitmap.counted, UInt32.toNat_inj]
  rw [unfolded]
  constructor
  · intro all i below
    have full : bitmap.bits.len = bitmap.chunkCount.toNat := by omega
    have inside : i.toNat < bitmap.bits.len := full ▸ UInt32.lt_iff_toNat_lt.mp below
    have raised := bitmap.bits.countOnes_eq_len_iff.mp (by omega) i.toNat inside
    rw [has_of_lt_len inside, raised]
  · intro all
    have allBits : ∀ i < bitmap.chunkCount.toNat,
        i < bitmap.bits.len ∧ bitmap.bits.bit i = true := by
      intro i below
      have small : i < 2 ^ 32 := Nat.lt_trans below bitmap.chunkCount.toNat_lt
      have roundTrip : (UInt32.ofNat i).toNat = i := UInt32.toNat_ofNat_of_lt small
      have below' : UInt32.ofNat i < bitmap.chunkCount :=
        UInt32.lt_iff_toNat_lt.mpr (roundTrip.symm ▸ below)
      have present := all _ below'
      by_cases inside : i < bitmap.bits.len
      · rw [has_of_lt_len (roundTrip.symm ▸ inside), roundTrip] at present
        exact ⟨inside, by injection present⟩
      · rw [has_of_len_le (roundTrip.symm ▸ Nat.not_lt.mp inside) below'] at present
        cases present
    have full : bitmap.bits.len = bitmap.chunkCount.toNat := by
      refine Nat.le_antisymm fits (Nat.le_of_not_lt fun short => ?_)
      exact Nat.lt_irrefl _ (allBits _ short).1
    rw [← full]
    exact bitmap.bits.countOnes_eq_len_iff.mpr fun i inside => (allBits i (full ▸ inside)).2

/-- The single-precision ratio of a complete bitmap reaches one, so a gate at one lets it pass. -/
theorem one_le_completionRatio {bitmap : ChunkBitmap} (h : bitmap.isComplete = true) :
    (1.0 : Float32) ≤ bitmap.completionRatio := by
  have all : bitmap.complete = bitmap.chunkCount := by simpa [isComplete] using h
  unfold completionRatio
  by_cases empty : bitmap.chunkCount = 0
  · rw [if_pos empty]
    decide
  · rw [if_neg empty, all]
    exact Binary32.one_le_toFloat32_div_self empty

/-! ### Marking -/

/-- A chunk that is there already, or behind the last one, is left alone. -/
theorem markComplete_of_held {bitmap : ChunkBitmap} {index : UInt32}
    (held : bitmap.chunkCount ≤ index ∨ bitmap.has index = .ok true) :
    bitmap.markComplete index = .ok (false, bitmap) := by
  unfold markComplete
  by_cases outside : bitmap.chunkCount ≤ index
  · rw [if_pos outside]
  · have present : bitmap.bits.get index.toNat = .ok true := by
      have looked := held.resolve_left outside
      rwa [has, if_pos (UInt32.not_le.mp outside)] at looked
    rw [if_neg outside]
    split <;> simp_all

/-- A missing chunk is raised and counted. -/
theorem markComplete_of_missing {bitmap : ChunkBitmap} {index : UInt32}
    (below : index < bitmap.chunkCount) (absent : bitmap.has index = .ok false) :
    ∃ marked, bitmap.markComplete index = .ok (true, marked) ∧
      bitmap.bits.set index.toNat = .ok marked.bits ∧ marked.complete = bitmap.complete + 1 ∧
      marked.chunkCount = bitmap.chunkCount := by
  have cleared : bitmap.bits.get index.toNat = .ok false := by
    rwa [has, if_pos below] at absent
  have inside : index.toNat < bitmap.bits.len := by
    by_contra outside
    rw [BitBuffer.get_of_ge (Nat.not_lt.mp outside)] at cleared
    cases cleared
  obtain ⟨bits, updated, _, _⟩ := BitBuffer.set_of_lt inside
  have invariant := counted_set bitmap cleared updated
  refine ⟨⟨bits, bitmap.complete + 1, bitmap.chunkCount, invariant.1,
    invariant.2 ▸ bitmap.within⟩, ?_, updated, rfl, rfl⟩
  unfold markComplete
  rw [if_neg (UInt32.not_le.mpr below)]
  split
  · simp_all
  · simp_all
  · split
    · simp_all
    · rename_i updated'
      rw [updated] at updated'
      cases updated'
      rfl

/-- Marking a chunk leaves the lookups of the others alone. -/
theorem has_markComplete_of_ne {bitmap marked : ChunkBitmap} {index j : UInt32} {fresh : Bool}
    (returned : bitmap.markComplete index = .ok (fresh, marked)) (other : j ≠ index) :
    marked.has j = bitmap.has j := by
  unfold markComplete at returned
  split at returned
  · cases returned
    rfl
  · split at returned
    · cases returned
    · cases returned
      rfl
    · split at returned
      · cases returned
      · rename_i below found bits updated
        cases returned
        have inside : index.toNat < bitmap.bits.len := by
          by_contra outside
          rw [BitBuffer.get_of_ge (Nat.not_lt.mp outside)] at found
          cases found
        obtain ⟨bits', updated', sameLen, changed⟩ := BitBuffer.set_of_lt inside
        rw [updated] at updated'
        cases updated'
        have otherBit : j.toNat ≠ index.toNat := fun same => other (UInt32.toNat_inj.mp same)
        rcases Nat.lt_or_ge j.toNat bitmap.bits.len with here | behind
        · simp [has, BitBuffer.get_of_lt here, BitBuffer.get_of_lt (sameLen ▸ here), changed,
            otherBit]
        · simp [has, BitBuffer.get_of_ge behind, BitBuffer.get_of_ge (sameLen ▸ behind)]

/-- Marking a chunk of a full bitmap returns, raises exactly that bit and reports whether it was
new. -/
theorem markComplete_spec {bitmap : ChunkBitmap} (full : bitmap.Full) (index : UInt32) :
    ∃ fresh marked, bitmap.markComplete index = .ok (fresh, marked) ∧ marked.Full ∧
      marked.chunkCount = bitmap.chunkCount ∧
      (fresh = true ↔ index < bitmap.chunkCount ∧ bitmap.has index = .ok false) ∧
      marked.complete.toNat = bitmap.complete.toNat + fresh.toNat ∧
      ∀ i, marked.has i = .ok true ↔
        bitmap.has i = .ok true ∨ (i = index ∧ index < bitmap.chunkCount) := by
  by_cases missing : index < bitmap.chunkCount ∧ bitmap.has index = .ok false
  · obtain ⟨below, absent⟩ := missing
    obtain ⟨marked, returned, updated, counts, sameCount⟩ := markComplete_of_missing below absent
    have inside : index.toNat < bitmap.bits.len := full ▸ UInt32.lt_iff_toNat_lt.mp below
    have cleared : bitmap.bits.bit index.toNat = false := by
      rw [has_of_lt_len inside] at absent
      injection absent
    obtain ⟨bits, updated', sameLen, changed⟩ := BitBuffer.set_of_lt inside
    rw [updated] at updated'
    cases updated'
    have fullMarked : marked.Full := by rw [Full, sameLen, sameCount, full]
    refine ⟨true, marked, returned, fullMarked, sameCount, by simp [below, absent], ?_, ?_⟩
    · rw [marked.counted, bitmap.counted, BitBuffer.countOnes_set inside cleared updated]
      rfl
    · intro i
      rw [fullMarked.has_eq, full.has_eq, sameCount]
      simp only [changed, Except.ok.injEq, Bool.and_eq_true, decide_eq_true_eq,
        Bool.or_eq_true, UInt32.toNat_inj]
      constructor
      · rintro ⟨inRange, before | same⟩
        · exact .inl ⟨inRange, before⟩
        · exact .inr ⟨same, below⟩
      · rintro (⟨inRange, before⟩ | ⟨rfl, inRange⟩)
        · exact ⟨inRange, .inl before⟩
        · exact ⟨inRange, .inr rfl⟩
  · have held : bitmap.chunkCount ≤ index ∨ bitmap.has index = .ok true := by
      by_cases below : index < bitmap.chunkCount
      · rw [full.has_eq] at missing ⊢
        simp_all
      · exact .inl (UInt32.not_lt.mp below)
    refine ⟨false, bitmap, markComplete_of_held held, full, rfl, by simp [missing], rfl, ?_⟩
    intro i
    constructor
    · exact Or.inl
    · rintro (already | ⟨rfl, below⟩)
      · exact already
      · exact held.resolve_left (UInt32.not_le.mpr below)

/-! ### The wire format -/

/-- A full bitmap survives the trip through its bytes. -/
theorem has_fromBytes_asBytes {bitmap : ChunkBitmap} (full : bitmap.Full) (i : UInt32) :
    (fromBytes bitmap.asBytes bitmap.chunkCount).has i = bitmap.has i := by
  have enough : (fromBytes bitmap.asBytes bitmap.chunkCount).Full := by
    rw [full_fromBytes_iff, asBytes, BitBuffer.length_asRawSlice]
    have := full
    unfold Full at this
    omega
  rw [enough.has_eq, full.has_eq]
  by_cases below : i < bitmap.chunkCount
  · have inside : i.toNat < bitmap.bits.len := full ▸ UInt32.lt_iff_toNat_lt.mp below
    have bit : (fromBytes bitmap.asBytes bitmap.chunkCount).bits.bit i.toNat =
        bitmap.bits.bit i.toNat := BitBuffer.fromSlice_asRawSlice_bit _ inside
    rw [bit]
    rfl
  · simp [below]

theorem full_fromBytes_asBytes {bitmap : ChunkBitmap} (full : bitmap.Full) :
    (fromBytes bitmap.asBytes bitmap.chunkCount).Full := by
  rw [full_fromBytes_iff, asBytes, BitBuffer.length_asRawSlice]
  unfold Full at full
  omega

/-! ### Missing chunks -/

/-- A position in front of a chunk count is a chunk index. -/
theorem toNat_of_mem_range {n : UInt32} {k : Nat} (h : k ∈ List.range n.toNat) :
    (UInt32.ofNat k).toNat = k :=
  UInt32.toNat_ofNat_of_lt (Nat.lt_trans (List.mem_range.mp h) n.toNat_lt)

theorem missing_eq (bitmap : ChunkBitmap) :
    bitmap.missing =
      ((List.range bitmap.bits.len).filter fun i => !bitmap.bits.bit i).map UInt32.ofNat := by
  have zipped : bitmap.bits.toList.zipIdx =
      (List.range bitmap.bits.len).map fun i => (bitmap.bits.bit i, i) := by
    refine List.ext_getElem (by simp [BitBuffer.toList]) fun i _ _ => ?_
    simp [BitBuffer.toList]
  rw [missing, zipped, List.filter_map, List.map_map]
  rfl

/-- The missing chunks are the chunks for which the lookup says no. -/
theorem mem_missing {bitmap : ChunkBitmap} {i : UInt32} :
    i ∈ bitmap.missing ↔ i < bitmap.chunkCount ∧ bitmap.has i = .ok false := by
  rw [missing_eq]
  simp only [List.mem_map, List.mem_filter, List.mem_range]
  constructor
  · rintro ⟨k, ⟨inside, cleared⟩, rfl⟩
    have small : k < 2 ^ 32 :=
      Nat.lt_trans (Nat.lt_of_lt_of_le inside bitmap.within) bitmap.chunkCount.toNat_lt
    have roundTrip : (UInt32.ofNat k).toNat = k := UInt32.toNat_ofNat_of_lt small
    have below : UInt32.ofNat k < bitmap.chunkCount := by
      rw [UInt32.lt_iff_toNat_lt, roundTrip]
      exact Nat.lt_of_lt_of_le inside bitmap.within
    refine ⟨below, ?_⟩
    rw [has_of_lt_len (roundTrip.symm ▸ inside), roundTrip]
    simpa using cleared
  · rintro ⟨below, absent⟩
    have inside : i.toNat < bitmap.bits.len := by
      by_contra outside
      rw [has_of_len_le (Nat.not_lt.mp outside) below] at absent
      cases absent
    rw [has_of_lt_len inside] at absent
    refine ⟨i.toNat, ⟨inside, ?_⟩, UInt32.ofNat_toNat⟩
    simpa using absent

theorem nodup_missing (bitmap : ChunkBitmap) : bitmap.missing.Nodup := by
  rw [missing_eq]
  refine List.Nodup.map_on ?_ (List.nodup_range.filter _)
  intro a ha b hb same
  have inside : ∀ k ∈ (List.range bitmap.bits.len).filter fun i => !bitmap.bits.bit i,
      k < 2 ^ 32 := by
    intro k hk
    have below := List.mem_range.mp (List.mem_of_mem_filter hk)
    exact Nat.lt_trans (Nat.lt_of_lt_of_le below bitmap.within) bitmap.chunkCount.toNat_lt
  have roundTripA : (UInt32.ofNat a).toNat = a := UInt32.toNat_ofNat_of_lt (inside a ha)
  have roundTripB : (UInt32.ofNat b).toNat = b := UInt32.toNat_ofNat_of_lt (inside b hb)
  rw [← roundTripA, ← roundTripB, same]

end ChunkBitmap

end ModelDistribution
