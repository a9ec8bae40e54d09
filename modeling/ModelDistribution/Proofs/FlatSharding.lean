/-
Module: ModelDistribution.Proofs.FlatSharding
Layer: Proofs
Purpose: Flat data as shards. Splitting pads the data with zeros to `k` shards of one size, whatever
  the length of the data, except that empty data has no shard size and panics. Over a maximum
  distance separable code the split data comes back from any `k` shards.
Imports: ModelDistribution.Proofs.StripeRecovery
Trusted boundary: none
Main exports: ErasureCoder.splitIntoShards_eq, ErasureCoder.mergeShards_split,
  ErasureCoder.flat_round_trip, ErasureCoder.split_total_iff
-/
import ModelDistribution.Proofs.StripeRecovery

namespace ModelDistribution

open Foundation

variable {Codec : Type} {library : ReedSolomon Codec}

namespace ErasureCoder

/-- The data in `k` pieces of one size, padded with zeros. -/
def paddedShards (k : Nat) (data : List UInt8) : List (List UInt8) :=
  (List.range k).map fun i =>
    (piece data (ceilDiv data.length k) i).takeD (ceilDiv data.length k) 0

theorem uniform_paddedShards (k : Nat) (data : List UInt8) :
    Uniform (paddedShards k data) k (ceilDiv data.length k) where
  count_eq := by simp [paddedShards]
  size_eq := by
    intro shard mem
    obtain ⟨i, _, rfl⟩ := List.mem_map.mp mem
    exact List.takeD_length _ _ _

/-- The joined shards are the data with zeros behind it. -/
theorem flatten_paddedShards {k : Nat} (positive : 0 < k) (data : List UInt8) :
    (paddedShards k data).flatten =
      data ++ List.replicate (k * ceilDiv data.length k - data.length) 0 := by
  have covered : data.length ≤ k * ceilDiv data.length k :=
    Nat.mul_comm _ _ ▸ total_le_ceilDiv_mul data.length positive
  rw [paddedShards, flatten_padded_pieces, takeD_of_length_le covered]

/-- Pieces that start behind the end are zero shards, so filling up continues the same pattern. -/
theorem rightpad_padded_pieces (data : List UInt8) {size count k : Nat}
    (covered : data.length ≤ count * size) (fits : count ≤ k) :
    ((List.range count).map fun i => (piece data size i).takeD size (0 : UInt8)).rightpad k
        (List.replicate size 0) =
      (List.range k).map fun i => (piece data size i).takeD size 0 := by
  obtain ⟨rest, rfl⟩ := Nat.exists_eq_add_of_le fits
  rw [List.rightpad, List.length_map, List.length_range, Nat.add_sub_cancel_left, List.range_add,
    List.map_append]
  congr 1
  refine (List.eq_replicate_iff.mpr ⟨by simp, ?_⟩).symm
  intro shard mem
  obtain ⟨_, behind, rfl⟩ := List.mem_map.mp mem
  obtain ⟨j, _, rfl⟩ := List.mem_map.mp behind
  have empty : piece data size (count + j) = [] := by
    have start : count * size ≤ (count + j) * size := Nat.mul_le_mul_right _ (Nat.le_add_right _ _)
    simp [piece, Nat.le_trans covered start]
  rw [empty, List.takeD_nil]

/-- Splitting pads non-empty data to `k` shards of the rounded-up size; empty data panics. -/
theorem splitIntoShards_eq (coder : ErasureCoder library) (positive : 0 < coder.dataShards)
    (data : List UInt8) :
    coder.splitIntoShards data =
      if data = [] then .error .assertionFailed
      else .ok (paddedShards coder.dataShards data) := by
  have sized : divUsize (data.length + coder.dataShards - 1) coder.dataShards =
      .ok (ceilDiv data.length coder.dataShards) := if_neg (Nat.pos_iff_ne_zero.mp positive)
  by_cases empty : data = []
  · subst empty
    have zero : ceilDiv ([] : List UInt8).length coder.dataShards = 0 :=
      Nat.div_eq_of_lt (by simp; omega)
    rw [if_pos rfl, splitIntoShards, sized, zero]
    rfl
  · have sizePos : 0 < ceilDiv data.length coder.dataShards :=
      ceilDiv_pos (List.length_pos_iff.mpr empty) positive
    have covered : data.length ≤ coder.dataShards * ceilDiv data.length coder.dataShards :=
      Nat.mul_comm _ _ ▸ total_le_ceilDiv_mul data.length positive
    have filled := rightpad_padded_pieces data
      (total_le_ceilDiv_mul data.length sizePos) (ceilDiv_le_of_le_mul sizePos covered)
    simp only [splitIntoShards, sized, chunks_of_pos data sizePos, bind, Except.bind, pure,
      Except.pure, List.map_map, if_neg empty]
    rw [paddedShards, ← filled]
    rfl

/-- Merging restored shards that start with the split data. -/
theorem mergeShards_split {k : Nat} (positive : 0 < k) {data : List UInt8}
    {coded : List (List UInt8)} (starts : coded.take k = paddedShards k data) :
    mergeShards (coded.map some) data.length k = data := by
  unfold mergeShards
  rw [← List.map_take, List.flatMap_map, starts]
  simp only [Option.getD_some, List.flatMap_id']
  rw [flatten_paddedShards positive]
  exact List.take_left

/-! ### The round trip -/

/-- Non-empty data splits into `k` shards of the rounded-up size; after encoding them over `m` zeroed
parity shards and losing at most `m` positions it merges back, and a larger loss is an error. -/
theorem flat_round_trip (mds : library.Mds) (coder : ErasureCoder library) {data : List UInt8}
    (nonempty : data ≠ []) :
    ∃ shards coded, coder.splitIntoShards data = .ok shards ∧
      Uniform shards coder.dataShards (ceilDiv data.length coder.dataShards) ∧
      coder.encode (shards ++ List.replicate coder.parityShards
        (List.replicate (ceilDiv data.length coder.dataShards) 0)) = .ok coded ∧
      ∀ lost ⊆ Finset.range coder.totalShards,
        (lost.card ≤ coder.parityShards → ∃ restored,
          coder.reconstruct (withoutLost coded lost) = .ok restored ∧
          mergeShards restored data.length coder.dataShards = data) ∧
        (coder.parityShards < lost.card →
          coder.reconstruct (withoutLost coded lost) =
            .error (tooFewShards coder.dataShards (coder.totalShards - lost.card))) := by
  have positive := coder.dataShards_pos mds
  have sizePos : 0 < ceilDiv data.length coder.dataShards :=
    ceilDiv_pos (List.length_pos_iff.mpr nonempty) positive
  have uniform := uniform_paddedShards coder.dataShards data
  have zeros : (List.replicate (ceilDiv data.length coder.dataShards) (0 : UInt8)).length =
      ceilDiv data.length coder.dataShards := List.length_replicate
  have word := uniform.append (.replicate coder.parityShards zeros)
  obtain ⟨coded, encoded, fromWord, full, kept⟩ := coder.encode_spec mds word sizePos
  have starts : coded.take coder.dataShards = paddedShards coder.dataShards data := by
    rw [kept]
    exact List.take_left' uniform.count_eq
  refine ⟨_, coded, by rw [coder.splitIntoShards_eq positive, if_neg nonempty], uniform, encoded, ?_⟩
  intro lost inside
  have restored := coder.reconstruct_erased mds word sizePos fromWord
    (erased_withoutLost coded lost)
  rw [countP_withoutLost coded (full.count_eq.symm ▸ inside), full.count_eq] at restored
  have total : coder.totalShards = coder.dataShards + coder.parityShards := rfl
  have bounded := Finset.card_le_card inside
  rw [Finset.card_range] at bounded
  constructor
  · intro few
    refine ⟨coded.map some, ?_, mergeShards_split positive starts⟩
    rw [restored, if_neg (by omega)]
  · intro many
    rw [restored, if_pos (by omega)]

/-- Five bytes over two data shards, with each single position lost. -/
theorem flat_round_trip_five :
    sampleReedSolomon.Mds ∧ ([1, 2, 3, 4, 5] : List UInt8) ≠ [] ∧
      ∃ coded, ∀ lost ⊆ Finset.range 3, lost.card ≤ 1 → ∃ restored,
        (⟨(), 2, 1, rfl⟩ : ErasureCoder sampleReedSolomon).reconstruct (withoutLost coded lost) =
          .ok restored ∧ mergeShards restored 5 2 = [1, 2, 3, 4, 5] := by
  have nonempty : ([1, 2, 3, 4, 5] : List UInt8) ≠ [] := by decide
  obtain ⟨_, coded, _, _, _, losses⟩ :=
    flat_round_trip sampleReedSolomon_mds ⟨(), 2, 1, rfl⟩ nonempty
  exact ⟨sampleReedSolomon_mds, nonempty, coded, fun lost inside few => (losses lost inside).1 few⟩

/-! ### Where splitting is total -/

/-- Splitting gives `k` shards of one size that join to the data and zeros exactly on non-empty data. -/
theorem split_total_iff (coder : ErasureCoder library) (positive : 0 < coder.dataShards)
    (data : List UInt8) :
    (∃ shards size zeros, coder.splitIntoShards data = .ok shards ∧
      Uniform shards coder.dataShards size ∧
      shards.flatten = data ++ List.replicate zeros 0) ↔ data ≠ [] := by
  rw [coder.splitIntoShards_eq positive]
  constructor
  · rintro ⟨shards, size, zeros, returned, _⟩ empty
    rw [if_pos empty] at returned
    cases returned
  · intro nonempty
    exact ⟨_, _, _, if_neg nonempty, uniform_paddedShards coder.dataShards data,
      flatten_paddedShards positive data⟩

/-- One byte over two data shards, less than one byte a shard. -/
theorem split_total_iff_one :
    0 < (⟨(), 2, 1, rfl⟩ : ErasureCoder sampleReedSolomon).dataShards ∧
      ∃ shards size zeros,
        (⟨(), 2, 1, rfl⟩ : ErasureCoder sampleReedSolomon).splitIntoShards [7] = .ok shards ∧
          Uniform shards 2 size ∧ shards.flatten = [7] ++ List.replicate zeros 0 :=
  ⟨by decide, (split_total_iff ⟨(), 2, 1, rfl⟩ (by decide) [7]).mpr (by decide)⟩

/-- The empty slice has the shard size zero, which cutting into pieces does not accept. -/
theorem split_empty_panics :
    (⟨(), 2, 1, rfl⟩ : ErasureCoder sampleReedSolomon).splitIntoShards [] =
      .error .assertionFailed := by
  decide

end ErasureCoder

end ModelDistribution
