/-
Module: ModelDistribution.Proofs.StripeRecovery
Layer: Proofs
Purpose: Scarce chunks survive the loss of shards. Over a maximum distance separable code every window
  of chunks becomes a stripe whose data shards are the padded chunks, and any `k` of its shards give
  them back.
Imports: ModelDistribution.Erasure
Trusted boundary: none
Main exports: EcStripe.Encodes, encodeStripe_encodes, reconstructStripe_eq, stripes_recover,
  sampleReedSolomon, sampleReedSolomon_mds
-/
import ModelDistribution.Erasure

namespace ModelDistribution

open Foundation

variable {Codec : Type} {library : ReedSolomon Codec}

namespace ErasureCoder

theorem shards_of_new {dataShards parityShards : Nat} {coder : ErasureCoder library}
    (made : new library dataShards parityShards = .ok coder) :
    coder.dataShards = dataShards ∧ coder.parityShards = parityShards := by
  unfold new at made
  split at made
  · cases made
    exact ⟨rfl, rfl⟩
  · cases made

section

variable (mds : library.Mds) (coder : ErasureCoder library)
include mds

theorem dataShards_pos : 0 < coder.dataShards := mds.data_pos coder.accepted

/-- Encoding a full word of non-empty shards keeps its data shards. -/
theorem encode_spec {size : Nat} {shards : List (List UInt8)}
    (uniform : Uniform shards coder.totalShards size) (positive : 0 < size) :
    ∃ coded, coder.encode shards = .ok coded ∧ library.encode coder.rs shards = .ok coded ∧
      Uniform coded coder.totalShards size ∧
      coded.take coder.dataShards = shards.take coder.dataShards := by
  obtain ⟨coded, encoded, full, kept⟩ := mds.encode_ok coder.accepted uniform positive
  refine ⟨coded, ?_, encoded, full, kept⟩
  rw [encode, if_neg (not_not_intro uniform.count_eq), encoded]
  rfl

/-- An encoded word with missing shards is restored exactly when enough shards are left. -/
theorem reconstruct_erased {size : Nat} {shards coded : List (List UInt8)}
    {received : List (Option (List UInt8))} (uniform : Uniform shards coder.totalShards size)
    (positive : 0 < size) (encoded : library.encode coder.rs shards = .ok coded)
    (erased : Erased coded received) :
    coder.reconstruct received =
      if received.countP Option.isSome < coder.dataShards then
        .error (tooFewShards coder.dataShards (received.countP Option.isSome))
      else
        .ok (coded.map some) := by
  unfold reconstruct
  by_cases few : received.countP Option.isSome < coder.dataShards
  · simp only [if_pos few]
  · simp only [if_neg few]
    rw [mds.reconstruct_ok coder.accepted uniform positive encoded erased (Nat.le_of_not_lt few)]
    rfl

end

end ErasureCoder

/-! ### The data shards of one window -/

theorem length_le_shardSizeOf {window : List (UInt32 × List UInt8)} {chunk : UInt32 × List UInt8}
    (mem : chunk ∈ window) : chunk.2.length ≤ shardSizeOf window :=
  List.le_max?_getD_of_mem (List.mem_map_of_mem mem)

theorem uniform_dataShardsOf {window : List (UInt32 × List UInt8)} {k : Nat}
    (fits : window.length ≤ k) : Uniform (dataShardsOf window k) k (shardSizeOf window) where
  count_eq := by
    rw [dataShardsOf, List.length_rightpad, List.length_map]
    exact Nat.max_eq_left fits
  size_eq := by
    intro shard mem
    simp only [dataShardsOf, List.rightpad] at mem
    rcases List.mem_append.mp mem with ofChunk | ofPadding
    · obtain ⟨chunk, _, rfl⟩ := List.mem_map.mp ofChunk
      exact List.takeD_length _ _ _
    · rw [List.eq_of_mem_replicate ofPadding, List.length_replicate]

/-- Data shard `j` is chunk `j` with zeros behind it. -/
theorem getElem?_dataShardsOf {window : List (UInt32 × List UInt8)} {j : Nat}
    {chunk : UInt32 × List UInt8} (k : Nat) (found : window[j]? = some chunk) :
    (dataShardsOf window k)[j]? =
      some (chunk.2 ++ List.replicate (shardSizeOf window - chunk.2.length) 0) := by
  obtain ⟨inside, _⟩ := List.getElem?_eq_some_iff.mp found
  have resized := takeD_of_length_le (length_le_shardSizeOf (List.mem_of_getElem? found)) 0
  simp only [dataShardsOf, List.rightpad]
  rw [List.getElem?_append_left (by rw [List.length_map]; exact inside), List.getElem?_map, found,
    Option.map_some, resized]

/-- The joined data shards have chunk `j` at shard `j`, with zeros behind it. -/
theorem flatten_dataShardsOf {window : List (UInt32 × List UInt8)} {k j : Nat}
    {chunk : UInt32 × List UInt8} (fits : window.length ≤ k) (found : window[j]? = some chunk) :
    piece (dataShardsOf window k).flatten (shardSizeOf window) j =
      chunk.2 ++ List.replicate (shardSizeOf window - chunk.2.length) 0 :=
  (uniform_dataShardsOf fits).piece_flatten (getElem?_dataShardsOf k found)

/-! ### Stripes -/

/-- The stripe is the encoding of the window. -/
structure EcStripe.Encodes (coder : ErasureCoder library) (window : List (UInt32 × List UInt8))
    (stripe : EcStripe) : Prop where
  indices : stripe.chunkIndices = window.map Prod.fst
  size_eq : stripe.shardSize = shardSizeOf window
  size_pos : 0 < stripe.shardSize
  encoded : ∃ word, Uniform word coder.totalShards stripe.shardSize ∧
    library.encode coder.rs word = .ok stripe.shards
  uniform : Uniform stripe.shards coder.totalShards stripe.shardSize
  data : stripe.shards.take coder.dataShards = dataShardsOf window coder.dataShards

namespace EcStripe.Encodes

variable {coder : ErasureCoder library} {window : List (UInt32 × List UInt8)} {stripe : EcStripe}

/-- A chunk of the window is read back from the data shards, padded to the shard size. -/
theorem chunk_back (encodes : stripe.Encodes coder window)
    (fits : window.length ≤ coder.dataShards) {j : Nat} {index : UInt32} {data : List UInt8}
    (found : window[j]? = some (index, data)) :
    stripe.chunkIndices[j]? = some index ∧ data.length ≤ stripe.shardSize ∧
      ((dataShardsOf window coder.dataShards).flatten.drop (j * stripe.shardSize)).take
          stripe.shardSize = data ++ List.replicate (stripe.shardSize - data.length) 0 := by
  refine ⟨?_, ?_, ?_⟩
  · rw [encodes.indices, List.getElem?_map, found, Option.map_some]
  · rw [encodes.size_eq]
    exact length_le_shardSizeOf (List.mem_of_getElem? found)
  · rw [encodes.size_eq]
    exact flatten_dataShardsOf fits found

/-- What is received of an encoded stripe. -/
theorem received_eq (encodes : stripe.Encodes coder window) (present : List Nat) :
    ((List.range coder.totalShards).mapM fun i =>
      if i ∈ present then (indexList stripe.shards i).map some else .ok none) =
        (.ok (keepOnly stripe.shards present) : Checked _) := by
  rw [keepOnly, encodes.uniform.count_eq]
  apply mapM_eq_ok
  intro i mem
  have inside : i < stripe.shards.length := by
    rw [encodes.uniform.count_eq]
    exact List.mem_range.mp mem
  by_cases asked : i ∈ present
  · rw [if_pos asked, if_pos asked, indexList_of_lt inside, List.getElem?_eq_getElem inside]
    rfl
  · rw [if_neg asked, if_neg asked]

/-- Joining the restored data shards. -/
theorem mergeShards_restored (encodes : stripe.Encodes coder window) :
    mergeShards (stripe.shards.map some) (stripe.shardSize * coder.dataShards) coder.dataShards =
      (dataShardsOf window coder.dataShards).flatten := by
  have enough : coder.dataShards ≤ coder.totalShards := Nat.le_add_right _ _
  have length := (encodes.uniform.take enough).length_flatten
  unfold mergeShards
  rw [← List.map_take, List.flatMap_map]
  simp only [Option.getD_some, List.flatMap_id']
  rw [List.take_of_length_le (by rw [length, Nat.mul_comm]), encodes.data]

end EcStripe.Encodes

section

variable (mds : library.Mds) {coder : ErasureCoder library} {cfg : TailConfig}
  (made : ErasureCoder.new library cfg.dataShards cfg.parityShards = .ok coder)
include mds made

/-- A window of at most `k` non-empty chunks is encoded. -/
theorem encodeStripe_encodes {window : List (UInt32 × List UInt8)} (some_chunk : window ≠ [])
    (fits : window.length ≤ cfg.dataShards) (nonempty : ∀ chunk ∈ window, chunk.2 ≠ []) :
    ∃ stripe, encodeStripe coder cfg window = .ok stripe ∧ stripe.Encodes coder window := by
  obtain ⟨sameData, sameParity⟩ := ErasureCoder.shards_of_new made
  obtain ⟨chunk, mem⟩ := List.exists_mem_of_ne_nil window some_chunk
  have positive : 0 < shardSizeOf window :=
    Nat.lt_of_lt_of_le (List.length_pos_iff.mpr (nonempty chunk mem)) (length_le_shardSizeOf mem)
  have total : coder.totalShards = cfg.dataShards + cfg.parityShards := by
    rw [ErasureCoder.totalShards, sameData, sameParity]
  have zeros : (List.replicate (shardSizeOf window) (0 : UInt8)).length = shardSizeOf window :=
    List.length_replicate
  have word := (uniform_dataShardsOf fits).append (.replicate cfg.parityShards zeros)
  rw [← total] at word
  obtain ⟨coded, encoded, fromWord, full, kept⟩ := coder.encode_spec mds word positive
  refine ⟨⟨window.map Prod.fst, coded, shardSizeOf window⟩, ?_, ?_⟩
  · simp only [encodeStripe, encoded, bind, Except.bind, pure, Except.pure]
  · refine ⟨rfl, rfl, positive, ⟨_, word, fromWord⟩, full, ?_⟩
    rw [kept, sameData]
    exact List.take_left' (uniform_dataShardsOf fits).count_eq

/-- A stripe gives its data shards back exactly when at least `k` different shards are present. -/
theorem reconstructStripe_eq {window : List (UInt32 × List UInt8)} {stripe : EcStripe}
    (encodes : stripe.Encodes coder window) (present : List Nat) :
    reconstructStripe library stripe present cfg =
      .ok (if (present.toFinset.filter (· < coder.totalShards)).card < coder.dataShards then
        .error (ErasureCoder.tooFewShards coder.dataShards
          (present.toFinset.filter (· < coder.totalShards)).card)
      else
        .ok (dataShardsOf window coder.dataShards).flatten) := by
  obtain ⟨sameData, _⟩ := ErasureCoder.shards_of_new made
  obtain ⟨word, uniform, encoded⟩ := encodes.encoded
  have restored := coder.reconstruct_erased mds uniform encodes.size_pos encoded
    (erased_keepOnly stripe.shards present)
  rw [countP_keepOnly, encodes.uniform.count_eq] at restored
  have positive : 0 < stripe.shards.length := by
    rw [encodes.uniform.count_eq]
    exact Nat.add_pos_left (coder.dataShards_pos mds) _
  have firstSize : (stripe.shards.get ⟨0, positive⟩).length = stripe.shardSize :=
    encodes.uniform.size_eq _ (List.get_mem _ _)
  simp only [reconstructStripe, made, encodes.received_eq, restored, bind, Except.bind, pure,
    Except.pure]
  by_cases few : (present.toFinset.filter (· < coder.totalShards)).card < coder.dataShards
  · simp only [if_pos few]
  · simp only [if_neg few, indexList_of_lt positive]
    rw [List.get_eq_getElem] at firstSize
    rw [firstSize, ← sameData, encodes.mergeShards_restored]

/-- Every window becomes a stripe. -/
theorem buildEcStripes_encodes {scarce : List (UInt32 × List UInt8)}
    (nonempty : ∀ chunk ∈ scarce, chunk.2 ≠ []) :
    ∃ stripes, buildEcStripes library scarce cfg = .ok (.ok stripes) ∧
      stripes.length = ceilDiv scarce.length cfg.dataShards ∧
      ∀ (i : Nat) (stripe : EcStripe), stripes[i]? = some stripe →
        stripe.Encodes coder (piece scarce cfg.dataShards i) := by
  have positive : 0 < cfg.dataShards := by
    rw [← (ErasureCoder.shards_of_new made).1]
    exact coder.dataShards_pos mds
  have windowed : ∀ window ∈ (List.range (ceilDiv scarce.length cfg.dataShards)).map
      (piece scarce cfg.dataShards), ∃ stripe, encodeStripe coder cfg window = .ok stripe ∧
        stripe.Encodes coder window := by
    intro window mem
    obtain ⟨i, below, rfl⟩ := List.mem_map.mp mem
    have inside := start_lt_of_lt_ceilDiv positive (List.mem_range.mp below)
    apply encodeStripe_encodes mds made
    · apply List.ne_nil_of_length_pos
      rw [length_piece]
      omega
    · rw [length_piece]
      exact Nat.min_le_left _ _
    · intro chunk inWindow
      exact nonempty chunk (List.mem_of_mem_drop (List.mem_of_mem_take inWindow))
  obtain ⟨stripes, looped, related⟩ := mapM_forall₂ windowed
  have count : stripes.length = ceilDiv scarce.length cfg.dataShards := by
    rw [← related.length_eq, List.length_map, List.length_range]
  refine ⟨stripes, ?_, count, ?_⟩
  · simp only [buildEcStripes, made, chunks_of_pos scarce positive, looped, bind, Except.bind, pure,
      Except.pure]
  · intro i stripe found
    obtain ⟨inside, rfl⟩ := List.getElem?_eq_some_iff.mp found
    have inWindows : i < ((List.range (ceilDiv scarce.length cfg.dataShards)).map
        (piece scarce cfg.dataShards)).length := by
      rw [related.length_eq]
      exact inside
    simpa using related.get inWindows inside

end

/-- The stripes name the chunks of their windows, and so all chunks in order. -/
theorem flatMap_chunkIndices {coder : ErasureCoder library} {k : Nat} (positive : 0 < k)
    {scarce : List (UInt32 × List UInt8)} {stripes : List EcStripe}
    (count : stripes.length = ceilDiv scarce.length k)
    (encodes : ∀ (i : Nat) (stripe : EcStripe), stripes[i]? = some stripe →
      stripe.Encodes coder (piece scarce k i)) :
    stripes.flatMap EcStripe.chunkIndices = scarce.map Prod.fst := by
  have indices : stripes.map EcStripe.chunkIndices =
      (List.range (ceilDiv scarce.length k)).map (fun i => (piece scarce k i).map Prod.fst) := by
    apply List.ext_getElem
    · rw [List.length_map, List.length_map, List.length_range, count]
    · intro i inStripes _
      rw [List.length_map] at inStripes
      simpa using (encodes i _ (List.getElem?_eq_getElem inStripes)).indices
  calc stripes.flatMap EcStripe.chunkIndices
      = (List.range (ceilDiv scarce.length k)).flatMap
          (fun i => (piece scarce k i).map Prod.fst) := by
        rw [List.flatMap_def, indices, ← List.flatMap_def]
    _ = scarce.map Prod.fst := by rw [← List.map_flatMap, flatMap_all_pieces scarce positive]

/-- Scarce chunks are spread over stripes in their order, at most `k` on each, and any `k` shards of a
stripe give its chunks back, each padded with zeros to the shard size. -/
theorem stripes_recover (mds : library.Mds) (cfg : TailConfig) {coder : ErasureCoder library}
    (made : ErasureCoder.new library cfg.dataShards cfg.parityShards = .ok coder)
    (scarce : List (UInt32 × List UInt8)) (nonempty : ∀ chunk ∈ scarce, chunk.2 ≠ []) :
    ∃ stripes, buildEcStripes library scarce cfg = .ok (.ok stripes) ∧
      stripes.flatMap EcStripe.chunkIndices = scarce.map Prod.fst ∧
      (∀ stripe ∈ stripes, stripe.chunkIndices.length ≤ cfg.dataShards ∧
        Uniform stripe.shards (cfg.dataShards + cfg.parityShards) stripe.shardSize) ∧
      ∀ (i : Nat) (stripe : EcStripe), stripes[i]? = some stripe → ∀ present : List Nat,
        ((∃ bytes, reconstructStripe library stripe present cfg = .ok (.ok bytes)) ↔
          cfg.dataShards ≤
            (present.toFinset.filter (· < cfg.dataShards + cfg.parityShards)).card) ∧
        ∀ bytes, reconstructStripe library stripe present cfg = .ok (.ok bytes) →
          ∀ j < cfg.dataShards, ∀ (index : UInt32) (data : List UInt8),
            scarce[i * cfg.dataShards + j]? = some (index, data) →
              stripe.chunkIndices[j]? = some index ∧ data.length ≤ stripe.shardSize ∧
                (bytes.drop (j * stripe.shardSize)).take stripe.shardSize =
                  data ++ List.replicate (stripe.shardSize - data.length) 0 := by
  obtain ⟨sameData, sameParity⟩ := ErasureCoder.shards_of_new made
  have total : coder.totalShards = cfg.dataShards + cfg.parityShards := by
    rw [ErasureCoder.totalShards, sameData, sameParity]
  have positive : 0 < cfg.dataShards := by
    rw [← sameData]
    exact coder.dataShards_pos mds
  obtain ⟨stripes, built, count, encodes⟩ := buildEcStripes_encodes mds made nonempty
  refine ⟨stripes, built, ?_, ?_, ?_⟩
  · exact flatMap_chunkIndices positive count encodes
  · intro stripe mem
    obtain ⟨i, found⟩ := List.mem_iff_getElem?.mp mem
    have encoded := encodes i stripe found
    constructor
    · rw [encoded.indices, List.length_map, length_piece]
      exact Nat.min_le_left _ _
    · rw [← total]
      exact encoded.uniform
  · intro i stripe found present
    have encoded := encodes i stripe found
    have fits : (piece scarce cfg.dataShards i).length ≤ coder.dataShards := by
      rw [sameData, length_piece]
      exact Nat.min_le_left _ _
    rw [reconstructStripe_eq mds made encoded present, total, sameData]
    constructor
    · by_cases few : (present.toFinset.filter
          (· < cfg.dataShards + cfg.parityShards)).card < cfg.dataShards
      · simp [few]
      · simp [few, Nat.le_of_not_lt few]
    · intro bytes restored j below index data chunk
      have joined : bytes =
          (dataShardsOf (piece scarce cfg.dataShards i) coder.dataShards).flatten := by
        split at restored
        · simp at restored
        · rw [sameData]
          exact (Except.ok.inj (Except.ok.inj restored)).symm
      have inWindow : (piece scarce cfg.dataShards i)[j]? = some (index, data) := by
        rw [getElem?_piece scarce i below, chunk]
      rw [joined]
      exact encoded.chunk_back fits inWindow

/-! ### The codec for two data shards and one parity shard -/

/-- Multiplication by `x` in the field of the codec, whose polynomial is `x⁸ + x⁴ + x³ + x² + 1`. -/
def timesX (b : UInt8) : UInt8 := if b < 128 then b <<< 1 else (b <<< 1) ^^^ 29

/-- Multiplication in the field, by the bits of the first factor. -/
def fieldMul (a b : UInt8) : UInt8 :=
  (List.range 8).foldr
    (fun i product => timesX product ^^^ (if a.toNat.testBit i then b else 0)) 0

theorem fieldMul_three (b : UInt8) : fieldMul 244 (fieldMul 3 b) = b := by
  have inverse : ∀ i : Fin 256, fieldMul 244 (fieldMul 3 (UInt8.ofFin i)) = UInt8.ofFin i := by
    decide +kernel
  exact inverse b.toFin

theorem fieldMul_two (b : UInt8) : fieldMul 142 (fieldMul 2 b) = b := by
  have inverse : ∀ i : Fin 256, fieldMul 142 (fieldMul 2 (UInt8.ofFin i)) = UInt8.ofFin i := by
    decide +kernel
  exact inverse b.toFin

/-- The library for these numbers of shards: the parity row of its matrix is `3, 2`. -/
def sampleReedSolomon : ReedSolomon Unit :=
  .ofParity (fun x y => fieldMul 3 x ^^^ fieldMul 2 y) (fun y z => fieldMul 244 (z ^^^ fieldMul 2 y))
    (fun x z => fieldMul 142 (fieldMul 3 x ^^^ z)) "Incorrect number of shards"

theorem sampleReedSolomon_mds : sampleReedSolomon.Mds := by
  apply BlockCode.ofParity_mds
  · intro x y
    rw [UInt8.xor_assoc, UInt8.xor_self, UInt8.xor_zero, fieldMul_three]
  · intro x y
    rw [← UInt8.xor_assoc, UInt8.xor_self, UInt8.zero_xor, fieldMul_two]

/-- Three chunks in two stripes. From the first data shard and the parity shard of the first stripe,
named out of order, twice, and next to a position that does not exist, its second chunk comes back. -/
theorem stripes_recover_sample :
    ∃ stripes, buildEcStripes sampleReedSolomon [(5, [1, 2, 3]), (9, [4]), (7, [8, 8])]
        { dataShards := 2, parityShards := 1 } = .ok (.ok stripes) ∧
      stripes.flatMap EcStripe.chunkIndices = [5, 9, 7] ∧
      ∀ stripe, stripes[0]? = some stripe →
        ∃ bytes, reconstructStripe sampleReedSolomon stripe [2, 0, 2, 9]
            { dataShards := 2, parityShards := 1 } = .ok (.ok bytes) ∧
          (bytes.drop (1 * stripe.shardSize)).take stripe.shardSize =
            [4] ++ List.replicate (stripe.shardSize - 1) 0 := by
  have made : ErasureCoder.new sampleReedSolomon 2 1 = .ok ⟨(), 2, 1, rfl⟩ := rfl
  obtain ⟨stripes, built, indices, _, recovers⟩ :=
    stripes_recover sampleReedSolomon_mds { dataShards := 2, parityShards := 1 } made
      [(5, [1, 2, 3]), (9, [4]), (7, [8, 8])] (by decide)
  refine ⟨stripes, built, indices, ?_⟩
  intro stripe found
  obtain ⟨enough, chunks⟩ := recovers 0 stripe found [2, 0, 2, 9]
  obtain ⟨bytes, restored⟩ := enough.mpr (by decide)
  exact ⟨bytes, restored, (chunks bytes restored 1 (by decide) 9 [4] rfl).2.2⟩

end ModelDistribution
