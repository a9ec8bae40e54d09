/-
Module: ModelDistribution.Erasure
Layer: Model
Purpose: Erasure coding for the tail phase: the wrapper around the Reed-Solomon codec, the split of a
  byte string into shards and its inverse, and the stripes of scarce chunks. The codec library is a
  parameter.
Imports: ModelDistribution.Error, ModelDistribution.Foundation.ErasureCode
Trusted boundary: human-reviewed spec
Main exports: ReedSolomon, ErasureCoder, ErasureCoder.encode, ErasureCoder.reconstruct,
  ErasureCoder.splitIntoShards, mergeShards, TailConfig, EcStripe, buildEcStripes, reconstructStripe

[src/erasure.rs]
-/
import ModelDistribution.Error
import ModelDistribution.Foundation.ErasureCode

namespace ModelDistribution

open Foundation

/-- The functions of the codec library on byte shards; its errors are their display texts. -/
abbrev ReedSolomon (Codec : Type) := BlockCode Codec String UInt8

variable {Codec : Type}

/-- `ErasureCoder`: a codec the library accepted for these numbers of shards. -/
structure ErasureCoder (library : ReedSolomon Codec) where
  rs : Codec
  dataShards : Nat
  parityShards : Nat
  accepted : library.new dataShards parityShards = .ok rs

namespace ErasureCoder

/-- `ErasureCoder::new`. -/
def new (library : ReedSolomon Codec) (dataShards parityShards : Nat) :
    Except DistError (ErasureCoder library) :=
  match made : library.new dataShards parityShards with
  | .ok rs => .ok { rs, dataShards, parityShards, accepted := made }
  | .error message => .error (.erasureError message)

variable {library : ReedSolomon Codec}

/-- `total_shards`. -/
def totalShards (coder : ErasureCoder library) : Nat := coder.dataShards + coder.parityShards

/-- `ErasureCoder::encode`: the shards with the parity slots written. -/
def encode (coder : ErasureCoder library) (shards : List (List UInt8)) :
    Except DistError (List (List UInt8)) :=
  if shards.length ≠ coder.totalShards then
    .error (.erasureError s!"expected {coder.totalShards} shards, got {shards.length}")
  else
    (library.encode coder.rs shards).mapError .erasureError

/-- The error of a reconstruction from fewer than `k` shards. -/
def tooFewShards (k present : Nat) : DistError :=
  .erasureError s!"need {k} shards to reconstruct, only {present} available"

/-- `ErasureCoder::reconstruct`: the shards with the missing ones filled in. -/
def reconstruct (coder : ErasureCoder library) (shards : List (Option (List UInt8))) :
    Except DistError (List (Option (List UInt8))) :=
  let present := shards.countP Option.isSome
  if present < coder.dataShards then .error (tooFewShards coder.dataShards present)
  else
    (library.reconstruct coder.rs shards).mapError .erasureError

/-- `split_into_shards`: pieces of one size, the last one padded, and zero shards where the data has
too few pieces. -/
def splitIntoShards (coder : ErasureCoder library) (data : List UInt8) :
    Checked (List (List UInt8)) := do
  let shardSize ← divUsize (data.length + coder.dataShards - 1) coder.dataShards
  let pieces ← chunks data shardSize
  let shards := pieces.map fun piece => piece.takeD shardSize 0
  return shards.rightpad coder.dataShards (List.replicate shardSize 0)

end ErasureCoder

/-- `ErasureCoder::merge_shards`. -/
def mergeShards (shards : List (Option (List UInt8))) (originalLen k : Nat) : List UInt8 :=
  ((shards.take k).flatMap fun shard => shard.getD []).take originalLen

/-- `TailConfig`, with the fields that the stripes read. -/
structure TailConfig where
  dataShards : Nat
  parityShards : Nat
deriving DecidableEq, Repr

/-- `TailConfig::default`. -/
instance : Inhabited TailConfig where
  default := { dataShards := 4, parityShards := 2 }

/-- `EcStripe`: the chunks of a stripe and its encoded shards. -/
structure EcStripe where
  chunkIndices : List UInt32
  shards : List (List UInt8)
  shardSize : Nat
deriving DecidableEq, Repr

/-- The shard size of a stripe: that of its largest chunk. -/
def shardSizeOf (window : List (UInt32 × List UInt8)) : Nat :=
  ((window.map fun chunk => chunk.2.length).max?).getD 0

/-- The data shards of a stripe: its chunks resized to the shard size, and zero shards behind a short
window. -/
def dataShardsOf (window : List (UInt32 × List UInt8)) (k : Nat) : List (List UInt8) :=
  let shardSize := shardSizeOf window
  (window.map fun chunk => chunk.2.takeD shardSize 0).rightpad k (List.replicate shardSize 0)

/-- One round of the loop of `build_ec_stripes`. -/
def encodeStripe {library : ReedSolomon Codec} (coder : ErasureCoder library) (cfg : TailConfig)
    (window : List (UInt32 × List UInt8)) : Except DistError EcStripe := do
  let shardSize := shardSizeOf window
  let parity := List.replicate cfg.parityShards (List.replicate shardSize 0)
  let shards ← coder.encode (dataShardsOf window cfg.dataShards ++ parity)
  return { chunkIndices := window.map Prod.fst, shards, shardSize }

/-- `build_ec_stripes`. -/
def buildEcStripes (library : ReedSolomon Codec) (scarceChunks : List (UInt32 × List UInt8))
    (cfg : TailConfig) : Checked (Except DistError (List EcStripe)) := do
  match ErasureCoder.new library cfg.dataShards cfg.parityShards with
  | .error e => return .error e
  | .ok coder =>
      let windows ← chunks scarceChunks cfg.dataShards
      return windows.mapM (encodeStripe coder cfg)

/-- `reconstruct_stripe`. -/
def reconstructStripe (library : ReedSolomon Codec) (stripe : EcStripe) (presentIndices : List Nat)
    (cfg : TailConfig) : Checked (Except DistError (List UInt8)) := do
  match ErasureCoder.new library cfg.dataShards cfg.parityShards with
  | .error e => return .error e
  | .ok coder =>
      let recv ← (List.range coder.totalShards).mapM fun i =>
        if i ∈ presentIndices then (indexList stripe.shards i).map some else .ok none
      match coder.reconstruct recv with
      | .error e => return .error e
      | .ok recv =>
          let first ← indexList stripe.shards 0
          return .ok (mergeShards recv (first.length * cfg.dataShards) cfg.dataShards)

end ModelDistribution
