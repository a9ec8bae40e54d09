/-
Module: ModelDistribution.DeltaEncoding
Layer: Model
Purpose: The derived encoding of a delta patch as a JSON value and its decoding. A set is an array in
  the order in which its table yields it, and the map from chunks to hashes an object with decimal
  keys.
Imports: ModelDistribution.Delta, ModelDistribution.Proto.Decoding
Trusted boundary: human-reviewed spec
Main exports: PatchLayouts, DeltaPatch.toValue, DeltaPatch.fromValue, DeltaPatch.serialise,
  DeltaPatch.deserialise, DeltaPatch.asRead

[src/delta.rs, serialise and deserialise]
-/
import ModelDistribution.Delta
import ModelDistribution.Proto.Decoding

namespace ModelDistribution

open Foundation

/-- The layouts of the three tables of a patch, each with a hash state of its own. -/
structure PatchLayouts where
  unchanged : Layout UInt32 Unit
  changed : Layout UInt32 String
  deleted : Layout UInt32 Unit

/-- Encoding of a set of indices. -/
def indexSetValue (layout : Layout UInt32 Unit) (set : HashedSet UInt32) : Json :=
  .array ((layout.iter set).map fun entry => .ofNat entry.1.toNat)

/-- The key of an index in an object. -/
def indexKey (index : UInt32) : String := String.ofList (Nat.toDigits 10 index.toNat)

/-- Encoding of a map from indices to hashes. -/
def hashMapValue (layout : Layout UInt32 String) (map : ShardedMap UInt32 String) : Json :=
  .object ((layout.iter map).map fun entry => (indexKey entry.1, .string entry.2))

/-- Decoding of a set of indices. -/
def indexSet? : Json → Option (HashedSet UInt32)
  | .array items => do
      let indices ← items.mapM Json.asUInt32?
      return .ofEntries (indices.map fun index => (index, ()))
  | _ => none

/-- An index from its key: a decimal number without leading zeros. -/
def indexKey? (key : String) : Option UInt32 := do
  let n ← natural? key.toList
  if n < 2 ^ 32 then some (UInt32.ofNat n) else none

/-- Decoding of a map from indices to hashes. -/
def hashMap? : Json → Option (ShardedMap UInt32 String)
  | .object fields => do
      let entries ← fields.mapM fun field => do
        return (← indexKey? field.1, ← field.2.asString?)
      return .ofEntries entries
  | _ => none

namespace DeltaPatch

/-- Derived encoding of a patch. -/
def toValue (layouts : PatchLayouts) (patch : DeltaPatch) : Json :=
  .object
    [("old_version", .string patch.oldVersion),
     ("new_version", .string patch.newVersion),
     ("file_id", .string patch.fileId),
     ("unchanged", indexSetValue layouts.unchanged patch.unchanged),
     ("changed", hashMapValue layouts.changed patch.changed),
     ("deleted", indexSetValue layouts.deleted patch.deleted)]

/-- Derived decoding of a patch. -/
def fromValue (value : Json) : Option DeltaPatch := do
  let [oldVersion, newVersion, fileId, unchanged, changed, deleted] ←
    value.members
      ["old_version", "new_version", "file_id", "unchanged", "changed", "deleted"] | none
  let oldVersion ← oldVersion.asString?
  let newVersion ← newVersion.asString?
  let fileId ← fileId.asString?
  let unchanged ← indexSet? unchanged
  let changed ← hashMap? changed
  let deleted ← indexSet? deleted
  return { oldVersion, newVersion, fileId, unchanged, changed, deleted }

/-- `serialise` of a patch. -/
def serialise (layouts : PatchLayouts) (patch : DeltaPatch) : List UInt8 :=
  (patch.toValue layouts).toBytes noFloats

/-- `deserialise` of a patch. -/
def deserialise (parser : JsonParser) (bytes : List UInt8) : Except DistError DeltaPatch :=
  match parser.fromSlice "DeltaPatch" fromValue bytes with
  | .ok patch => .ok patch
  | .error message => .error (.serde message)

/-- The patch with its tables in the order in which they were written. -/
def asRead (layouts : PatchLayouts) (patch : DeltaPatch) : DeltaPatch :=
  { patch with
    unchanged := layouts.unchanged.reorder patch.unchanged
    changed := layouts.changed.reorder patch.changed
    deleted := layouts.deleted.reorder patch.deleted }

end DeltaPatch

end ModelDistribution
