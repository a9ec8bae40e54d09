/-
Module: ModelDistribution.Proofs.DeltaWire
Layer: Proofs
Purpose: A delta patch that is sent means the same where it is received: whatever the order in which
  its tables are written, it is read back with the same members, and every operation on it has the
  same outcome. An update by the received patch leaves the new version.
Imports: ModelDistribution.DeltaEncoding, ModelDistribution.Proofs.DeltaUpdate,
  ModelDistribution.Proofs.MessageCodec, ModelDistribution.Proofs.StaleDeletion
Trusted boundary: none
Main exports: DeltaPatch.fromValue_toValue, DeltaPatch.SameAs, delta_wire
-/
import ModelDistribution.DeltaEncoding
import ModelDistribution.Proofs.DeltaUpdate
import ModelDistribution.Proofs.MessageCodec
import ModelDistribution.Proofs.StaleDeletion

namespace ModelDistribution

open Foundation

/-! ### The tables -/

@[simp] theorem indexKey?_indexKey (index : UInt32) : indexKey? (indexKey index) = some index := by
  have small := index.toNat_lt
  simp only [indexKey?, indexKey, String.toList_ofList, natural?_toDigits]
  exact (if_pos small).trans (by rw [UInt32.ofNat_toNat])

theorem within_indexSetValue (layout : Layout UInt32 Unit) (set : HashedSet UInt32) :
    Json.Within JsonNumber.IsWord 1 (indexSetValue layout set) := by
  simp only [indexSetValue, Json.within_array, List.forall_mem_map]
  intro entry _
  exact Json.within_ofNat (Nat.lt_trans entry.1.toNat_lt (by decide))

theorem indexSet?_indexSetValue (layout : Layout UInt32 Unit) (set : HashedSet UInt32) :
    indexSet? (indexSetValue layout set) = some (layout.reorder set) := by
  have back : (((layout.iter set).map Prod.fst).map fun index => Json.ofNat index.toNat).mapM
      Json.asUInt32? = some ((layout.iter set).map Prod.fst) :=
    mapM_decode fun index _ => Json.asUInt32?_ofNat index
  have items : ((layout.iter set).map fun entry => Json.ofNat entry.1.toNat) =
      ((layout.iter set).map Prod.fst).map fun index => Json.ofNat index.toNat := by
    rw [List.map_map]
    rfl
  have entries : ((layout.iter set).map Prod.fst).map (fun index => (index, ())) =
      layout.iter set := by
    rw [List.map_map]
    exact List.map_id _
  rw [indexSetValue, indexSet?, items, back]
  change some (ShardedMap.ofEntries _) = _
  rw [entries, Layout.ofEntries_iter]

theorem within_hashMapValue (layout : Layout UInt32 String) (map : ShardedMap UInt32 String) :
    Json.Within JsonNumber.IsWord 1 (hashMapValue layout map) := by
  have fields : ∀ entries : List (UInt32 × String), Json.WithinFields JsonNumber.IsWord 0
      (entries.map fun entry => (indexKey entry.1, Json.string entry.2)) := by
    intro entries
    induction entries with
    | nil => trivial
    | cons entry entries ih => exact ⟨trivial, ih⟩
  exact fields (layout.iter map)

theorem hashMap?_hashMapValue (layout : Layout UInt32 String) (map : ShardedMap UInt32 String) :
    hashMap? (hashMapValue layout map) = some (layout.reorder map) := by
  have back : ((layout.iter map).map fun entry =>
      (indexKey entry.1, Json.string entry.2)).mapM (fun field => do
        return (← indexKey? field.1, ← field.2.asString?)) = some (layout.iter map) :=
    mapM_decode fun entry _ => by simp
  rw [hashMapValue, hashMap?, back]
  change some (ShardedMap.ofEntries _) = _
  rw [Layout.ofEntries_iter]

/-! ### The patch -/

namespace DeltaPatch

theorem words (layouts : PatchLayouts) (patch : DeltaPatch) :
    Json.Within JsonNumber.IsWord 2 (patch.toValue layouts) :=
  ⟨trivial, trivial, trivial, within_indexSetValue _ _, within_hashMapValue _ _,
    within_indexSetValue _ _, trivial⟩

theorem fromValue_toValue (layouts : PatchLayouts) (patch : DeltaPatch) :
    fromValue (patch.toValue layouts) = some (patch.asRead layouts) := by
  simp [toValue, fromValue, Json.members, Json.sole, indexSet?_indexSetValue,
    hashMap?_hashMapValue, asRead]

/-- A patch is read back from the bytes that were sent of it. -/
theorem deserialise_serialise {parser : JsonParser} {floatText : JsonNumber → List Char}
    {reread : JsonNumber → JsonNumber} (reads : ReadsBack floatText 127 reread parser.read)
    (layouts : PatchLayouts) (patch : DeltaPatch) :
    deserialise parser (patch.serialise layouts) = .ok (patch.asRead layouts) := by
  have words : Json.Within JsonNumber.IsWord 127 (patch.toValue layouts) :=
    Json.Within.mono (fun _ isWord => isWord) _ (by decide) (patch.words layouts)
  have decoded : parser.fromSlice "DeltaPatch" fromValue (patch.serialise layouts) =
      .ok (patch.asRead layouts) :=
    JsonParser.fromSlice_of_read (reads.words words) (patch.fromValue_toValue layouts)
  rw [deserialise, decoded]

/-! ### What the received patch does -/

/-- The patches have the same members, and every operation has the same outcome on both. -/
structure SameAs (received patch : DeltaPatch) : Prop where
  versions : received.oldVersion = patch.oldVersion ∧ received.newVersion = patch.newVersion ∧
    received.fileId = patch.fileId
  unchanged : received.unchanged.keys.Perm patch.unchanged.keys
  changed : ∀ i, received.changed.get? i = patch.changed.get? i
  fetch : received.chunksToFetch = patch.chunksToFetch
  delete : received.chunksToDelete = patch.chunksToDelete
  totals : received.totalChanged = patch.totalChanged ∧
    received.totalUnchanged = patch.totalUnchanged ∧ received.totalDeleted = patch.totalDeleted
  verify : ∀ (sha256 : List UInt8 → List UInt8) (i : UInt32) (data : List UInt8),
    received.verifyChunk sha256 i data = patch.verifyChunk sha256 i data

/-- Sorting forgets the order. -/
theorem mergeSort_eq_of_perm {xs ys : List UInt32} (perm : xs.Perm ys) :
    xs.mergeSort (· ≤ ·) = ys.mergeSort (· ≤ ·) := by
  have sorted : ∀ zs : List UInt32, (zs.mergeSort (· ≤ ·)).Pairwise (· ≤ ·) := by
    intro zs
    have ordered : (zs.mergeSort (· ≤ ·)).Pairwise fun a b => decide (a ≤ b) = true := by
      apply List.pairwise_mergeSort
      · intro a b c ab bc
        exact decide_eq_true (UInt32.le_trans (of_decide_eq_true ab) (of_decide_eq_true bc))
      · intro a b
        simpa using UInt32.le_total a b
    exact ordered.imp of_decide_eq_true
  have same : (xs.mergeSort (· ≤ ·)).Perm (ys.mergeSort (· ≤ ·)) :=
    (List.mergeSort_perm xs _).trans (perm.trans (List.mergeSort_perm ys _).symm)
  exact same.eq_of_pairwise (fun a b _ _ first second => UInt32.le_antisymm first second)
    (sorted xs) (sorted ys)

theorem asRead_sameAs (layouts : PatchLayouts) (patch : DeltaPatch) :
    (patch.asRead layouts).SameAs patch where
  versions := ⟨rfl, rfl, rfl⟩
  unchanged := layouts.unchanged.keys_reorder patch.unchanged
  changed := layouts.changed.get?_reorder patch.changed
  fetch := mergeSort_eq_of_perm (layouts.changed.keys_reorder patch.changed)
  delete := mergeSort_eq_of_perm (layouts.deleted.keys_reorder patch.deleted)
  totals := ⟨(layouts.changed.iter_perm patch.changed).length_eq,
    (layouts.unchanged.iter_perm patch.unchanged).length_eq,
    (layouts.deleted.iter_perm patch.deleted).length_eq⟩
  verify sha256 i data := by
    simp only [verifyChunk, asRead, Layout.get?_reorder]

/-- A patch with the same members describes the same two versions. -/
theorem SameAs.describes {received patch : DeltaPatch} {old new : Manifest}
    (same : received.SameAs patch) (describes : patch.Describes old new) :
    received.Describes old new where
  unchanged i := by
    rw [same.unchanged.mem_iff]
    exact describes.unchanged i
  changed i hash := by
    rw [same.changed]
    exact describes.changed i hash
  deleted i := by
    rw [← mem_chunksToDelete, same.delete, mem_chunksToDelete]
    exact describes.deleted i

/-- What a computed patch contains. -/
theorem describes_of_compute {patch : DeltaPatch} {old new : Manifest}
    (oldCounted : old.Counted) (newCounted : new.Counted)
    (computed : compute old new = .ok patch) : patch.Describes old new := by
  by_cases sameFile : old.fileId = new.fileId
  · rcases compute_describes sameFile oldCounted newCounted with ⟨other, computed', describes⟩
    rw [computed] at computed'
    cases computed'
    exact describes
  · rw [compute, if_pos sameFile] at computed
    cases computed

end DeltaPatch

/-- A patch that is sent means the same where it is received, whatever the order in which its tables are
written: every operation on it has the same outcome. An update by the received patch of two versions, on
files of which `verify_unchanged` reports none, with accepted data for every chunk to fetch and a
deletion without an error, leaves the new version and changes nothing else. -/
theorem delta_wire (parser : JsonParser) (floatText : JsonNumber → List Char)
    (reread : JsonNumber → JsonNumber) (reads : ReadsBack floatText 127 reread parser.read)
    (layouts : PatchLayouts) (patch : DeltaPatch) :
    ∃ received, DeltaPatch.deserialise parser (patch.serialise layouts) = .ok received ∧
      received.SameAs patch ∧
      ∀ (sha256 : List UInt8 → List UInt8) (old new : Manifest), old.Counted → new.Counted →
        DeltaPatch.compute old new = .ok patch →
        received.Partitions old new ∧
        ∀ (app : PatchApplicator) (layout : Layout UInt32 Unit)
          (readFault : String → Option IoError) (removeFault : String → Option RemoveFault)
          (fetched : UInt32 → List UInt8) (count : Nat) (disk final : Disk),
          app.verifyUnchanged sha256 layout received new readFault disk = .ok (.ok []) →
          (∀ i ∈ received.chunksToFetch, received.verifyChunk sha256 i (fetched i) = .ok ()) →
          app.deleteStaleChunks received removeFault
            (app.storeFetched fetched received.chunksToFetch disk) = (final, .ok count) →
          app.Updated sha256 received old new disk final := by
  have same := patch.asRead_sameAs layouts
  refine ⟨patch.asRead layouts, patch.deserialise_serialise reads layouts, same, ?_⟩
  intro sha256 old new oldCounted newCounted computed
  have describes := same.describes (DeltaPatch.describes_of_compute oldCounted newCounted computed)
  refine ⟨describes.partitions newCounted, ?_⟩
  intro app layout readFault removeFault fetched count disk final intact accepted deleted
  exact describes.update newCounted intact accepted deleted

/-! ### A patch on its way -/

/-- A table of one shard that yields its entries backwards. -/
def backwards (V : Type) : Layout UInt32 V where
  shardCount := 1
  shardOf _ := 0
  shardOf_lt _ := Nat.one_pos
  order := List.reverse
  order_perm := List.reverse_perm

def samplePatchLayouts : PatchLayouts where
  unchanged := backwards Unit
  changed := backwards String
  deleted := backwards Unit

/-- A version of the sample file with six chunks of one byte. -/
def olderBytes : List UInt8 := [1, 2, 3, 3, 1, 2]

/-- The version behind it: two chunks have changed and the last two are gone. -/
def newerBytes : List UInt8 := [3, 1, 3, 3]

def olderManifest : Manifest := Manifest.built Manifest.sampleDigest "m" "0" olderBytes 1

def newerManifest : Manifest := Manifest.built Manifest.sampleDigest "m" "1" newerBytes 1

theorem olderBytes_measurable : Manifest.Measurable olderBytes 1 :=
  ⟨by decide, by decide, by decide⟩

theorem newerBytes_measurable : Manifest.Measurable newerBytes 1 :=
  ⟨by decide, by decide, by decide⟩

/-- The chunk files of a node that has the older version. -/
def olderFiles : Disk :=
  sampleApplicator.storeFetched (fun i => piece olderBytes 1 i.toNat) [0, 1, 2, 3, 4, 5]
    fun _ => none

theorem olderFiles_verify :
    sampleApplicator.Verifies Manifest.sampleDigest olderManifest olderFiles := by
  intro i below
  have listed : i ∈ [0, 1, 2, 3, 4, 5] := by
    have counted : olderManifest.chunkCount = 6 := by decide
    rw [counted, UInt32.lt_iff_toNat_lt] at below
    simp only [List.mem_cons, List.not_mem_nil, or_false, ← UInt32.toNat_inj]
    change i.toNat < 6 at below
    change i.toNat = 0 ∨ i.toNat = 1 ∨ i.toNat = 2 ∨ i.toNat = 3 ∨ i.toNat = 4 ∨ i.toNat = 5
    omega
  exact ⟨_, (PatchApplicator.storeFetched_eq _ _ _).1 i listed,
    (Manifest.verifyChunk_built_iff olderBytes_measurable below).mpr rfl⟩

/-- A patch with two entries in each of its tables, which are written backwards: the received one
updates the files of the older version to those of the newer one. -/
theorem delta_wire_sample :
    ∃ patch received, DeltaPatch.compute olderManifest newerManifest = .ok patch ∧
      patch.changed.keys = [0, 1] ∧ patch.unchanged.keys = [2, 3] ∧ patch.deleted.keys = [4, 5] ∧
      DeltaPatch.deserialise sampleJsonParser (patch.serialise samplePatchLayouts) =
        .ok received ∧
      received.chunksToFetch = patch.chunksToFetch ∧
      received.Partitions olderManifest newerManifest ∧
      ∃ final count,
        sampleApplicator.deleteStaleChunks received (fun _ => none)
          (sampleApplicator.storeFetched (fun i => piece newerBytes 1 i.toNat)
            received.chunksToFetch olderFiles) = (final, .ok count) ∧
        sampleApplicator.Updated Manifest.sampleDigest received olderManifest newerManifest
          olderFiles final := by
  have oldCounted : olderManifest.Counted :=
    (Manifest.wellFormed_built Manifest.sampleDigest "m" "0" olderBytes_measurable).hashes
  have newCounted : newerManifest.Counted :=
    (Manifest.wellFormed_built Manifest.sampleDigest "m" "1" newerBytes_measurable).hashes
  have sameFile : olderManifest.fileId = newerManifest.fileId := rfl
  rcases DeltaPatch.compute_describes sameFile oldCounted newCounted with
    ⟨patch, computed, describes⟩
  have tables : (DeltaPatch.compute olderManifest newerManifest).map
      (fun patch => (patch.changed.keys, patch.unchanged.keys, patch.deleted.keys)) =
      .ok ([0, 1], [2, 3], [4, 5]) := by
    decide +kernel
  rw [computed] at tables
  have keys := Except.ok.inj tables
  simp only [Prod.mk.injEq] at keys
  rcases delta_wire sampleJsonParser sampleFloatText sampleReread sampleJsonParser_readsBack
    samplePatchLayouts patch with ⟨received, arrives, same, updates⟩
  rcases updates Manifest.sampleDigest olderManifest newerManifest oldCounted newCounted computed with
    ⟨partitions, update⟩
  have describes := same.describes describes
  have intact : sampleApplicator.verifyUnchanged Manifest.sampleDigest (backwards Unit) received
      newerManifest (fun _ => none) olderFiles = .ok (.ok []) :=
    describes.intact_of_old newCounted olderFiles_verify
  have accepted : ∀ i ∈ received.chunksToFetch,
      received.verifyChunk Manifest.sampleDigest i (piece newerBytes 1 i.toNat) = .ok () := by
    intro i fetch
    rw [DeltaPatch.mem_chunksToFetch, describes.mem_changed newCounted] at fetch
    rw [DeltaPatch.verifyChunk_eq_ok_iff, describes.changed]
    exact ⟨fetch.1, fetch.2, Manifest.verifyChunk_eq_ok_iff.mp
      ((Manifest.verifyChunk_built_iff newerBytes_measurable fetch.1).mpr rfl)⟩
  have returns : ∃ count, (sampleApplicator.deleteStaleChunks received (fun _ => none)
      (sampleApplicator.storeFetched (fun i => piece newerBytes 1 i.toNat)
        received.chunksToFetch olderFiles)).2 = .ok count :=
    PatchApplicator.deleteFrom_returns (fun _ _ => rfl) 0 _
  rcases returns with ⟨count, deleted⟩
  exact ⟨patch, received, computed, keys.1, keys.2.1, keys.2.2, arrives, same.fetch, partitions, _,
    count, Prod.ext rfl deleted, update sampleApplicator (backwards Unit) (fun _ => none)
      (fun _ => none) (fun i => piece newerBytes 1 i.toNat) count olderFiles _ intact accepted
      (Prod.ext rfl deleted)⟩

end ModelDistribution
