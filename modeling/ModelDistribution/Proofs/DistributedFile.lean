/-
Module: ModelDistribution.Proofs.DistributedFile
Layer: Proofs
Purpose: What a finished node has. Its chunk files join to the file that the client built the manifest
  from, unless one of them is a collision of the digest with the chunk that it stands for; and so any
  two nodes that have a chunk agree on it. No property of the digest is assumed.
Imports: ModelDistribution.Proofs.TruthfulPeers
Trusted boundary: none
Main exports: Collision, Member.joined, chunk_or_collision, distributed_file
-/
import ModelDistribution.Proofs.TruthfulPeers

namespace ModelDistribution

open Foundation

/-- Two different byte strings of one length with one digest. -/
structure Collision (sha256 : List UInt8 → List UInt8) (xs ys : List UInt8) : Prop where
  different : xs ≠ ys
  length_eq : xs.length = ys.length
  digest_eq : sha256 xs = sha256 ys

/-- The chunk files of a node in the order of the chunks, joined. -/
def Member.joined (deployment : Deployment) (member : Member) : List UInt8 :=
  (List.range deployment.manifest.chunkCount.toNat).flatMap fun i =>
    (member.process.download.disk ((member.config deployment).path (UInt32.ofNat i))).getD []

section Built

variable {sha256 : List UInt8 → List UInt8} {fileId version : String} {data : List UInt8}
  {chunkSize : UInt64}

/-- A verified chunk of a built manifest is the piece of the file, or collides with it. -/
theorem Manifest.Measurable.chunk_or_collision (measurable : Measurable data chunkSize)
    {profile : Profile} {i : UInt32} {bytes : List UInt8}
    (below : i < (built sha256 fileId version data chunkSize).chunkCount)
    (verified : (built sha256 fileId version data chunkSize).ChunkVerified profile sha256 i bytes) :
    bytes = piece data chunkSize.toNat i.toNat ∨
      Collision sha256 bytes (piece data chunkSize.toNat i.toNat) := by
  by_cases same : bytes = piece data chunkSize.toNat i.toNat
  · exact .inl same
  · right
    have hashed := (verifyChunk_built_iff measurable below).mp
      (verifyChunk_eq_ok_iff.mpr verified.hash)
    rcases verified.range with ⟨start, stop, range, length⟩
    have sliced := sliceList_range_eq_piece measurable below range
    refine ⟨same, ?_, hexEncode_injective hashed⟩
    rw [length]
    exact (length_of_sliceList sliced).symm

end Built

section Nodes

variable {deployment : Deployment} {fileId version : String} {data : List UInt8}
  {chunkSize : UInt64} {nodeId : String} {member : Member}

/-- The file of a chunk that a node has is the piece, or collides with it. -/
theorem MemberInvariant.chunk_or_collision (sound : MemberInvariant deployment nodeId member)
    (measurable : Manifest.Measurable data chunkSize)
    (manifest : deployment.manifest =
      .built deployment.platform.sha256 fileId version data chunkSize) {i : UInt32}
    (set : member.process.download.bitmap.has i = .ok true) :
    ∃ bytes, member.process.download.disk ((member.config deployment).path i) = some bytes ∧
      (bytes = piece data chunkSize.toNat i.toNat ∨
        Collision deployment.platform.sha256 bytes (piece data chunkSize.toNat i.toNat)) := by
  have wellFormed : deployment.manifest.WellFormed :=
    manifest ▸ Manifest.wellFormed_built _ fileId version measurable
  have below : i < deployment.manifest.chunkCount :=
    sound.download.chunkCount ▸ ChunkBitmap.has_lt set
  rcases sound.download.verifiedFile wellFormed set with ⟨bytes, stored, verified⟩
  refine ⟨bytes, stored, ?_⟩
  have verified' : deployment.manifest.ChunkVerified deployment.platform.profile
      deployment.platform.sha256 i bytes := verified
  rw [manifest] at below verified'
  exact measurable.chunk_or_collision below verified'

/-- The chunk files of a node with all chunks join to the file, or one of them is a collision. -/
theorem MemberInvariant.joined_or_collision (sound : MemberInvariant deployment nodeId member)
    (measurable : Manifest.Measurable data chunkSize)
    (manifest : deployment.manifest =
      .built deployment.platform.sha256 fileId version data chunkSize)
    (complete : member.process.download.bitmap.isComplete = true) :
    member.joined deployment = data ∨
      ∃ i < deployment.manifest.chunkCount, ∃ bytes,
        member.process.download.disk ((member.config deployment).path i) = some bytes ∧
        Collision deployment.platform.sha256 bytes (piece data chunkSize.toNat i.toNat) := by
  have stored : ∀ i < deployment.manifest.chunkCount, ∃ bytes,
      member.process.download.disk ((member.config deployment).path i) = some bytes ∧
        (bytes = piece data chunkSize.toNat i.toNat ∨
          Collision deployment.platform.sha256 bytes (piece data chunkSize.toNat i.toNat)) := by
    intro i below
    have below' : i < member.process.download.bitmap.chunkCount :=
      sound.download.chunkCount.symm ▸ below
    exact sound.chunk_or_collision measurable manifest (ChunkBitmap.isComplete_iff.mp complete i below')
  by_cases collides : ∃ i < deployment.manifest.chunkCount, ∃ bytes,
      member.process.download.disk ((member.config deployment).path i) = some bytes ∧
        Collision deployment.platform.sha256 bytes (piece data chunkSize.toNat i.toNat)
  · exact .inr collides
  · left
    have count : deployment.manifest.chunkCount.toNat = ceilDiv data.length chunkSize.toNat := by
      rw [manifest]
      exact measurable.toNat_chunkCount
    have pieces : ∀ i ∈ List.range (ceilDiv data.length chunkSize.toNat),
        (member.process.download.disk
          ((member.config deployment).path (UInt32.ofNat i))).getD [] =
            piece data chunkSize.toNat i := by
      intro i mem
      have inside := List.mem_range.mp mem
      have index : (UInt32.ofNat i).toNat = i :=
        UInt32.toNat_ofNat_of_lt (Nat.lt_trans inside measurable.few)
      have below : UInt32.ofNat i < deployment.manifest.chunkCount := by
        apply UInt32.lt_iff_toNat_lt.mpr
        rw [index, count]
        exact inside
      rcases stored _ below with ⟨bytes, file, same | collision⟩
      · rw [file, Option.getD_some, same, index]
      · exact absurd ⟨_, below, bytes, file, collision⟩ collides
    rw [Member.joined, count, List.flatMap_congr pieces]
    exact flatMap_all_pieces data measurable.size_pos

end Nodes

/-- A job is created with the manifest that `build` makes of a file. In every run of its cluster,
whatever tracker answers and peers send, the chunk files of a node whose download has returned join to
exactly that file, or one of them is a collision of the digest with the chunk it stands for; and any
two nodes that have a chunk have the same file of it, or one of theirs is such a collision. -/
theorem distributed_file (deployment : Deployment) (profile : Profile) (fileId version : String)
    (data : List UInt8) (chunkSize : UInt64) (positive : 1 ≤ chunkSize.toNat)
    (fits : data.length + chunkSize.toNat - 1 < 2 ^ 64)
    (few : ceilDiv data.length chunkSize.toNat < 2 ^ 32)
    (built : Manifest.build profile deployment.platform.sha256 fileId version data chunkSize =
      .ok (.ok deployment.manifest)) (policy : SchedulingPolicy) (tracker : Tracker)
    (events : List ClusterEvent) (final : Cluster)
    (ran : runEvents (Cluster.step deployment) (.start deployment policy tracker) events =
      some final) :
    (∀ nodeId member, final.members nodeId = some member →
      member.process.download.loop = .returned →
      member.joined deployment = data ∨
        ∃ i < deployment.manifest.chunkCount, ∃ bytes,
          member.process.download.disk ((member.config deployment).path i) = some bytes ∧
          Collision deployment.platform.sha256 bytes (piece data chunkSize.toNat i.toNat)) ∧
    ∀ nodeId member nodeId' member' i, final.members nodeId = some member →
      final.members nodeId' = some member' →
      member.process.download.bitmap.has i = .ok true →
      member'.process.download.bitmap.has i = .ok true →
      ∃ bytes bytes',
        member.process.download.disk ((member.config deployment).path i) = some bytes ∧
        member'.process.download.disk ((member'.config deployment).path i) = some bytes' ∧
        (bytes = bytes' ∨
          Collision deployment.platform.sha256 bytes (piece data chunkSize.toNat i.toNat) ∨
          Collision deployment.platform.sha256 bytes' (piece data chunkSize.toNat i.toNat)) := by
  have measurable : Manifest.Measurable data chunkSize := ⟨positive, fits, few⟩
  rcases (Manifest.build_eq_ok_iff measurable).mp built with ⟨_, manifest⟩
  have inv : ClusterInvariant deployment final := cluster_invariant ran
  constructor
  · intro nodeId member found returned
    have sound := inv.members nodeId member found
    exact sound.joined_or_collision measurable manifest (sound.download.done returned)
  · intro nodeId member nodeId' member' i found found' set set'
    have sound := inv.members nodeId member found
    have sound' := inv.members nodeId' member' found'
    rcases sound.chunk_or_collision measurable manifest set with ⟨bytes, stored, same | broken⟩
    · rcases sound'.chunk_or_collision measurable manifest set' with
        ⟨bytes', stored', same' | broken'⟩
      · exact ⟨bytes, bytes', stored, stored', .inl (same.trans same'.symm)⟩
      · exact ⟨bytes, bytes', stored, stored', .inr (.inr broken')⟩
    · rcases sound'.chunk_or_collision measurable manifest set' with ⟨bytes', stored', _⟩
      exact ⟨bytes, bytes', stored, stored', .inr (.inl broken)⟩

/-! ### The sample file -/

/-- The node of the sample downloads both chunks and returns. -/
def sampleCompletion : List ClusterEvent :=
  .join sampleNode (fun _ => none) :: sampleDownload.map fun event => .member "n" (.download event)

theorem sampleCompletion_returns :
    ((runEvents (Cluster.step sampleDeployment) (.start sampleDeployment .rarityFirst .new)
        sampleCompletion).bind fun cluster =>
      (cluster.members "n").map fun member => member.process.download.loop) = some .returned := by
  decide +kernel

/-- The files of the sample node join to the sample file, whose digest has no collisions. -/
theorem distributed_file_sample :
    ∃ final member, runEvents (Cluster.step sampleDeployment)
        (.start sampleDeployment .rarityFirst .new) sampleCompletion = some final ∧
      final.members "n" = some member ∧ member.joined sampleDeployment = [1, 2, 3] := by
  rcases Option.bind_eq_some_iff.mp sampleCompletion_returns with ⟨final, ran, rest⟩
  rcases Option.map_eq_some_iff.mp rest with ⟨member, found, returned⟩
  have built : Manifest.build .debug Manifest.sampleDigest "m" "1" [1, 2, 3] 2 =
      .ok (.ok sampleManifest) :=
    Manifest.build_eq_built ⟨by decide, by decide, by decide⟩ (.inl (by decide))
  have file := (distributed_file sampleDeployment .debug "m" "1" [1, 2, 3] 2 (by decide) (by decide)
    (by decide) built .rarityFirst .new sampleCompletion final ran).1 "n" member found returned
  refine ⟨final, member, ran, found, ?_⟩
  rcases file with joined | ⟨i, below, bytes, stored, collision⟩
  · exact joined
  · exact absurd (Manifest.sampleDigest_injective _ _ collision.digest_eq) collision.different

end ModelDistribution
