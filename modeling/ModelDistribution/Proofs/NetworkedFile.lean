/-
Module: ModelDistribution.Proofs.NetworkedFile
Layer: Proofs
Purpose: What the refinement says of the nodes of the system with connections: where their chunks come
  from, and what their files hold.
Imports: ModelDistribution.Proofs.DistributedFile, ModelDistribution.Proofs.NetworkRefinement
Trusted boundary: none
Main exports: Network.Announced, Network.Coupled.announced, network_distributes_file
-/
import ModelDistribution.Proofs.DistributedFile
import ModelDistribution.Proofs.NetworkRefinement

namespace ModelDistribution

open Foundation

/-- A report that was read from the connection of another client carries the chunk. -/
def Network.Announced (codecs : Codecs) (deployment : Deployment) (network : Network) (i : UInt32) :
    Prop :=
  ∃ report, network.HeardOutside codecs deployment.jobId report ∧
    (ChunkBitmap.fromBytes report.bitmapBytes deployment.manifest.chunkCount).has i = .ok true

/-- What the swarm has been told from outside was announced over a connection of another client. -/
theorem Network.Coupled.announced {deployment : Deployment} {codecs : Codecs} {network : Network}
    {past : List SwarmEvent} {swarm : Swarm} (coupled : network.Coupled deployment codecs past swarm)
    {i : UInt32} (credited : Credited deployment past i) : network.Announced codecs deployment i := by
  rcases credited with ⟨_, _, event, mem, report, outside, _, _, carried⟩
  exact ⟨report, coupled.told event mem report outside, carried⟩

/-- The distribution of a file over connections. The job of a built manifest is created; whatever the
interleaving of the tracker's tasks, the cuts and breaks of the connections, the bytes of other clients
and what peers send, a chunk that a node has was announced over a connection of another client, and
its file is the chunk or a collision of the digest with it; and the chunk files of a node whose
download has returned join to exactly the file, or one of them is such a collision. The job is complete
only when every chunk was announced so. -/
theorem network_distributes_file (debugText : Response → String) (parser : JsonParser)
    (floatText : JsonNumber → List Char) (reread : JsonNumber → JsonNumber)
    (reads : ReadsBack floatText 127 reread parser.read) (deployment : Deployment)
    (profile : Profile) (fileId version : String) (data : List UInt8) (chunkSize : UInt64)
    (positive : 1 ≤ chunkSize.toNat) (fits : data.length + chunkSize.toNat - 1 < 2 ^ 64)
    (few : ceilDiv data.length chunkSize.toNat < 2 ^ 32)
    (built : Manifest.build profile deployment.platform.sha256 fileId version data chunkSize =
      .ok (.ok deployment.manifest))
    (policy : SchedulingPolicy) (tracker : Tracker) (before : List ListenerEvent)
    (listener : Listener)
    (ranBefore : runEvents (Listener.step deployment.server (parser.codecs floatText)) .start before =
      some listener)
    (created : listener.tracker =
      (tracker.createJob deployment.jobId deployment.manifest policy).2)
    (events : List NetworkEvent) (final : Network)
    (ran : runEvents (Network.step debugText (parser.codecs floatText) deployment) (.start listener)
      events = some final)
    (headers : final.TrueHeaders deployment floatText) :
    (∀ nodeId member, final.members nodeId = some member →
      (∀ i, member.process.download.bitmap.has i = .ok true →
        final.Announced (parser.codecs floatText) deployment i ∧
        ∃ bytes, member.process.download.disk ((member.config deployment).path i) = some bytes ∧
          (bytes = piece data chunkSize.toNat i.toNat ∨
            Collision deployment.platform.sha256 bytes (piece data chunkSize.toNat i.toNat))) ∧
      (member.process.download.loop = .returned →
        member.joined deployment = data ∨
          ∃ i < deployment.manifest.chunkCount, ∃ bytes,
            member.process.download.disk ((member.config deployment).path i) = some bytes ∧
            Collision deployment.platform.sha256 bytes (piece data chunkSize.toNat i.toNat))) ∧
    ∀ job, final.listener.tracker.jobs.get? deployment.jobId = some job → job.status = .complete →
      ∀ i < deployment.manifest.chunkCount,
        final.Announced (parser.codecs floatText) deployment i := by
  have measurable : Manifest.Measurable data chunkSize := ⟨positive, fits, few⟩
  rcases (Manifest.build_eq_ok_iff measurable).mp built with ⟨_, manifest⟩
  rcases Network.coupled_of_run reads (linear_of_run ranBefore) created ran headers with
    ⟨swarmEvents, swarm, behind, coupled⟩
  have inv : SwarmInvariant deployment swarmEvents swarm := swarm_invariant behind
  constructor
  · intro nodeId member found
    have known : swarm.cluster.members nodeId = some member := by
      rw [coupled.cluster]
      exact found
    have sound := inv.members nodeId member known
    constructor
    · intro i set
      have credited := (inv.seeded nodeId member known).bits i set
      exact ⟨coupled.announced credited, sound.chunk_or_collision measurable manifest set⟩
    · intro returned
      exact sound.joined_or_collision measurable manifest (sound.download.done returned)
  · intro job stored complete i below
    rcases inv.job with ⟨job', stored', sourced⟩
    rw [coupled.cluster] at stored'
    cases Option.some.inj (stored'.symm.trans stored)
    exact coupled.announced (sourced.status complete i below)

/-- The first chunk that the sample node gets is that of the file, and another client has announced it.
-/
theorem network_distributes_file_sample : ∃ created events final member,
    runEvents (Network.step noDebugText sampleCodecs sampleNetwork) (.start created) events =
      some final ∧
    final.members "n" = some member ∧ member.process.download.bitmap.has 0 = .ok true ∧
    final.Announced sampleCodecs sampleNetwork 0 ∧
    member.process.download.disk ((member.config sampleNetwork).path 0) = some [1, 2] := by
  rcases sampleNetwork_runs with
    ⟨before, created, events, final, process, ranBefore, tracker, ran, only, _, marked, headers⟩
  have built : Manifest.build .debug Manifest.sampleDigest "m" "1" [1, 2, 3] 2 =
      .ok (.ok sampleManifest) :=
    Manifest.build_eq_built ⟨by decide, by decide, by decide⟩ (.inl (by decide))
  rcases ((network_distributes_file noDebugText sampleJsonParser sampleFloatText sampleReread
    sampleJsonParser_readsBack sampleNetwork .debug "m" "1" [1, 2, 3] 2 (by decide) (by decide)
    (by decide) built .rarityFirst .new before created ranBefore tracker events final ran headers).1
    "n" _ only.1).1 0 marked with ⟨announced, bytes, stored, same | collision⟩
  · have first : bytes = [1, 2] := same
    rw [first] at stored
    exact ⟨created, events, final, _, ran, only.1, marked, announced, stored⟩
  · have digests : Manifest.sampleDigest bytes = Manifest.sampleDigest (piece [1, 2, 3] 2 0) :=
      collision.digest_eq
    exact absurd (Manifest.sampleDigest_injective _ _ digests) collision.different

end ModelDistribution
