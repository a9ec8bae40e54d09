/-
Module: ModelDistribution.Proofs.AnsweredPeers
Layer: Proofs
Purpose: What an answer of the tracker is worth when it arrives. A node that is named in it for a
  chunk, if its chunk server could bind its address and still runs, serves the verified chunk to any
  node of the job, however late the answer is and whatever has happened since; only reports from
  outside can name others.
Imports: ModelDistribution.Proofs.ChunkOrigin, ModelDistribution.Proofs.ChunkTransfer
Trusted boundary: none
Main exports: ChunkServer.Delivers, WellFormed.length_le, answered_peers_deliver
-/
import ModelDistribution.Proofs.ChunkOrigin
import ModelDistribution.Proofs.ChunkTransfer

namespace ModelDistribution

open Foundation

/-- A verified chunk is at most as long as the chunk size. -/
theorem Manifest.WellFormed.length_le {manifest : Manifest} (wellFormed : manifest.WellFormed)
    {profile : Profile} {sha256 : List UInt8 → List UInt8} {i : UInt32} {data : List UInt8}
    (below : i < manifest.chunkCount) (verified : manifest.ChunkVerified profile sha256 i data) :
    data.length ≤ manifest.chunkSize.toNat := by
  rcases verified.range with ⟨start, stop, range, length⟩
  rcases wellFormed.chunkRange_exact profile below with ⟨start', stop', exact', startEq, stopEq⟩
  rw [exact'] at range
  cases range
  rw [length, startEq, stopEq, Nat.add_mul]
  omega

/-- Every node of the job that asks the server for the chunk over a reliable connection, however that
cuts the bytes, succeeds, and has the bit and a verified file of the chunk afterwards. -/
def ChunkServer.Delivers (server : ChunkServer) (deployment : Deployment) (peer : PeerInfo)
    (i : UInt32) : Prop :=
  ∀ cfg : DownloaderConfig, cfg.manifest = deployment.manifest →
    (jobIdBytes cfg.jobId).length < 2 ^ 32 →
    ∀ (toServer toClient : Wire IoError) (store : NodeStore cfg.manifest), ∃ after,
      transfer deployment.platform cfg server peer toServer toClient i store =
        .ok (after, .ok ()) ∧
      after.bitmap.has i = .ok true ∧ VerifiedFile deployment.platform cfg after.disk i

theorem readServed_of_fits {disk : String → Option (List UInt8)} {path : String}
    {data : List UInt8} (stored : disk path = some data) (fits : data.length < 2 ^ 63) :
    readServed disk path = .ok ⟨data, fits⟩ := by
  unfold readServed
  rw [stored]
  exact dif_pos fits

theorem readServed_eq_ok {disk : String → Option (List UInt8)} {path : String} {file : FileBuffer}
    (read : readServed disk path = .ok file) : disk path = some file.val := by
  unfold readServed at read
  split at read
  · cases read
  · rename_i stored
    split at read
    · cases read
      exact stored
    · cases read

/-- A server with the verified file of a chunk delivers it. -/
theorem ChunkServer.delivers_of_read {server : ChunkServer} {deployment : Deployment} {i : UInt32}
    (wellFormed : deployment.manifest.WellFormed) (below : i < deployment.manifest.chunkCount)
    (data : FileBuffer) (read : server.read (server.path i) = .ok data)
    (verified : deployment.manifest.ChunkVerified deployment.platform.profile
      deployment.platform.sha256 i data.val) (peer : PeerInfo) :
    server.Delivers deployment peer i := by
  intro cfg sameManifest short toServer toClient store
  have held : server.Holds deployment.platform cfg i data := ⟨read, sameManifest ▸ verified⟩
  rcases transfer_cases server peer toServer toClient (sameManifest ▸ wellFormed)
      (sameManifest ▸ below) short store with
    ⟨data', after, holds, transferred, disk, bits⟩ | ⟨none, _⟩
  · refine ⟨after, transferred, (bits i).mpr (.inr rfl), data'.val, ?_, holds.2⟩
    rw [disk, writeFile_same]
  · exact absurd held (none data)

/-- A node that has the bit of a chunk delivers it while its chunk server runs. -/
theorem delivers_of_bit {deployment : Deployment} (wellFormed : deployment.manifest.WellFormed)
    (readable : deployment.manifest.chunkSize.toNat < 2 ^ 63) {nodeId : String} {member : Member}
    (sound : MemberInvariant deployment nodeId member) {i : UInt32}
    (set : member.process.download.bitmap.has i = .ok true) {server : ChunkServer}
    (running : member.chunkServer deployment = some server) (peer : PeerInfo) :
    server.Delivers deployment peer i := by
  have below : i < deployment.manifest.chunkCount :=
    sound.download.chunkCount ▸ ChunkBitmap.has_lt set
  rcases sound.download.verifiedFile wellFormed set with ⟨data, stored, verified⟩
  have fits : data.length < 2 ^ 63 :=
    Nat.lt_of_le_of_lt (wellFormed.length_le below verified) readable
  unfold Member.chunkServer at running
  split at running
  · cases running
  · cases running
    exact ChunkServer.delivers_of_read wellFormed below ⟨data, fits⟩ (readServed_of_fits stored fits)
      verified peer

/-- In every run of a swarm, a peer that some answer of the tracker names for a chunk was named by a
report from outside, or is a started node, under its own address, that has the chunk; while its
process runs, its chunk server, where it could bind the address, delivers the chunk to every node of the
job. The answer may have been given at any earlier time. -/
theorem answered_peers_deliver (debugText : Response → String) (deployment : Deployment)
    (wellFormed : deployment.manifest.WellFormed)
    (readable : deployment.manifest.chunkSize.toNat < 2 ^ 63) (policy : SchedulingPolicy)
    (tracker : Tracker) (events : List SwarmEvent) (final : Swarm)
    (ran : runEvents (Swarm.step debugText deployment) (.start deployment policy tracker) events =
      some final) :
    ∀ answer ∈ final.answers, ∀ peer ∈ answer.peers,
      Outsider deployment events peer.nodeId peer.peerAddr answer.chunk ∨
      ∃ member, final.cluster.members peer.nodeId = some member ∧
        member.node.config.peerAddr = peer.peerAddr ∧
        VerifiedFile deployment.platform (member.config deployment) member.process.download.disk
          answer.chunk ∧
        ∀ server, member.chunkServer deployment = some server →
          server.Delivers deployment peer answer.chunk := by
  intro answer given peer named
  have inv : SwarmInvariant deployment events final := swarm_invariant ran
  rcases inv.answers answer given peer named with told | ⟨member, found, address, set⟩
  · exact .inl told
  · have sound := inv.members peer.nodeId member found
    refine .inr ⟨member, found, address, sound.download.verifiedFile wellFormed set, ?_⟩
    intro server running
    exact delivers_of_bit wellFormed readable sound set running peer

/-! ### A second node -/

/-- Another node of the sample job, in another rack. -/
def sampleLateNode : PeerNode where
  nodeId := "m"
  config :=
    { trackerAddr := "t", peerAddr := "c", rackId := "q", jobId := "j", dataDir := "e",
      concurrency := 2 }

/-- Behind the sample fetch a second node joins and asks for the same chunk. -/
def sampleLateQuery : List SwarmEvent :=
  sampleSeed :: sampleFetch ++ .join sampleLateNode (fun _ => none) ::
    List.replicate 6 (.member "m" (.download .loop)) ++ [.query "m" 0 0 "w"]

/-- The first node as the tracker names it. -/
def samplePeer : PeerInfo where
  nodeId := "n"
  peerAddr := "a"
  rackId := "r"
  uploadBwMbps := 8000

theorem sampleLateQuery_names :
    ((runEvents (Swarm.step noDebugText sampleDeployment)
        (.start sampleDeployment .topologyAware .new) sampleLateQuery).bind fun swarm =>
      (swarm.cluster.members "n").map fun member =>
        (member.chunkServer sampleDeployment).isSome && swarm.answers.any fun answer =>
          answer.chunk == 0 && answer.nodeId == "m" && answer.peers.contains samplePeer) =
      some true := by
  decide +kernel

/-- The second node is told of the first, which no event from outside has named, and the chunk server
of the first delivers. -/
theorem answered_peers_deliver_sample :
    ∃ final member server, runEvents (Swarm.step noDebugText sampleDeployment)
        (.start sampleDeployment .topologyAware .new) sampleLateQuery = some final ∧
      (∃ answer ∈ final.answers, answer.nodeId = "m" ∧ samplePeer ∈ answer.peers) ∧
      final.cluster.members "n" = some member ∧
      member.chunkServer sampleDeployment = some server ∧
      server.Delivers sampleDeployment samplePeer 0 := by
  rcases Option.bind_eq_some_iff.mp sampleLateQuery_names with ⟨final, ran, rest⟩
  rcases Option.map_eq_some_iff.mp rest with ⟨holder, known, both⟩
  rw [Bool.and_eq_true] at both
  rcases Option.isSome_iff_exists.mp both.1 with ⟨server, running⟩
  rcases List.any_eq_true.mp both.2 with ⟨answer, given, matching⟩
  simp only [Bool.and_eq_true, beq_iff_eq, List.contains_iff_mem] at matching
  rcases matching with ⟨⟨first, asked⟩, named⟩
  have delivered := answered_peers_deliver noDebugText sampleDeployment sampleManifest_wellFormed
    (by decide) .topologyAware .new sampleLateQuery final ran answer given samplePeer named
  rw [first] at delivered
  rcases delivered with ⟨event, mem, report, told, sameId, _⟩ | ⟨member, found, _, _, delivers⟩
  · -- The only report from outside is that of the seed, under another identifier.
    have onlySeed : ∀ event ∈ sampleLateQuery, ∀ report,
        event.outsideReport sampleDeployment.jobId = some report → report.nodeId = "s" := by
      simp [sampleLateQuery, sampleFetch, sampleSeed, SwarmEvent.outsideReport, Server.reportOf,
        sampleDeployment]
    have seed := onlySeed event mem report told
    rw [sameId] at seed
    exact absurd seed (by decide)
  · have same : member = holder := Option.some.inj (found.symm.trans known)
    subst same
    exact ⟨final, member, server, ran, ⟨answer, given, asked, named⟩, found, running,
      delivers server running⟩

end ModelDistribution
