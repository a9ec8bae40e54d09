/-
Module: ModelDistribution.Proofs.TruthfulPeers
Layer: Proofs
Purpose: The tracker never credits a node with a chunk it does not have. Bitmaps of a node only grow,
  so the bits of a heartbeat stay within its bitmap however late it arrives; with the integrity of
  the download, every peer that is named for a chunk has a verified file of it.
Imports: ModelDistribution.Cluster, ModelDistribution.Proofs.FinalHeartbeat,
  ModelDistribution.Proofs.TrackerInvariants
Trusted boundary: none
Main exports: EarlierBitmap, MemberInvariant, EntryTruthful, ClusterInvariant, cluster_invariant,
  HoldsChunk, peers_truthful
-/
import ModelDistribution.Cluster
import ModelDistribution.Proofs.FinalHeartbeat
import ModelDistribution.Proofs.TrackerInvariants

namespace ModelDistribution

open Foundation

/-- The bytes have a bit for every chunk and carry only bits of the bitmap, as those of its earlier
states do. -/
structure EarlierBitmap (chunkCount : UInt32) (bitmapBytes : List UInt8) (bitmap : ChunkBitmap) :
    Prop where
  full : (ChunkBitmap.fromBytes bitmapBytes chunkCount).Full
  within : ∀ i, (ChunkBitmap.fromBytes bitmapBytes chunkCount).has i = .ok true →
    bitmap.has i = .ok true

/-- What holds of a started node: it downloads for the job, and all its heartbeats carry earlier
states of its bitmap. -/
structure MemberInvariant (deployment : Deployment) (nodeId : String) (member : Member) :
    Prop where
  nodeId_eq : member.node.nodeId = nodeId
  jobId_eq : member.node.config.jobId = deployment.jobId
  download : DownloadInvariant deployment.platform (member.config deployment)
    member.process.download
  sent : ∀ bitmapBytes ∈ member.process.sent,
    EarlierBitmap deployment.manifest.chunkCount bitmapBytes member.process.download.bitmap
  sending : ∀ bitmapBytes, member.process.heartbeat = .sending bitmapBytes →
    EarlierBitmap deployment.manifest.chunkCount bitmapBytes member.process.download.bitmap

/-- What holds of an entry of the node table: it is about a started node, under its address, and
credits it only with bits of its bitmap. -/
structure EntryTruthful (members : String → Option Member) (nodeId : String)
    (state : NodeState) : Prop where
  nodeId_eq : state.nodeId = nodeId
  full : state.bitmap.Full
  known : ∃ member, members nodeId = some member ∧
    state.peerAddr = member.node.config.peerAddr ∧
    ∀ i, state.bitmap.has i = .ok true → member.process.download.bitmap.has i = .ok true

/-- The job keeps its manifest, and every entry of its node table is truthful. -/
structure JobTruthful (deployment : Deployment) (members : String → Option Member) (job : Job) :
    Prop where
  manifest_eq : job.manifest = deployment.manifest
  entries : ∀ nodeId state, (nodeId, state) ∈ job.nodes.entries →
    EntryTruthful members nodeId state

/-- What holds of the whole cluster. -/
structure ClusterInvariant (deployment : Deployment) (cluster : Cluster) : Prop where
  members : ∀ nodeId member, cluster.members nodeId = some member →
    MemberInvariant deployment nodeId member
  job : ∃ job, cluster.tracker.jobs.get? deployment.jobId = some job ∧
    JobTruthful deployment cluster.members job

/-! ### One node -/

section Node

variable {deployment : Deployment} {nodeId : String} {member : Member}

/-- An earlier state of a bitmap is an earlier state of what the bitmap grows to. -/
theorem EarlierBitmap.mono {chunkCount : UInt32} {bitmapBytes : List UInt8}
    {before after : ChunkBitmap} (earlier : EarlierBitmap chunkCount bitmapBytes before)
    (grows : ∀ i, before.has i = .ok true → after.has i = .ok true) :
    EarlierBitmap chunkCount bitmapBytes after where
  full := earlier.full
  within i carried := grows i (earlier.within i carried)

/-- The bytes of a full bitmap are an earlier state of it. -/
theorem earlierBitmap_asBytes {bitmap : ChunkBitmap} (full : bitmap.Full) :
    EarlierBitmap bitmap.chunkCount bitmap.asBytes bitmap where
  full := ChunkBitmap.full_fromBytes_asBytes full
  within i carried := by
    rw [← ChunkBitmap.has_fromBytes_asBytes full]
    exact carried

/-- A process keeps its bits. -/
theorem process_bits_kept {platform : Platform} {cfg : DownloaderConfig}
    {process next : NodeProcess} {event : NodeEvent}
    (inv : DownloadInvariant platform cfg process.download)
    (stepped : process.step platform cfg event = some next) :
    ∀ i, process.download.bitmap.has i = .ok true → next.download.bitmap.has i = .ok true := by
  intro i set
  rcases NodeProcess.step_effect stepped with ⟨_, effect⟩
  cases effect with
  | downloads downloaded => exact bits_kept inv downloaded set
  | _ => exact set

theorem member_start {node : PeerNode} {disk : String → Option (List UInt8)}
    {process : NodeProcess} (sameJob : node.config.jobId = deployment.jobId)
    (started : NodeProcess.start (node.downloaderConfig deployment.manifest) disk =
      some process) :
    MemberInvariant deployment node.nodeId { node, process } := by
  rcases Option.map_eq_some_iff.mp started with ⟨download, begun, rfl⟩
  refine ⟨rfl, sameJob, invariant_start begun, ?_, ?_⟩
  · intro bitmapBytes mem
    cases mem
  · intro bitmapBytes sending
    cases sending

/-- The bytes of a tick are the bitmap itself, and a step only adds bits. -/
theorem member_step {event : NodeEvent} {process : NodeProcess}
    (inv : MemberInvariant deployment nodeId member)
    (stepped : member.process.step deployment.platform (member.config deployment) event =
      some process) :
    MemberInvariant deployment nodeId { member with process } := by
  have grows := process_bits_kept inv.download stepped
  have download : DownloadInvariant deployment.platform (member.config deployment)
      process.download := process_invariant_step inv.download stepped
  refine ⟨inv.nodeId_eq, inv.jobId_eq, download, ?_, ?_⟩
  · intro bitmapBytes mem
    rcases NodeProcess.step_effect stepped with ⟨_, effect⟩
    cases effect with
    | sends sending =>
        rcases List.mem_append.mp mem with old | new
        · exact (inv.sent bitmapBytes old).mono grows
        · rw [List.mem_singleton.mp new]
          exact (inv.sending _ sending).mono grows
    | _ => exact (inv.sent bitmapBytes mem).mono grows
  · intro bitmapBytes sending
    rcases NodeProcess.step_effect stepped with ⟨_, effect⟩
    cases effect with
    | downloads _ => exact (inv.sending bitmapBytes sending).mono grows
    | ticks _ =>
        cases sending
        have snapshot := earlierBitmap_asBytes inv.download.full
        rw [inv.download.chunkCount] at snapshot
        exact snapshot
    | sends _ => cases sending
    | fails _ => cases sending

end Node

/-! ### The node table of the job -/

/-- What the heartbeat of a node reports. -/
def PeerNode.report (node : PeerNode) (bitmapBytes : List UInt8) : NodeReport where
  nodeId := node.nodeId
  rackId := node.config.rackId
  peerAddr := node.config.peerAddr
  bitmapBytes := bitmapBytes
  uploadBwMbps := 8000

theorem reportOf_heartbeat (node : PeerNode) (bitmapBytes : List UInt8) :
    Server.reportOf (node.heartbeat bitmapBytes) =
      some (node.config.jobId, node.report bitmapBytes) := rfl

section Table

variable {deployment : Deployment} {members members' : String → Option Member} {job : Job}

/-- An entry stays truthful while its node keeps its address and its bits. -/
theorem JobTruthful.mono (truthful : JobTruthful deployment members job)
    (later : ∀ nodeId member, members nodeId = some member →
      ∃ member', members' nodeId = some member' ∧
        member'.node.config.peerAddr = member.node.config.peerAddr ∧
        ∀ i, member.process.download.bitmap.has i = .ok true →
          member'.process.download.bitmap.has i = .ok true) :
    JobTruthful deployment members' job := by
  refine ⟨truthful.manifest_eq, ?_⟩
  intro nodeId state mem
  rcases truthful.entries nodeId state mem with ⟨sameId, full, member, found, address, within⟩
  rcases later nodeId member found with ⟨member', found', sameAddress, grows⟩
  exact ⟨sameId, full, member', found', address.trans sameAddress.symm,
    fun i stored => grows i (within i stored)⟩

/-- A heartbeat of a started node, however old, leaves a truthful table. -/
theorem JobTruthful.afterReport (truthful : JobTruthful deployment members job)
    {layout : Layout String NodeState} {nodeId : String} {member : Member}
    (found : members nodeId = some member) (inv : MemberInvariant deployment nodeId member)
    {bitmapBytes : List UInt8} (sent : bitmapBytes ∈ member.process.sent) (now : Nat)
    {report : NodeReport} (reported : Server.reportOf (member.node.heartbeat bitmapBytes) =
      some (deployment.jobId, report)) :
    JobTruthful deployment members (job.afterReport layout now report) := by
  have reportEq : member.node.report bitmapBytes = report := by
    rw [reportOf_heartbeat, Option.some.injEq, Prod.mk.injEq] at reported
    exact reported.2
  subst reportEq
  refine ⟨(Job.afterReport_manifest _ _ _).trans truthful.manifest_eq, ?_⟩
  intro other state mem
  rw [Job.afterReport_nodes, ShardedMap.mem_insert] at mem
  rcases mem with ⟨rfl, rfl⟩ | ⟨_, old⟩
  · rw [show (member.node.report bitmapBytes).nodeId = nodeId from inv.nodeId_eq]
    have earlier := inv.sent bitmapBytes sent
    rw [← truthful.manifest_eq] at earlier
    refine ⟨?_, earlier.full, member, found, rfl, earlier.within⟩
    · -- The entry is a new one, or keeps the identifier it has.
      show ((job.nodes.get? member.node.nodeId).getD _).nodeId = nodeId
      cases registered : job.nodes.get? member.node.nodeId with
      | none => exact inv.nodeId_eq
      | some entry =>
          have stored := ShardedMap.get?_eq_some_iff.mp registered
          exact (truthful.entries _ entry stored).nodeId_eq.trans inv.nodeId_eq
  · exact truthful.entries other state old

end Table

/-! ### The cluster -/

section Runs

variable {deployment : Deployment} {cluster next : Cluster}

theorem cluster_start (policy : SchedulingPolicy) (tracker : Tracker) :
    ClusterInvariant deployment (.start deployment policy tracker) where
  members := by
    intro nodeId member found
    cases found
  job := by
    refine ⟨.new deployment.jobId deployment.manifest policy, ?_, rfl, ?_⟩
    · rw [Cluster.start, Tracker.get?_createJob, if_pos rfl]
    · intro nodeId state mem
      cases mem

/-- Adding or replacing one member keeps the invariant when the member it replaces keeps its address
and its bits. -/
theorem cluster_setMember (inv : ClusterInvariant deployment cluster) {nodeId : String}
    {member : Member} (sound : MemberInvariant deployment nodeId member)
    (later : ∀ old, cluster.members nodeId = some old →
      member.node.config.peerAddr = old.node.config.peerAddr ∧
        ∀ i, old.process.download.bitmap.has i = .ok true →
          member.process.download.bitmap.has i = .ok true) :
    ClusterInvariant deployment (cluster.setMember nodeId member) where
  members := by
    intro other found hasFound
    rw [Cluster.setMember_members] at hasFound
    split at hasFound
    · rename_i same
      cases hasFound
      rw [same]
      exact sound
    · exact inv.members other found hasFound
  job := by
    rcases inv.job with ⟨job, stored, truthful⟩
    refine ⟨job, stored, truthful.mono ?_⟩
    intro other old found
    rw [Cluster.setMember_members]
    split
    · rename_i same
      rw [same] at found
      exact ⟨member, rfl, later old found⟩
    · exact ⟨old, found, rfl, fun _ set => set⟩

/-- One event of the tracker keeps the table of the job truthful, when its heartbeats for the job
do. -/
theorem tracker_step {event : TrackerEvent} (inv : ClusterInvariant deployment cluster)
    (created : ∀ now bytes policyText,
      event ≠ .request now deployment.jobId (.createJob bytes policyText))
    (reported : ∀ now freshId request report job, event = .request now freshId request →
      Server.reportOf request = some (deployment.jobId, report) →
      JobTruthful deployment cluster.members job → JobTruthful deployment cluster.members
        (job.afterReport (deployment.server.layouts.nodes deployment.jobId) now report)) :
    ClusterInvariant deployment
      { cluster with tracker := deployment.server.step cluster.tracker event } where
  members := inv.members
  job := by
    rcases inv.job with ⟨job, stored, truthful⟩
    have change := deployment.server.step_jobChange cluster.tracker event deployment.jobId
    generalize (deployment.server.step cluster.tracker event).jobs.get? deployment.jobId = after
      at change ⊢
    cases change with
    | created _ _ => exact absurd rfl (created _ _ _)
    | reported heartbeat found =>
        rw [stored] at found
        cases found
        exact ⟨_, rfl, reported _ _ _ _ _ rfl heartbeat truthful⟩
    | cancelled found =>
        rw [stored] at found
        cases found
        exact ⟨_, rfl, truthful.manifest_eq, truthful.entries⟩
    | evicted =>
        rw [stored]
        refine ⟨_, rfl, truthful.manifest_eq, ?_⟩
        intro nodeId state mem
        exact truthful.entries nodeId state (Job.mem_evictStale.mp mem).1
    | untouched _ _ _ => exact ⟨job, stored, truthful⟩

/-- One step keeps the invariant: one case for each effect. -/
theorem cluster_step (inv : ClusterInvariant deployment cluster) {event : ClusterEvent}
    (stepped : cluster.step deployment event = some next) : ClusterInvariant deployment next := by
  cases Cluster.step_effect stepped with
  | joins sameJob fresh started =>
      apply cluster_setMember inv (member_start sameJob started)
      intro old found
      rw [fresh] at found
      cases found
  | moves found moved =>
      have sound := inv.members _ _ found
      apply cluster_setMember inv (member_step sound moved)
      intro old found'
      rw [found] at found'
      cases found'
      exact ⟨rfl, process_bits_kept sound.download moved⟩
  | delivers now freshId found sent =>
      apply tracker_step inv
      · intro _ _ _ same
        cases same
      · intro _ _ _ report job same reported truthful
        cases same
        exact truthful.afterReport found (inv.members _ _ found) sent _ reported
  | tracks foreign =>
      apply tracker_step inv
      · rintro now bytes policyText rfl
        simp [TrackerEvent.isForeign] at foreign
      · intro now freshId request report job same reported
        subst same
        cases request with
        | heartbeat other nodeId rackId peerAddr bitmapBytes uploadBwMbps =>
            cases reported
            simp [TrackerEvent.isForeign] at foreign
        | _ => cases reported

/-- The invariant holds after every run. -/
theorem cluster_invariant {policy : SchedulingPolicy} {tracker : Tracker} {final : Cluster}
    {events : List ClusterEvent}
    (ran : runEvents (Cluster.step deployment) (.start deployment policy tracker) events =
      some final) : ClusterInvariant deployment final :=
  runEvents_invariant (ClusterInvariant deployment)
    (fun _ _ _ inv stepped => cluster_step inv stepped) (cluster_start policy tracker) ran

end Runs

/-- The node of the identifier is started under the address, has the bit of the chunk and a verified
file of it. -/
def HoldsChunk (deployment : Deployment) (cluster : Cluster) (nodeId peerAddr : String)
    (i : UInt32) : Prop :=
  ∃ member, cluster.members nodeId = some member ∧ member.node.config.peerAddr = peerAddr ∧
    member.process.download.bitmap.has i = .ok true ∧
    VerifiedFile deployment.platform (member.config deployment) member.process.download.disk i

/-- In every reachable state, what the tracker has stored of a node is true of the node, and so
`get_peers` returns, and every peer that it names for a chunk holds it. -/
theorem peers_truthful (deployment : Deployment) (wellFormed : deployment.manifest.WellFormed)
    (policy : SchedulingPolicy) (tracker : Tracker) (events : List ClusterEvent) (final : Cluster)
    (ran : runEvents (Cluster.step deployment) (.start deployment policy tracker) events =
      some final) :
    (∃ job, final.tracker.jobs.get? deployment.jobId = some job ∧
      ∀ nodeId state i, (nodeId, state) ∈ job.nodes.entries → state.bitmap.has i = .ok true →
        HoldsChunk deployment final nodeId state.peerAddr i) ∧
    ∀ requesterId requesterRack i topN, ∃ peers after,
      final.tracker.getPeers deployment.server.layouts deployment.jobId requesterId requesterRack i
        topN = .ok (.ok (peers, after)) ∧
      ∀ peer ∈ peers, HoldsChunk deployment final peer.nodeId peer.peerAddr i := by
  have inv : ClusterInvariant deployment final := cluster_invariant ran
  rcases inv.job with ⟨job, stored, truthful⟩
  have holds : ∀ nodeId state i, (nodeId, state) ∈ job.nodes.entries →
      state.bitmap.has i = .ok true → HoldsChunk deployment final nodeId state.peerAddr i := by
    intro nodeId state i mem credited
    rcases truthful.entries nodeId state mem with ⟨_, _, member, found, address, within⟩
    have set := within i credited
    exact ⟨member, found, address.symm, set,
      (inv.members nodeId member found).download.verifiedFile wellFormed set⟩
  refine ⟨⟨job, stored, holds⟩, ?_⟩
  intro requesterId requesterRack i topN
  rcases Tracker.schedule_returns (deployment.server.layouts.nodes deployment.jobId)
    (fun entry mem => (truthful.entries entry.1 entry.2 mem).full) requesterId requesterRack i
    topN with ⟨peers, selected⟩
  rcases final.tracker.getPeers_spec deployment.server.layouts deployment.jobId requesterId
      requesterRack i topN with ⟨absent, _⟩ | ⟨job', found, scheduled⟩
  · rw [stored] at absent
    cases absent
  · rw [stored] at found
    cases found
    rw [selected] at scheduled
    refine ⟨peers, _, scheduled, ?_⟩
    intro peer named
    rcases Tracker.holder_of_mem_schedule selected named with
      ⟨⟨nodeId, state⟩, mem, rfl, _, credited⟩
    have held := holds nodeId state i mem credited
    rw [← (truthful.entries nodeId state mem).nodeId_eq] at held
    exact held

/-! ### A concrete cluster -/

/-- The sample job with one node for it. -/
def sampleDeployment : Deployment where
  platform := samplePlatform
  server := sampleServer
  jobId := "j"
  manifest := sampleManifest

/-- A node with the configuration of the sample download. -/
def sampleNode : PeerNode where
  nodeId := "n"
  config :=
    { trackerAddr := "t", peerAddr := "a", rackId := "r", jobId := "j", dataDir := "d",
      concurrency := 2 }

/-- The node downloads its first chunk and reports it; the heartbeat arrives once before and once
after an eviction. -/
def sampleTraffic : List ClusterEvent :=
  .join sampleNode (fun _ => none) ::
    (sampleDownload.take 14).map (fun event => .member "n" (.download event)) ++
    [.member "n" .tick, .member "n" .heartbeatSent, .deliver "n" 0 0 "x",
      .tracker (.evict (10 ^ 12) 30), .deliver "n" 0 (10 ^ 12) "y"]

/-- The names and addresses that `get_peers` gives another node for the first chunk. -/
def sampleNamed (cluster : Cluster) : Option (List (String × String)) :=
  match cluster.tracker.getPeers sampleServer.layouts "j" "m" "s" 0 5 with
  | .ok (.ok (peers, _)) => some (peers.map fun peer => (peer.nodeId, peer.peerAddr))
  | _ => none

/-- Behind the sample traffic the node is named for its chunk, and holds it. -/
theorem peers_truthful_sample :
    ∃ final, runEvents (Cluster.step sampleDeployment)
        (.start sampleDeployment .topologyAware .new) sampleTraffic = some final ∧
      sampleNamed final = some [("n", "a")] ∧
      HoldsChunk sampleDeployment final "n" "a" 0 := by
  have outcome : (runEvents (Cluster.step sampleDeployment)
      (.start sampleDeployment .topologyAware .new) sampleTraffic).bind sampleNamed =
      some [("n", "a")] := by
    decide +kernel
  rcases Option.bind_eq_some_iff.mp outcome with ⟨final, ran, named⟩
  refine ⟨final, ran, named, ?_⟩
  rcases (peers_truthful sampleDeployment sampleManifest_wellFormed .topologyAware .new sampleTraffic
    final ran).2 "m" "s" 0 5 with ⟨peers, after, returned, held⟩
  have answer : sampleNamed final = some (peers.map fun peer => (peer.nodeId, peer.peerAddr)) := by
    unfold sampleNamed
    rw [show final.tracker.getPeers sampleServer.layouts "j" "m" "s" 0 5 =
      .ok (.ok (peers, after)) from returned]
  rw [named, Option.some.injEq] at answer
  rcases List.map_eq_singleton_iff.mp answer.symm with ⟨peer, rfl, same⟩
  rw [Prod.mk.injEq] at same
  rw [← same.1, ← same.2]
  exact held peer List.mem_cons_self

end ModelDistribution
