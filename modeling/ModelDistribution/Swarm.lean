/-
Module: ModelDistribution.Swarm
Layer: Model
Purpose: The nodes of one job around its tracker, with the candidates of every chunk task coming from
  that tracker. The tracker handles a task's query at some time and the answer reaches the task at any
  later time, or never. Heartbeats of the job that none of these nodes has sent, such as those of a
  seed of another kind, are events of their own; what a peer sends over a connection stays free.
Imports: ModelDistribution.Cluster, ModelDistribution.Peer.ChunkServer,
  ModelDistribution.Proto.Client
Trusted boundary: human-reviewed spec
Main exports: DownloaderConfig.peersQuery, Member.chunkServer, PeersAnswer, Swarm, SwarmEvent,
  Swarm.start, Swarm.step, SwarmEvent.outsideReport, Swarm.Effect, Swarm.step_effect,
  Swarm.isInternal, Swarm.ownStep

[src/peer/downloader.rs, src/peer/mod.rs, src/tracker/server.rs]
-/
import ModelDistribution.Cluster
import ModelDistribution.Peer.ChunkServer
import ModelDistribution.Proto.Client

namespace ModelDistribution

open Foundation

/-- The query of a chunk task: `get_peers_from_tracker` for up to five candidates. -/
def DownloaderConfig.peersQuery (cfg : DownloaderConfig) (chunk : UInt32) : Request :=
  .getPeers cfg.jobId cfg.nodeId cfg.rackId chunk 5

/-- What the chunk server of a node reads from its disk. -/
def readServed (disk : String → Option (List UInt8)) (path : String) : Except IoError FileBuffer :=
  match disk path with
  | none => .error ⟨.notFound, "No such file or directory (os error 2)"⟩
  | some data =>
      if fits : data.length < 2 ^ 63 then .ok ⟨data, fits⟩
      else .error ⟨.other, "memory allocation failed"⟩

/-- The chunk server that `run` spawns beside the download loop. There is none where its address cannot
be bound, and it ends with the process. -/
def Member.chunkServer (deployment : Deployment) (member : Member) : Option ChunkServer :=
  if member.process.download.loop = .returned ∨ deployment.binds member.node.nodeId = false then none
  else
    some {
      manifest := deployment.manifest
      dataDir := member.node.config.dataDir
      read := readServed member.process.download.disk }

/-- The candidates that the tracker has given to the query of a node for a chunk. -/
structure PeersAnswer where
  nodeId : String
  chunk : UInt32
  peers : List PeerInfo
deriving DecidableEq, Repr

/-- The tracker with the nodes, and every answer it has given to a query of theirs. -/
structure Swarm where
  cluster : Cluster
  answers : List PeersAnswer

/-- What happens next. -/
inductive SwarmEvent where
  /-- A node starts with the manifest of the job, which it is given; `fetch_manifest` is left out. -/
  | join (node : PeerNode) (disk : String → Option (List UInt8))
  /-- A step of a node's process other than taking candidates. -/
  | member (nodeId : String) (event : NodeEvent)
  /-- The tracker handles the query of the task at the position. -/
  | query (nodeId : String) (k : Nat) (now : Nat) (freshId : String)
  /-- The answer at position `j` reaches the task at position `k`. -/
  | answer (nodeId : String) (k j : Nat)
  | deliver (nodeId : String) (k : Nat) (now : Nat) (freshId : String)
  /-- Whatever else reaches the tracker. -/
  | outside (event : TrackerEvent)

/-- A step in which no task takes candidates; a failed query is such a step. -/
def NodeEvent.takesNoPeers : NodeEvent → Bool
  | .download (.tracker _ (.ok _)) => false
  | _ => true

/-- An event of the tracker other than a creation that draws the identifier of the job. -/
def TrackerEvent.createsOther (jobId : String) : TrackerEvent → Bool
  | .request _ freshId (.createJob _ _) => freshId != jobId
  | _ => true

/-- The report for the job that an event brings from outside. -/
def SwarmEvent.outsideReport (jobId : String) : SwarmEvent → Option NodeReport
  | .outside (.request _ _ request) =>
      (Server.reportOf request).bind fun reported =>
        if reported.1 = jobId then some reported.2 else none
  | _ => none

/-- What a client makes of the response to the query of a node for a chunk. -/
def PeersAnswer.ofResponse (debugText : Response → String) (nodeId : String) (chunk : UInt32) :
    Checked Response → List PeersAnswer
  | .error _ => []
  | .ok response =>
      match TrackerClient.getPeers debugText (.ok response) with
      | .ok peers => [{ nodeId, chunk, peers }]
      | .error _ => []

namespace Swarm

/-- The job has just been created and no node has started. -/
def start (deployment : Deployment) (policy : SchedulingPolicy) (tracker : Tracker) : Swarm where
  cluster := .start deployment policy tracker
  answers := []

/-- The task of a node at a position. -/
def task? (swarm : Swarm) (nodeId : String) (k : Nat) : Option (Member × Task) :=
  (swarm.cluster.members nodeId).bind fun member =>
    (member.process.download.tasks[k]?).map fun task => (member, task)

/-- One step of the swarm; `none` when the event cannot happen in the state. -/
def step (debugText : Response → String) (deployment : Deployment) (swarm : Swarm) :
    SwarmEvent → Option Swarm
  | .join node disk =>
      (swarm.cluster.step deployment (.join node disk)).map fun cluster => { swarm with cluster }
  | .member nodeId event =>
      if event.takesNoPeers then
        (swarm.cluster.step deployment (.member nodeId event)).map fun cluster =>
          { swarm with cluster }
      else none
  | .query nodeId k now freshId =>
      (swarm.task? nodeId k).bind fun (member, task) =>
        if task.pc = .askTracker then
          let query := (member.config deployment).peersQuery task.chunk
          let handled := deployment.server.dispatch swarm.cluster.tracker now freshId query
          some {
            cluster := { swarm.cluster with tracker := handled.1 }
            answers :=
              swarm.answers ++ PeersAnswer.ofResponse debugText nodeId task.chunk handled.2 }
        else none
  | .answer nodeId k j =>
      (swarm.task? nodeId k).bind fun (_, task) =>
        (swarm.answers[j]?).bind fun answer =>
          if answer.nodeId = nodeId ∧ answer.chunk = task.chunk then
            let event := DownloadEvent.tracker k (.ok answer.peers)
            (swarm.cluster.step deployment (.member nodeId (.download event))).map fun cluster =>
              { swarm with cluster }
          else none
  | .deliver nodeId k now freshId =>
      (swarm.cluster.step deployment (.deliver nodeId k now freshId)).map fun cluster =>
        { swarm with cluster }
  | .outside event =>
      if event.createsOther deployment.jobId then
        some { swarm with
          cluster := { swarm.cluster with
            tracker := deployment.server.step swarm.cluster.tracker event } }
      else none

/-! ### What one step does -/

/-- Everything one step can do. -/
inductive Effect (debugText : Response → String) (deployment : Deployment) (swarm : Swarm) :
    SwarmEvent → Swarm → Prop where
  | joins {node : PeerNode} {disk : String → Option (List UInt8)} {process : NodeProcess}
      (sameJob : node.config.jobId = deployment.jobId)
      (fresh : swarm.cluster.members node.nodeId = none)
      (started : NodeProcess.start (node.downloaderConfig deployment.manifest) disk =
        some process) :
      Effect debugText deployment swarm (.join node disk)
        { swarm with cluster := swarm.cluster.setMember node.nodeId { node, process } }
  | moves {nodeId : String} {event : NodeEvent} {member : Member} {process : NodeProcess}
      (noPeers : event.takesNoPeers = true)
      (found : swarm.cluster.members nodeId = some member)
      (stepped : member.process.step deployment.platform (member.config deployment) event =
        some process) :
      Effect debugText deployment swarm (.member nodeId event)
        { swarm with cluster := swarm.cluster.setMember nodeId { member with process } }
  | queries {nodeId : String} {k : Nat} {member : Member} {task : Task} (now : Nat)
      (freshId : String) (found : swarm.cluster.members nodeId = some member)
      (asking : member.process.download.tasks[k]? = some task) (pc : task.pc = .askTracker) :
      Effect debugText deployment swarm (.query nodeId k now freshId)
        { cluster := { swarm.cluster with
            tracker := (deployment.server.dispatch swarm.cluster.tracker now freshId
              ((member.config deployment).peersQuery task.chunk)).1 }
          answers := swarm.answers ++ PeersAnswer.ofResponse debugText nodeId task.chunk
            (deployment.server.dispatch swarm.cluster.tracker now freshId
              ((member.config deployment).peersQuery task.chunk)).2 }
  | answers {nodeId : String} {k j : Nat} {member : Member} {task : Task} {answer : PeersAnswer}
      {process : NodeProcess} (found : swarm.cluster.members nodeId = some member)
      (asking : member.process.download.tasks[k]? = some task) (given : answer ∈ swarm.answers)
      (sameChunk : answer.chunk = task.chunk)
      (stepped : member.process.step deployment.platform (member.config deployment)
        (.download (.tracker k (.ok answer.peers))) = some process) :
      Effect debugText deployment swarm (.answer nodeId k j)
        { swarm with cluster := swarm.cluster.setMember nodeId { member with process } }
  | delivers {nodeId : String} {k : Nat} {member : Member} {bitmapBytes : List UInt8} (now : Nat)
      (freshId : String) (found : swarm.cluster.members nodeId = some member)
      (sent : bitmapBytes ∈ member.process.sent) :
      Effect debugText deployment swarm (.deliver nodeId k now freshId)
        { swarm with
          cluster := { swarm.cluster with
            tracker := deployment.server.step swarm.cluster.tracker
              (.request now freshId (member.node.heartbeat bitmapBytes)) } }
  | arrives {event : TrackerEvent} (other : event.createsOther deployment.jobId = true) :
      Effect debugText deployment swarm (.outside event)
        { swarm with
          cluster := { swarm.cluster with
            tracker := deployment.server.step swarm.cluster.tracker event } }

theorem task?_eq_some {swarm : Swarm} {nodeId : String} {k : Nat} {member : Member} {task : Task}
    (found : swarm.task? nodeId k = some (member, task)) :
    swarm.cluster.members nodeId = some member ∧
      member.process.download.tasks[k]? = some task := by
  rcases Option.bind_eq_some_iff.mp found with ⟨other, known, rest⟩
  rcases Option.map_eq_some_iff.mp rest with ⟨_, live, same⟩
  cases same
  exact ⟨known, live⟩

theorem step_effect {debugText : Response → String} {deployment : Deployment}
    {swarm next : Swarm} {event : SwarmEvent}
    (stepped : swarm.step debugText deployment event = some next) :
    Effect debugText deployment swarm event next := by
  cases event with
  | join node disk =>
      rcases Option.map_eq_some_iff.mp stepped with ⟨cluster, joined, rfl⟩
      simp only [Cluster.step] at joined
      split at joined
      · rename_i allowed
        rcases Option.map_eq_some_iff.mp joined with ⟨process, started, rfl⟩
        exact .joins allowed.1 (Option.isNone_iff_eq_none.mp allowed.2) started
      · cases joined
  | member nodeId event =>
      simp only [step] at stepped
      split at stepped
      · rename_i noPeers
        rcases Option.map_eq_some_iff.mp stepped with ⟨cluster, moved, rfl⟩
        rcases Option.bind_eq_some_iff.mp moved with ⟨member, found, rest⟩
        rcases Option.map_eq_some_iff.mp rest with ⟨process, advanced, rfl⟩
        exact .moves noPeers found advanced
      · cases stepped
  | query nodeId k now freshId =>
      rcases Option.bind_eq_some_iff.mp stepped with ⟨⟨member, task⟩, located, rest⟩
      rcases task?_eq_some located with ⟨found, asking⟩
      simp only at rest
      split at rest
      · rename_i pc
        cases rest
        exact .queries now freshId found asking pc
      · cases rest
  | answer nodeId k j =>
      rcases Option.bind_eq_some_iff.mp stepped with ⟨⟨_, task⟩, located, rest⟩
      rcases task?_eq_some located with ⟨known, asking⟩
      rcases Option.bind_eq_some_iff.mp rest with ⟨answer, at_j, taken⟩
      split at taken
      · rename_i matching
        rcases Option.map_eq_some_iff.mp taken with ⟨cluster, moved, rfl⟩
        rcases Option.bind_eq_some_iff.mp moved with ⟨member, found, advances⟩
        rcases Option.map_eq_some_iff.mp advances with ⟨process, advanced, rfl⟩
        rw [found] at known
        cases known
        exact .answers found asking (List.mem_of_getElem? at_j) matching.2 advanced
      · cases taken
  | deliver nodeId k now freshId =>
      rcases Option.map_eq_some_iff.mp stepped with ⟨cluster, delivered, rfl⟩
      rcases Option.bind_eq_some_iff.mp delivered with ⟨member, found, rest⟩
      rcases Option.map_eq_some_iff.mp rest with ⟨bitmapBytes, at_k, rfl⟩
      exact .delivers now freshId found (List.mem_of_getElem? at_k)
  | outside event =>
      simp only [step] at stepped
      split at stepped
      · rename_i other
        cases stepped
        exact .arrives other
      · cases stepped

/-! ### A swarm on its own -/

end Swarm

end ModelDistribution
