/-
Module: ModelDistribution.Cluster
Layer: Model
Purpose: The tracker and the nodes of one job together. A heartbeat that was sent may arrive at any
  later time, any number of times and in any order, or never; everything else that reaches the tracker
  is free as long as it is not a heartbeat for the job.
Imports: Mathlib.Logic.Function.Basic, ModelDistribution.Peer.Node, ModelDistribution.Tracker.Server
Trusted boundary: human-reviewed spec
Main exports: Deployment, Member, Cluster, ClusterEvent, Cluster.start, Cluster.step

[src/peer/mod.rs, src/tracker/mod.rs, src/tracker/server.rs]
-/
import Mathlib.Logic.Function.Basic
import ModelDistribution.Peer.Node
import ModelDistribution.Tracker.Server

namespace ModelDistribution

open Foundation

/-- What the nodes are built with, the server they talk to, and the job they are started for. -/
structure Deployment where
  platform : Platform
  server : Server
  jobId : String
  manifest : Manifest
  /-- Whether the chunk server of the node can bind its address. When it cannot, the node goes on
  without it: `run` only logs the failure. -/
  binds : String → Bool := fun _ => true

/-- A started node and its process. -/
structure Member where
  node : PeerNode
  process : NodeProcess

/-- The tracker and all nodes that were ever started, by their identifiers. The disk of a node is a part
of its process: no two nodes share a data directory. -/
structure Cluster where
  tracker : Tracker
  members : String → Option Member

/-- What happens next. -/
inductive ClusterEvent where
  /-- A node starts with the manifest of the job, over whatever files there are. How it came to have
  the manifest is left out: `fetch_manifest` never delivers one. -/
  | join (node : PeerNode) (disk : String → Option (List UInt8))
  | member (nodeId : String) (event : NodeEvent)
  /-- A heartbeat that the node has sent arrives, named by its position. -/
  | deliver (nodeId : String) (k : Nat) (now : Nat) (freshId : String)
  | tracker (event : TrackerEvent)

/-- An event of the tracker other than a heartbeat for the job or a creation that draws its
identifier. -/
def TrackerEvent.isForeign (jobId : String) : TrackerEvent → Bool
  | .request _ freshId (.createJob _ _) => freshId != jobId
  | .request _ _ (.heartbeat other _ _ _ _ _) => other != jobId
  | _ => true

/-- The configuration of the download loop of a member. -/
def Member.config (deployment : Deployment) (member : Member) : DownloaderConfig :=
  member.node.downloaderConfig deployment.manifest

namespace Cluster

/-- The job has just been created, on a tracker with any other jobs, and no node has started. -/
def start (deployment : Deployment) (policy : SchedulingPolicy) (tracker : Tracker) : Cluster where
  tracker := (tracker.createJob deployment.jobId deployment.manifest policy).2
  members := fun _ => none

/-- Replace or add a member. -/
def setMember (cluster : Cluster) (nodeId : String) (member : Member) : Cluster :=
  { cluster with members := Function.update cluster.members nodeId (some member) }

theorem setMember_members (cluster : Cluster) (nodeId other : String) (member : Member) :
    (cluster.setMember nodeId member).members other =
      if other = nodeId then some member else cluster.members other :=
  Function.update_apply _ _ _ _

/-- One step of the cluster; `none` when the event cannot happen in the state. -/
def step (deployment : Deployment) (cluster : Cluster) : ClusterEvent → Option Cluster
  | .join node disk =>
      if node.config.jobId = deployment.jobId ∧ (cluster.members node.nodeId).isNone then
        (NodeProcess.start (node.downloaderConfig deployment.manifest) disk).map fun process =>
          cluster.setMember node.nodeId { node, process }
      else none
  | .member nodeId event =>
      (cluster.members nodeId).bind fun member =>
        (member.process.step deployment.platform (member.config deployment) event).map
          fun process => cluster.setMember nodeId { member with process }
  | .deliver nodeId k now freshId =>
      (cluster.members nodeId).bind fun member =>
        (member.process.sent[k]?).map fun bitmapBytes =>
          { cluster with
            tracker := deployment.server.step cluster.tracker
              (.request now freshId (member.node.heartbeat bitmapBytes)) }
  | .tracker event =>
      if event.isForeign deployment.jobId then
        some { cluster with tracker := deployment.server.step cluster.tracker event }
      else none

/-! ### What one step does -/

/-- Everything one step can do. -/
inductive Effect (deployment : Deployment) (cluster : Cluster) : Cluster → Prop where
  | joins {node : PeerNode} {disk : String → Option (List UInt8)} {process : NodeProcess}
      (sameJob : node.config.jobId = deployment.jobId)
      (fresh : cluster.members node.nodeId = none)
      (started : NodeProcess.start (node.downloaderConfig deployment.manifest) disk =
        some process) :
      Effect deployment cluster (cluster.setMember node.nodeId { node, process })
  | moves {nodeId : String} {event : NodeEvent} {member : Member} {process : NodeProcess}
      (found : cluster.members nodeId = some member)
      (stepped : member.process.step deployment.platform (member.config deployment) event =
        some process) :
      Effect deployment cluster (cluster.setMember nodeId { member with process })
  | delivers {nodeId : String} {member : Member} {bitmapBytes : List UInt8} (now : Nat)
      (freshId : String) (found : cluster.members nodeId = some member)
      (sent : bitmapBytes ∈ member.process.sent) :
      Effect deployment cluster
        { cluster with
          tracker := deployment.server.step cluster.tracker
            (.request now freshId (member.node.heartbeat bitmapBytes)) }
  | tracks {event : TrackerEvent} (foreign : event.isForeign deployment.jobId = true) :
      Effect deployment cluster
        { cluster with tracker := deployment.server.step cluster.tracker event }

theorem step_effect {deployment : Deployment} {cluster next : Cluster} {event : ClusterEvent}
    (stepped : cluster.step deployment event = some next) : Effect deployment cluster next := by
  cases event with
  | join node disk =>
      simp only [step] at stepped
      split at stepped
      · rename_i allowed
        rcases Option.map_eq_some_iff.mp stepped with ⟨process, started, rfl⟩
        exact .joins allowed.1 (Option.isNone_iff_eq_none.mp allowed.2) started
      · cases stepped
  | member nodeId event =>
      rcases Option.bind_eq_some_iff.mp stepped with ⟨member, found, rest⟩
      rcases Option.map_eq_some_iff.mp rest with ⟨process, moved, rfl⟩
      exact .moves found moved
  | deliver nodeId k now freshId =>
      rcases Option.bind_eq_some_iff.mp stepped with ⟨member, found, rest⟩
      rcases Option.map_eq_some_iff.mp rest with ⟨bitmapBytes, at_k, rfl⟩
      exact .delivers now freshId found (List.mem_of_getElem? at_k)
  | tracker event =>
      simp only [step] at stepped
      split at stepped
      · rename_i foreign
        cases stepped
        exact .tracks foreign
      · cases stepped

end Cluster

end ModelDistribution
