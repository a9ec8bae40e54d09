/-
Module: ModelDistribution.Tracker.Types
Layer: Model
Purpose: The data of the control plane: scheduling policies, job status, the state of one node, one
  job with its node table, the serialisable snapshots, and the job methods that only read. Clock
  readings are nanoseconds of one monotone clock. The order of a node table is a parameter.
Imports: ModelDistribution.ChunkBitmap, ModelDistribution.Manifest,
  ModelDistribution.Foundation.ShardedMap
Trusted boundary: human-reviewed spec
Main exports: SchedulingPolicy, JobStatus, NodeState, Job, JobSnapshot, CandidatePeer,
  Job.replicaCounts, Job.snapshot, JobSnapshot.toValue

[src/tracker/mod.rs, types and snapshots]
-/
import ModelDistribution.ChunkBitmap
import ModelDistribution.Manifest
import ModelDistribution.Foundation.ShardedMap

namespace ModelDistribution

open Foundation

inductive SchedulingPolicy where
  | rarityFirst
  | topologyAware
deriving DecidableEq, Repr

/-- `SchedulingPolicy::from_str`. -/
def SchedulingPolicy.fromStr : String → Except DistError SchedulingPolicy
  | "rarity-first" => .ok .rarityFirst
  | "topology-aware" => .ok .topologyAware
  | other => .error (.proto s!"unknown policy: {other}")

/-- The derived `Debug` text. -/
def SchedulingPolicy.debugText : SchedulingPolicy → String
  | .rarityFirst => "RarityFirst"
  | .topologyAware => "TopologyAware"

inductive JobStatus where
  | running
  | complete
  | cancelled
deriving DecidableEq, Repr

/-- The derived `Debug` text. -/
def JobStatus.debugText : JobStatus → String
  | .running => "Running"
  | .complete => "Complete"
  | .cancelled => "Cancelled"

/-- `NodeState`: what the tracker knows about one node. -/
structure NodeState where
  nodeId : String
  rackId : String
  peerAddr : String
  bitmap : ChunkBitmap
  uploadBwMbps : UInt64
  /-- Clock reading of the last heartbeat, in nanoseconds. -/
  lastSeen : Nat
deriving DecidableEq, Repr

/-- `Job`: one model version pushed to the cluster. -/
structure Job where
  jobId : String
  manifest : Manifest
  policy : SchedulingPolicy
  status : JobStatus
  nodes : ShardedMap String NodeState

/-- `CandidatePeer`. -/
structure CandidatePeer where
  nodeId : String
  peerAddr : String
  rackId : String
  uploadBwMbps : UInt64
deriving DecidableEq, Repr

/-- `NodeSnapshot`. -/
structure NodeSnapshot where
  nodeId : String
  rackId : String
  completedChunks : UInt32
  totalChunks : UInt32
  uploadBwMbps : UInt64
  lastSeenSecs : UInt64

/-- `JobSnapshot`. -/
structure JobSnapshot where
  jobId : String
  fileId : String
  version : String
  status : String
  policy : String
  totalChunks : UInt32
  nodeCount : UInt32
  avgCompletionPct : Float32
  nodes : List NodeSnapshot

namespace NodeState

/-- `NodeState::new`. -/
def new (now : Nat) (nodeId rackId peerAddr : String) (chunkCount : UInt32)
    (uploadBwMbps : UInt64) : NodeState where
  nodeId := nodeId
  rackId := rackId
  peerAddr := peerAddr
  bitmap := .new chunkCount
  uploadBwMbps := uploadBwMbps
  lastSeen := now

/-- `touch`. -/
def touch (state : NodeState) (now : Nat) : NodeState := { state with lastSeen := now }

/-- Whole seconds since the last heartbeat. -/
def elapsedSecs (state : NodeState) (now : Nat) : Nat := (now - state.lastSeen) / 10 ^ 9

/-- `is_stale`: whole seconds are compared, so the bound itself is not stale. -/
def isStale (state : NodeState) (now : Nat) (timeoutSecs : UInt64) : Bool :=
  timeoutSecs.toNat < state.elapsedSecs now

end NodeState

namespace Job

/-- `Job::new`, under the identifier drawn for it. -/
def new (jobId : String) (manifest : Manifest) (policy : SchedulingPolicy) : Job where
  jobId := jobId
  manifest := manifest
  policy := policy
  status := .running
  nodes := .empty

/-- `Job::completion_ratio`, in single precision. -/
def completionRatio (layout : Layout String NodeState) (job : Job) : Float32 :=
  if job.nodes.entries.length = 0 then 0.0
  else
    let done := ((layout.iter job.nodes).filter fun entry => entry.2.bitmap.isComplete).length
    (UInt64.ofNat done).toFloat32 / (UInt64.ofNat job.nodes.entries.length).toFloat32

/-- A 32-bit counter goes up by one. -/
def bumpCount (profile : Profile) (count : UInt32) : Checked UInt32 :=
  match profile, decide (count.toNat + 1 < 2 ^ 32) with
  | .debug, false => .error .arithmeticOverflow
  | _, _ => .ok (count + 1)

/-- The inner loop of `replica_counts`: chunk `i` of one node. -/
def countReplica (profile : Profile) (bitmap : ChunkBitmap) (counts : List UInt32) (i : Nat) :
    Checked (List UInt32) := do
  if ← bitmap.has (UInt32.ofNat i) then
    let count ← indexList counts i
    let bumped ← bumpCount profile count
    return counts.set i bumped
  else
    return counts

/-- `Job::replica_counts`. -/
def replicaCounts (profile : Profile) (layout : Layout String NodeState) (job : Job) :
    Checked (List UInt32) :=
  let n := job.manifest.chunkCount.toNat
  (layout.iter job.nodes).foldlM
    (fun counts entry => (List.range n).foldlM (countReplica profile entry.2.bitmap) counts)
    (List.replicate n 0)

/-- The view of one node that a snapshot holds. -/
def nodeSnapshot (job : Job) (now : Nat) (entry : String × NodeState) : NodeSnapshot where
  nodeId := entry.1
  rackId := entry.2.rackId
  completedChunks := entry.2.bitmap.completedCount
  totalChunks := job.manifest.chunkCount
  uploadBwMbps := entry.2.uploadBwMbps
  lastSeenSecs := UInt64.ofNat (entry.2.elapsedSecs now)

/-- `Job::snapshot`. -/
def snapshot (layout : Layout String NodeState) (now : Nat) (job : Job) : JobSnapshot :=
  let nodes := (layout.iter job.nodes).map (job.nodeSnapshot now)
  let totalChunks := job.manifest.chunkCount
  let avgPct : Float32 :=
    if nodes.isEmpty then 0.0
    else
      (nodes.map fun n => n.completedChunks.toFloat32 / totalChunks.toFloat32).foldl (· + ·) 0.0 /
        (UInt64.ofNat nodes.length).toFloat32 * 100.0
  { jobId := job.jobId
    fileId := job.manifest.fileId
    version := job.manifest.version
    status := job.status.debugText
    policy := job.policy.debugText
    totalChunks := totalChunks
    nodeCount := UInt32.ofNat nodes.length
    avgCompletionPct := avgPct
    nodes := nodes }

end Job

/-- Derived encoding of a node snapshot. -/
def NodeSnapshot.toValue (snapshot : NodeSnapshot) : Json :=
  .object
    [("node_id", .string snapshot.nodeId),
     ("rack_id", .string snapshot.rackId),
     ("completed_chunks", .ofNat snapshot.completedChunks.toNat),
     ("total_chunks", .ofNat snapshot.totalChunks.toNat),
     ("upload_bw_mbps", .ofNat snapshot.uploadBwMbps.toNat),
     ("last_seen_secs", .ofNat snapshot.lastSeenSecs.toNat)]

/-- Derived encoding of a job snapshot. -/
def JobSnapshot.toValue (snapshot : JobSnapshot) : Json :=
  .object
    [("job_id", .string snapshot.jobId),
     ("file_id", .string snapshot.fileId),
     ("version", .string snapshot.version),
     ("status", .string snapshot.status),
     ("policy", .string snapshot.policy),
     ("total_chunks", .ofNat snapshot.totalChunks.toNat),
     ("node_count", .ofNat snapshot.nodeCount.toNat),
     ("avg_completion_pct", .ofFloat32 snapshot.avgCompletionPct),
     ("nodes", .array (snapshot.nodes.map NodeSnapshot.toValue))]

end ModelDistribution
