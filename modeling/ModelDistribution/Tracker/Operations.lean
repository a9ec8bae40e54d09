/-
Module: ModelDistribution.Tracker.Operations
Layer: Model
Purpose: The tracker: its table of jobs, its counters, and the operations on them, each as one atomic
  step. Lock traces are modelled separately. Identifiers that the code draws at random and clock
  readings are arguments.
Imports: ModelDistribution.Tracker.Scheduler
Trusted boundary: human-reviewed spec
Main exports: Tracker, TableLayouts, Tracker.createJob, Tracker.getJob, Tracker.cancelJob,
  Tracker.updateNode, Tracker.getPeers, Tracker.evictStaleNodes, Tracker.allJobSnapshots

[src/tracker/mod.rs, Tracker]
-/
import ModelDistribution.Tracker.Scheduler

namespace ModelDistribution

open Foundation

/-- `Tracker`: all jobs, and the counters that the operations increment. -/
structure Tracker where
  jobs : ShardedMap String Job
  jobsCreatedTotal : Nat
  jobsCompleteTotal : Nat
  peerQueriesTotal : Nat

/-- How the job table and the node table of each job are laid out. -/
structure TableLayouts where
  jobs : Layout String Job
  nodes : String → Layout String NodeState

/-- The arguments of one heartbeat after its job identifier. -/
structure NodeReport where
  nodeId : String
  rackId : String
  peerAddr : String
  bitmapBytes : List UInt8
  uploadBwMbps : UInt64
deriving DecidableEq, Repr

namespace Job

/-- The entry that `update_node` leaves for a node: the registered one, or a new one, with every
reported field overwritten and the clock touched. -/
def reportedState (job : Job) (now : Nat) (report : NodeReport) : NodeState :=
  let chunkCount := job.manifest.chunkCount
  let entry := (job.nodes.get? report.nodeId).getD
    (.new now report.nodeId report.rackId report.peerAddr chunkCount report.uploadBwMbps)
  NodeState.touch
    { entry with
      bitmap := .fromBytes report.bitmapBytes chunkCount
      uploadBwMbps := report.uploadBwMbps
      rackId := report.rackId
      peerAddr := report.peerAddr }
    now

/-- The node table after a heartbeat. -/
def withReport (job : Job) (now : Nat) (report : NodeReport) : Job :=
  { job with nodes := job.nodes.insert report.nodeId (job.reportedState now report) }

/-- The scan of `update_node`: every registered node is complete. -/
def allNodesComplete (layout : Layout String NodeState) (job : Job) : Bool :=
  (layout.iter job.nodes).all fun entry => entry.2.bitmap.isComplete

/-- A heartbeat completes the job: the single-precision gate lets it through and the scan of the
table that already holds the new entry succeeds. -/
def reportCompletes (layout : Layout String NodeState) (job : Job) (now : Nat)
    (report : NodeReport) : Bool :=
  decide ((1.0 : Float32) ≤ (job.reportedState now report).bitmap.completionRatio) &&
    (job.withReport now report).allNodesComplete layout

/-- The job after a heartbeat. -/
def afterReport (layout : Layout String NodeState) (job : Job) (now : Nat)
    (report : NodeReport) : Job :=
  if job.reportCompletes layout now report then
    { job.withReport now report with status := .complete }
  else job.withReport now report

/-- Drop the stale nodes of one job. -/
def evictStale (job : Job) (now : Nat) (timeoutSecs : UInt64) : Job :=
  { job with nodes := job.nodes.retain fun _ state => !state.isStale now timeoutSecs }

end Job

namespace Tracker

/-- `Tracker::new`. -/
def new : Tracker where
  jobs := .empty
  jobsCreatedTotal := 0
  jobsCompleteTotal := 0
  peerQueriesTotal := 0

/-- `create_job`, with the identifier drawn for the job. -/
def createJob (tracker : Tracker) (freshId : String) (manifest : Manifest)
    (policy : SchedulingPolicy) : Job × Tracker :=
  let job := Job.new freshId manifest policy
  (job,
    { tracker with
      jobs := tracker.jobs.insert job.jobId job
      jobsCreatedTotal := tracker.jobsCreatedTotal + 1 })

/-- `get_job`. -/
def getJob (tracker : Tracker) (jobId : String) : Except DistError Job :=
  match tracker.jobs.get? jobId with
  | some job => .ok job
  | none => .error (.jobNotFound jobId)

/-- Write a job back under the identifier it was found with. -/
def setJob (tracker : Tracker) (jobId : String) (job : Job) : Tracker :=
  { tracker with jobs := tracker.jobs.insert jobId job }

/-- `cancel_job`: the status is overwritten whatever it was. -/
def cancelJob (tracker : Tracker) (jobId : String) : Except DistError Tracker := do
  let job ← tracker.getJob jobId
  return tracker.setJob jobId { job with status := .cancelled }

/-- `update_node`. -/
def updateNode (layouts : TableLayouts) (tracker : Tracker) (now : Nat) (jobId : String)
    (report : NodeReport) : Except DistError Tracker := do
  let job ← tracker.getJob jobId
  let stored := tracker.setJob jobId (job.afterReport (layouts.nodes jobId) now report)
  if job.reportCompletes (layouts.nodes jobId) now report then
    return { stored with jobsCompleteTotal := stored.jobsCompleteTotal + 1 }
  else
    return stored

/-- The scheduler that the policy of a job selects. -/
def schedule (layout : Layout String NodeState) (job : Job) (requesterId requesterRack : String)
    (chunkIndex : UInt32) (topN : UInt64) : Checked (List CandidatePeer) :=
  match job.policy with
  | .rarityFirst => Scheduler.rarityFirst layout job requesterId chunkIndex topN
  | .topologyAware =>
      Scheduler.topologyAware layout job requesterId requesterRack chunkIndex topN

/-- `get_peers`. -/
def getPeers (layouts : TableLayouts) (tracker : Tracker) (jobId requesterId requesterRack : String)
    (chunkIndex : UInt32) (topN : UInt64) :
    Checked (Except DistError (List CandidatePeer × Tracker)) :=
  match tracker.getJob jobId with
  | .error e => .ok (.error e)
  | .ok job => do
      let peers ←
        schedule (layouts.nodes jobId) job requesterId requesterRack chunkIndex topN
      return .ok (peers, { tracker with peerQueriesTotal := tracker.peerQueriesTotal + 1 })

/-- `evict_stale_nodes`: one pass over the node tables of all jobs. -/
def evictStaleNodes (tracker : Tracker) (now : Nat) (timeoutSecs : UInt64) : Tracker :=
  { tracker with jobs := tracker.jobs.mapValues fun _ job => job.evictStale now timeoutSecs }

/-- `all_job_snapshots`. -/
def allJobSnapshots (layouts : TableLayouts) (tracker : Tracker) (now : Nat) : List JobSnapshot :=
  (layouts.jobs.iter tracker.jobs).map fun entry =>
    entry.2.snapshot (layouts.nodes entry.1) now

end Tracker

/-! ### Reading the operations back -/

namespace Job

@[simp] theorem reportedState_bitmap (job : Job) (now : Nat) (report : NodeReport) :
    (job.reportedState now report).bitmap =
      .fromBytes report.bitmapBytes job.manifest.chunkCount := rfl

@[simp] theorem withReport_manifest (job : Job) (now : Nat) (report : NodeReport) :
    (job.withReport now report).manifest = job.manifest := rfl

@[simp] theorem withReport_status (job : Job) (now : Nat) (report : NodeReport) :
    (job.withReport now report).status = job.status := rfl

@[simp] theorem withReport_nodes (job : Job) (now : Nat) (report : NodeReport) :
    (job.withReport now report).nodes =
      job.nodes.insert report.nodeId (job.reportedState now report) := rfl

variable {layout : Layout String NodeState}

@[simp] theorem afterReport_manifest (job : Job) (now : Nat) (report : NodeReport) :
    (job.afterReport layout now report).manifest = job.manifest := by
  unfold afterReport
  split <;> rfl

@[simp] theorem afterReport_policy (job : Job) (now : Nat) (report : NodeReport) :
    (job.afterReport layout now report).policy = job.policy := by
  unfold afterReport
  split <;> rfl

@[simp] theorem afterReport_jobId (job : Job) (now : Nat) (report : NodeReport) :
    (job.afterReport layout now report).jobId = job.jobId := by
  unfold afterReport
  split <;> rfl

@[simp] theorem afterReport_nodes (job : Job) (now : Nat) (report : NodeReport) :
    (job.afterReport layout now report).nodes =
      job.nodes.insert report.nodeId (job.reportedState now report) := by
  unfold afterReport
  split <;> rfl

theorem afterReport_status (job : Job) (now : Nat) (report : NodeReport) :
    (job.afterReport layout now report).status =
      if job.reportCompletes layout now report then .complete else job.status := by
  unfold afterReport
  split <;> rfl

/-- The scan succeeds exactly when every registered node is complete. -/
theorem allNodesComplete_iff (job : Job) :
    job.allNodesComplete layout = true ↔
      ∀ nodeId state, (nodeId, state) ∈ job.nodes.entries → state.bitmap.isComplete = true := by
  simp [allNodesComplete, List.all_eq_true, Layout.mem_iter]

/-- A heartbeat completes the job exactly when its own bitmap and those of all other nodes are
complete: the gate on the ratio never stops a complete bitmap. -/
theorem reportCompletes_iff (layout : Layout String NodeState) (job : Job) (now : Nat)
    (report : NodeReport) :
    job.reportCompletes layout now report = true ↔
      (ChunkBitmap.fromBytes report.bitmapBytes job.manifest.chunkCount).isComplete = true ∧
        ∀ nodeId state, (nodeId, state) ∈ job.nodes.entries → nodeId ≠ report.nodeId →
          state.bitmap.isComplete = true := by
  rw [reportCompletes, Bool.and_eq_true, decide_eq_true_eq, allNodesComplete_iff]
  simp only [withReport_nodes, ShardedMap.mem_insert]
  constructor
  · rintro ⟨_, all⟩
    constructor
    · exact all _ _ (.inl ⟨rfl, rfl⟩)
    · intro nodeId state mem other
      exact all _ _ (.inr ⟨other, mem⟩)
  · rintro ⟨own, others⟩
    constructor
    · exact ChunkBitmap.one_le_completionRatio own
    · rintro nodeId state (⟨_, rfl⟩ | ⟨other, mem⟩)
      · exact own
      · exact others _ _ mem other

@[simp] theorem evictStale_manifest (job : Job) (now : Nat) (timeoutSecs : UInt64) :
    (job.evictStale now timeoutSecs).manifest = job.manifest := rfl

@[simp] theorem evictStale_status (job : Job) (now : Nat) (timeoutSecs : UInt64) :
    (job.evictStale now timeoutSecs).status = job.status := rfl

theorem mem_evictStale {job : Job} {now : Nat} {timeoutSecs : UInt64} {nodeId : String}
    {state : NodeState} :
    (nodeId, state) ∈ (job.evictStale now timeoutSecs).nodes.entries ↔
      (nodeId, state) ∈ job.nodes.entries ∧ state.isStale now timeoutSecs = false := by
  simp [evictStale, ShardedMap.mem_retain]

end Job

namespace Tracker

theorem getJob_eq_ok_iff {tracker : Tracker} {jobId : String} {job : Job} :
    tracker.getJob jobId = .ok job ↔ tracker.jobs.get? jobId = some job := by
  unfold getJob
  cases tracker.jobs.get? jobId <;> simp

@[simp] theorem get?_setJob (tracker : Tracker) (jobId other : String) (job : Job) :
    (tracker.setJob jobId job).jobs.get? other =
      if other = jobId then some job else tracker.jobs.get? other :=
  ShardedMap.get?_insert _ _ _ _

theorem get?_createJob (tracker : Tracker) (freshId other : String) (manifest : Manifest)
    (policy : SchedulingPolicy) :
    (tracker.createJob freshId manifest policy).2.jobs.get? other =
      if other = freshId then some (.new freshId manifest policy) else tracker.jobs.get? other :=
  ShardedMap.get?_insert _ _ _ _

theorem get?_evictStaleNodes (tracker : Tracker) (now : Nat) (timeoutSecs : UInt64)
    (jobId : String) :
    (tracker.evictStaleNodes now timeoutSecs).jobs.get? jobId =
      (tracker.jobs.get? jobId).map fun job => job.evictStale now timeoutSecs :=
  ShardedMap.get?_mapValues _ _ _

/-- What `cancel_job` does: an unknown job is an error and changes nothing. -/
theorem cancelJob_spec (tracker : Tracker) (jobId : String) :
    (tracker.jobs.get? jobId = none ∧
      tracker.cancelJob jobId = .error (.jobNotFound jobId)) ∨
    ∃ job, tracker.jobs.get? jobId = some job ∧
      tracker.cancelJob jobId = .ok (tracker.setJob jobId { job with status := .cancelled }) := by
  unfold cancelJob getJob
  cases found : tracker.jobs.get? jobId with
  | none => exact .inl ⟨rfl, rfl⟩
  | some job => exact .inr ⟨job, rfl, rfl⟩

/-- What `update_node` does to the table: an unknown job is an error and changes nothing, and for a
known one exactly its own entry is replaced. -/
theorem updateNode_spec (layouts : TableLayouts) (tracker : Tracker) (now : Nat) (jobId : String)
    (report : NodeReport) :
    (tracker.jobs.get? jobId = none ∧
      updateNode layouts tracker now jobId report = .error (.jobNotFound jobId)) ∨
    ∃ job after, tracker.jobs.get? jobId = some job ∧
      updateNode layouts tracker now jobId report = .ok after ∧
      ∀ other, after.jobs.get? other =
        if other = jobId then some (job.afterReport (layouts.nodes jobId) now report)
        else tracker.jobs.get? other := by
  unfold updateNode getJob
  cases found : tracker.jobs.get? jobId with
  | none => exact .inl ⟨rfl, rfl⟩
  | some job =>
      cases completes : job.reportCompletes (layouts.nodes jobId) now report with
      | false =>
          refine .inr ⟨job, _, rfl, ?_, fun other => get?_setJob tracker jobId other _⟩
          simp [completes, bind, Except.bind, pure, Except.pure]
      | true =>
          refine .inr ⟨job,
            { tracker.setJob jobId (job.afterReport (layouts.nodes jobId) now report) with
              jobsCompleteTotal := tracker.jobsCompleteTotal + 1 }, rfl, ?_,
            fun other => get?_setJob tracker jobId other _⟩
          simp [completes, bind, Except.bind, pure, Except.pure, setJob]

/-- What `get_peers` does: it reads the job and leaves the table as it is. -/
theorem getPeers_spec (layouts : TableLayouts) (tracker : Tracker)
    (jobId requesterId requesterRack : String) (chunkIndex : UInt32) (topN : UInt64) :
    (tracker.jobs.get? jobId = none ∧
      getPeers layouts tracker jobId requesterId requesterRack chunkIndex topN =
        .ok (.error (.jobNotFound jobId))) ∨
    ∃ job, tracker.jobs.get? jobId = some job ∧
      getPeers layouts tracker jobId requesterId requesterRack chunkIndex topN =
        (schedule (layouts.nodes jobId) job requesterId requesterRack chunkIndex topN).map
          fun peers =>
            .ok (peers, { tracker with peerQueriesTotal := tracker.peerQueriesTotal + 1 }) := by
  unfold getPeers getJob
  cases found : tracker.jobs.get? jobId with
  | none => exact .inl ⟨rfl, rfl⟩
  | some job =>
      refine .inr ⟨job, rfl, ?_⟩
      cases scheduled : schedule (layouts.nodes jobId) job requesterId requesterRack chunkIndex
          topN <;>
        simp [scheduled, bind, Except.bind, pure, Except.pure, Except.map]

/-- A scheduler names only holders. -/
theorem holder_of_mem_schedule {layout : Layout String NodeState} {job : Job}
    {requesterId requesterRack : String} {chunkIndex : UInt32} {topN : UInt64}
    {peers : List CandidatePeer} {peer : CandidatePeer}
    (returned : schedule layout job requesterId requesterRack chunkIndex topN = .ok peers)
    (named : peer ∈ peers) : Scheduler.Holder job requesterId chunkIndex peer := by
  unfold schedule at returned
  cases selected : job.policy with
  | rarityFirst =>
      rw [selected] at returned
      exact Scheduler.holder_of_mem_rarityFirst returned named
  | topologyAware =>
      rw [selected] at returned
      exact Scheduler.holder_of_mem_topologyAware returned named

/-- The scheduler of a job returns when every stored bitmap is full. -/
theorem schedule_returns (layout : Layout String NodeState) {job : Job}
    (full : ∀ entry ∈ job.nodes.entries, entry.2.bitmap.Full) (requesterId requesterRack : String)
    (chunkIndex : UInt32) (topN : UInt64) :
    ∃ peers, schedule layout job requesterId requesterRack chunkIndex topN = .ok peers := by
  unfold schedule
  cases job.policy with
  | rarityFirst => exact Scheduler.rarityFirst_returns full
  | topologyAware => exact Scheduler.topologyAware_returns full

end Tracker

end ModelDistribution
