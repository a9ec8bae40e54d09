/-
Module: ModelDistribution.Tracker.Locks
Layer: Model
Purpose: The locks that the tracker operations take, as the acquire and release steps each body
  performs. A guard is released where its owner goes out of scope; iteration over a table read-locks
  shard after shard, and an early end of the iteration leaves the later shards alone.
Imports: ModelDistribution.Foundation.LockTrace, ModelDistribution.Tracker.Operations
Trusted boundary: human-reviewed spec
Main exports: LockId, Operation, Operation.apply, Operation.trace, lockedStep

[src/tracker/mod.rs and src/tracker/scheduler.rs, guard lifetimes]
-/
import ModelDistribution.Foundation.LockTrace
import ModelDistribution.Tracker.Operations

namespace ModelDistribution

open Foundation

/-- The locks of the tracker. -/
inductive LockId where
  | jobsShard (shard : Nat)
  | nodesShard (jobId : String) (shard : Nat)
  | node (jobId nodeId : String)
  | status (jobId : String)
deriving DecidableEq, Repr

abbrev LockSteps := List (LockAction LockId)

/-- Take a lock and drop the guard at the end of the expression. -/
def touch (lock : LockId) (mode : LockMode) : LockSteps := [.acquire lock mode, .release lock mode]

/-- The entries an iteration looks at: all up to the first one that ends it. -/
def visited {α : Type} (halts : α → Bool) : List α → List α
  | [] => []
  | x :: xs => if halts x then [x] else x :: visited halts xs

/-- Iterate over the node table of a job. -/
def scanNodes (layout : Layout String NodeState) (jobId : String) (job : Job)
    (halts : String × NodeState → Bool) (visit : String × NodeState → LockSteps) : LockSteps :=
  scanGuards (.nodesShard jobId) (fun s => (visited halts (layout.shard job.nodes s)).flatMap visit)
    (fun s => (layout.shard job.nodes s).any halts) none (List.range layout.shardCount)

/-- Iterate over the job table. -/
def scanJobs (layout : Layout String Job) (tracker : Tracker)
    (visit : String × Job → LockSteps) : LockSteps :=
  scanGuards .jobsShard (fun s => (layout.shard tracker.jobs s).flatMap visit) (fun _ => false) none
    (List.range layout.shardCount)

/-- Read-lock the node under an entry for one expression. -/
def readNode (jobId : String) (entry : String × NodeState) : LockSteps :=
  touch (.node jobId entry.1) .shared

/-- `get_job`: the read guard of the shard lives until the job is cloned out of it. -/
def getJobSteps (layouts : TableLayouts) (jobId : String) : LockSteps :=
  touch (.jobsShard (layouts.jobs.shardOf jobId)) .shared

/-- The calls of the tracker operations. -/
inductive Operation where
  | createJob (freshId : String) (manifest : Manifest) (policy : SchedulingPolicy)
  | getJob (jobId : String)
  | cancelJob (jobId : String)
  | updateNode (now : Nat) (jobId : String) (report : NodeReport)
  | getPeers (jobId requesterId requesterRack : String) (chunkIndex : UInt32) (topN : UInt64)
  | snapshot (jobId : String) (now : Nat)
  | allJobSnapshots (now : Nat)
  | evictStaleNodes (now : Nat) (timeoutSecs : UInt64)

/-- A lookup in the bitmap of the node panics and ends the iteration. -/
def lookupPanics (requesterId : String) (chunkIndex : UInt32) (entry : String × NodeState) : Bool :=
  (Scheduler.eligible requesterId chunkIndex entry.2).panic?.isSome

/-- The filter of `rarity_first` reads the node once, and the map behind it a second time. -/
def rarityFirstSteps (layout : Layout String NodeState) (jobId : String) (job : Job)
    (requesterId : String) (chunkIndex : UInt32) : LockSteps :=
  scanNodes layout jobId job (lookupPanics requesterId chunkIndex) fun entry =>
    readNode jobId entry ++
      if (Scheduler.eligible requesterId chunkIndex entry.2).holds then readNode jobId entry else []

/-- The loop body of `topology_aware` holds one read guard. -/
def topologyAwareSteps (layout : Layout String NodeState) (jobId : String) (job : Job)
    (requesterId : String) (chunkIndex : UInt32) : LockSteps :=
  scanNodes layout jobId job (lookupPanics requesterId chunkIndex) (readNode jobId)

/-- `Job::snapshot`: the nodes, then the status. -/
def snapshotSteps (layout : Layout String NodeState) (jobId : String) (job : Job) : LockSteps :=
  scanNodes layout jobId job (fun _ => false) (readNode jobId) ++ touch (.status jobId) .shared

/-- The scan of `update_node` ends at the first incomplete node. -/
def completionScan (layout : Layout String NodeState) (jobId : String) (job : Job) : LockSteps :=
  scanNodes layout jobId job (fun entry => !entry.2.bitmap.isComplete) (readNode jobId)

/-- `update_node` after the job is found. The entry of the node table and the write guard of the node
live to the end of the body, so the scan runs while both are held. -/
def updateNodeSteps (layout : Layout String NodeState) (jobId : String) (job : Job) (now : Nat)
    (report : NodeReport) : LockSteps :=
  let shard := LockId.nodesShard jobId (layout.shardOf report.nodeId)
  let node := LockId.node jobId report.nodeId
  let scan :=
    if (1.0 : Float32) ≤ (job.reportedState now report).bitmap.completionRatio then
      completionScan layout jobId (job.withReport now report) ++
        if (job.withReport now report).allNodesComplete layout then touch (.status jobId) .exclusive
        else []
    else []
  .acquire shard .exclusive ::
    (.acquire node .exclusive :: scan ++ [.release node .exclusive]) ++
    [.release shard .exclusive]

/-- `retain`: shard after shard is write-locked, and the predicate reads every node of it. -/
def retainSteps (layout : Layout String NodeState) (jobId : String) (job : Job) : LockSteps :=
  (List.range layout.shardCount).flatMap fun s =>
    .acquire (.nodesShard jobId s) .exclusive ::
      (layout.shard job.nodes s).flatMap (readNode jobId) ++
      [.release (.nodesShard jobId s) .exclusive]

namespace Operation

/-- The lock steps of a call in a state. -/
def trace (layouts : TableLayouts) (tracker : Tracker) : Operation → LockSteps
  | .createJob freshId _ _ => touch (.jobsShard (layouts.jobs.shardOf freshId)) .exclusive
  | .getJob jobId => getJobSteps layouts jobId
  | .cancelJob jobId =>
      getJobSteps layouts jobId ++
        match tracker.jobs.get? jobId with
        | some _ => touch (.status jobId) .exclusive
        | none => []
  | .updateNode now jobId report =>
      getJobSteps layouts jobId ++
        match tracker.jobs.get? jobId with
        | some job => updateNodeSteps (layouts.nodes jobId) jobId job now report
        | none => []
  | .getPeers jobId requesterId _ chunkIndex _ =>
      getJobSteps layouts jobId ++
        match tracker.jobs.get? jobId with
        | some job =>
            match job.policy with
            | .rarityFirst =>
                rarityFirstSteps (layouts.nodes jobId) jobId job requesterId chunkIndex
            | .topologyAware =>
                topologyAwareSteps (layouts.nodes jobId) jobId job requesterId chunkIndex
        | none => []
  | .snapshot jobId _ =>
      getJobSteps layouts jobId ++
        match tracker.jobs.get? jobId with
        | some job => snapshotSteps (layouts.nodes jobId) jobId job
        | none => []
  | .allJobSnapshots _ =>
      scanJobs layouts.jobs tracker fun entry =>
        snapshotSteps (layouts.nodes entry.1) entry.1 entry.2
  | .evictStaleNodes _ _ =>
      scanJobs layouts.jobs tracker fun entry =>
        retainSteps (layouts.nodes entry.1) entry.1 entry.2

/-- The tracker after a call that runs to its end. -/
def apply (layouts : TableLayouts) (tracker : Tracker) : Operation → Tracker
  | .createJob freshId manifest policy => (tracker.createJob freshId manifest policy).2
  | .getJob _ => tracker
  | .cancelJob jobId =>
      match tracker.cancelJob jobId with
      | .ok after => after
      | .error _ => tracker
  | .updateNode now jobId report =>
      match tracker.updateNode layouts now jobId report with
      | .ok after => after
      | .error _ => tracker
  | .getPeers jobId requesterId requesterRack chunkIndex topN =>
      match tracker.getPeers layouts jobId requesterId requesterRack chunkIndex topN with
      | .ok (.ok (_, after)) => after
      | _ => tracker
  | .snapshot _ _ => tracker
  | .allJobSnapshots _ => tracker
  | .evictStaleNodes now timeoutSecs => tracker.evictStaleNodes now timeoutSecs

end Operation

/-- One call under locks: it is over when its steps ran and every guard is dropped; a call that waits
for itself never ends. -/
def lockedStep (layouts : TableLayouts) (tracker : Tracker) (operation : Operation) :
    Option Tracker :=
  match performAll [] (operation.trace layouts tracker) with
  | some [] => some (operation.apply layouts tracker)
  | _ => none

end ModelDistribution
