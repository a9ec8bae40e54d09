/-
Module: ModelDistribution.Proofs.LockSafety
Layer: Proofs
Purpose: Which tracker calls wait for themselves. Every operation but one gives back exactly the
  guards it takes; `update_node` scans the node table while it holds the shard of its own node, and
  blocks there unless the gate on the ratio or an incomplete node in an earlier shard keeps the scan
  away from that shard.
Imports: ModelDistribution.Proofs.TrackerInvariants, ModelDistribution.Tracker.Locks
Trusted boundary: none
Main exports: ScanStaysAway, trace_runs_iff, lockedRun_iff
-/
import ModelDistribution.Proofs.TrackerInvariants
import ModelDistribution.Tracker.Locks

namespace ModelDistribution

open Foundation

/-- A heartbeat whose scan never reaches the shard of its own node: its ratio stays below one, or a
shard that comes earlier has an incomplete node. -/
def ScanStaysAway (layouts : TableLayouts) (tracker : Tracker) : Operation → Prop
  | .updateNode _ jobId report =>
      ∀ job, tracker.jobs.get? jobId = some job →
        ¬ (1.0 : Float32) ≤
            (ChunkBitmap.fromBytes report.bitmapBytes job.manifest.chunkCount).completionRatio ∨
          ∃ nodeId state, (nodeId, state) ∈ job.nodes.entries ∧
            (layouts.nodes jobId).shardOf nodeId < (layouts.nodes jobId).shardOf report.nodeId ∧
            state.bitmap.isComplete = false
  | _ => True

/-! ### Steps that give back their guards -/

theorem mem_of_mem_visited {α : Type} {halts : α → Bool} {x : α} :
    ∀ {xs : List α}, x ∈ visited halts xs → x ∈ xs
  | [], h => h
  | y :: ys, h => by
      unfold visited at h
      split at h
      · rw [List.mem_singleton.mp h]
        simp
      · rcases List.mem_cons.mp h with rfl | later
        · simp
        · exact List.mem_cons_of_mem y (mem_of_mem_visited later)

theorem touch_balanced {held : List (LockId × LockMode)} {lock : LockId} {mode : LockMode}
    (free : Free held lock mode) : Balanced held (touch lock mode) :=
  balanced_touch free

section Scans

variable {layout : Layout String NodeState} {jobId : String} {job : Job}
  {held : List (LockId × LockMode)} {halts : String × NodeState → Bool}
  {visit : String × NodeState → LockSteps}

/-- Iterating over a node table whose shards are free, with balanced visits, is balanced. -/
theorem scanNodes_balanced (shards : ∀ s, Free held (.nodesShard jobId s) .shared)
    (visits : ∀ s entry, Balanced ((.nodesShard jobId s, .shared) :: held) (visit entry)) :
    Balanced held (scanNodes layout jobId job halts visit) := by
  apply balanced_scan
  · intro s _
    exact shards s
  · intro s _
    apply balanced_flatMap
    intro entry _
    exact visits s entry

/-- Reading a node is balanced under guards on no node at all. -/
theorem readNode_balanced {entry : String × NodeState}
    (free : Free held (.node jobId entry.1) .shared) : Balanced held (readNode jobId entry) :=
  touch_balanced free

theorem rarityFirstSteps_balanced (requesterId : String) (chunkIndex : UInt32) :
    Balanced [] (rarityFirstSteps layout jobId job requesterId chunkIndex) := by
  apply scanNodes_balanced
  · intro s
    exact free_nil _ _
  · intro s entry
    have read : Balanced [(LockId.nodesShard jobId s, .shared)] (readNode jobId entry) :=
      readNode_balanced (free_cons_of_ne (by simp) (free_nil _ _))
    apply read.append
    split
    · exact read
    · exact balanced_nil _

theorem topologyAwareSteps_balanced (requesterId : String) (chunkIndex : UInt32) :
    Balanced [] (topologyAwareSteps layout jobId job requesterId chunkIndex) := by
  apply scanNodes_balanced
  · intro s
    exact free_nil _ _
  · intro s entry
    exact readNode_balanced (free_cons_of_ne (by simp) (free_nil _ _))

/-- A snapshot is balanced under guards on job shards only. -/
theorem snapshotSteps_balanced (jobsHeld : ∀ guard ∈ held, ∃ s, guard.1 = .jobsShard s) :
    Balanced held (snapshotSteps layout jobId job) := by
  have other : ∀ lock mode, (∀ s, lock ≠ .jobsShard s) → Free held lock mode := by
    intro lock mode different guard mem same
    obtain ⟨s, isJobs⟩ := jobsHeld guard mem
    exact absurd (same.symm.trans isJobs) (different s)
  apply Balanced.append
  · apply scanNodes_balanced
    · intro s
      exact other _ _ (by simp)
    · intro s entry
      exact readNode_balanced (free_cons_of_ne (by simp) (other _ _ (by simp)))
  · exact touch_balanced (other _ _ (by simp))

theorem retainSteps_balanced (jobsHeld : ∀ guard ∈ held, ∃ s, guard.1 = .jobsShard s) :
    Balanced held (retainSteps layout jobId job) := by
  have other : ∀ lock mode, (∀ s, lock ≠ .jobsShard s) → Free held lock mode := by
    intro lock mode different guard mem same
    obtain ⟨s, isJobs⟩ := jobsHeld guard mem
    exact absurd (same.symm.trans isJobs) (different s)
  apply balanced_flatMap
  intro s _
  apply balanced_bracket
  · exact other _ _ (by simp)
  · apply balanced_flatMap
    intro entry _
    exact readNode_balanced (free_cons_of_ne (by simp) (other _ _ (by simp)))

end Scans

theorem scanJobs_balanced {layout : Layout String Job} {tracker : Tracker}
    {visit : String × Job → LockSteps}
    (visits : ∀ s entry, Balanced [(.jobsShard s, .shared)] (visit entry)) :
    Balanced [] (scanJobs layout tracker visit) := by
  apply balanced_scan
  · intro s _
    exact free_nil _ _
  · intro s _
    apply balanced_flatMap
    intro entry _
    exact visits s entry

/-! ### The heartbeat -/

section Heartbeat

variable (layout : Layout String NodeState) (jobId : String) (job : Job) (now : Nat)
  (report : NodeReport)

/-- The two guards that live to the end of `update_node`. -/
def heartbeatHeld : List (LockId × LockMode) :=
  [(.node jobId report.nodeId, .exclusive),
   (.nodesShard jobId (layout.shardOf report.nodeId), .exclusive)]

/-- Every shard but the one of the node is free during the scan. -/
theorem free_earlierShard {s : Nat} (different : s ≠ layout.shardOf report.nodeId) :
    Free (heartbeatHeld layout jobId report) (.nodesShard jobId s) .shared := by
  apply free_cons_of_ne
  · simp
  · apply free_cons_of_ne
    · simp [different.symm]
    · exact free_nil _ _

/-- The visits in an earlier shard are balanced: no node there is the one that is write-locked. -/
theorem earlierVisits_balanced {s : Nat} (different : s ≠ layout.shardOf report.nodeId) :
    Balanced ((.nodesShard jobId s, .shared) :: heartbeatHeld layout jobId report)
      ((visited (fun entry => !entry.2.bitmap.isComplete) (layout.shard job.nodes s)).flatMap
        (readNode jobId)) := by
  apply balanced_flatMap
  intro entry mem
  have inShard := (Layout.mem_shard.mp (mem_of_mem_visited mem)).2
  have otherNode : entry.1 ≠ report.nodeId := by
    intro same
    rw [same] at inShard
    exact different inShard.symm
  apply readNode_balanced
  apply free_cons_of_ne
  · simp
  · apply free_cons_of_ne
    · simp [otherNode.symm]
    · apply free_cons_of_ne
      · simp
      · exact free_nil _ _

/-- An incomplete node in an earlier shard ends the scan there, with all its guards dropped. -/
theorem completionScan_balanced {s : Nat} (earlier : s < layout.shardOf report.nodeId)
    {entry : String × NodeState} (mem : entry ∈ layout.shard job.nodes s)
    (incomplete : entry.2.bitmap.isComplete = false) :
    Balanced (heartbeatHeld layout jobId report) (completionScan layout jobId job) := by
  apply balanced_scan_of_stop (Nat.le_of_lt (layout.shardOf_lt report.nodeId))
  · intro t before
    exact free_earlierShard layout jobId report (Nat.ne_of_lt before)
  · intro t before
    exact earlierVisits_balanced layout jobId job report (Nat.ne_of_lt before)
  · refine ⟨s, earlier, ?_⟩
    rw [List.any_eq_true]
    exact ⟨entry, mem, by simp [incomplete]⟩

/-- With only complete nodes in the earlier shards the scan reaches the shard of the node, whose
write guard the call itself holds. -/
theorem completionScan_blocks
    (complete : ∀ s < layout.shardOf report.nodeId, ∀ entry ∈ layout.shard job.nodes s,
      entry.2.bitmap.isComplete = true) :
    performAll (heartbeatHeld layout jobId report) (completionScan layout jobId job) = none := by
  apply scan_blocks (layout.shardOf_lt report.nodeId)
  · intro t before
    exact free_earlierShard layout jobId report (Nat.ne_of_lt before)
  · intro t before
    exact earlierVisits_balanced layout jobId job report (Nat.ne_of_lt before)
  · intro t before
    rw [List.any_eq_false]
    intro entry mem
    simp [complete t before entry mem]
  · simp [heartbeatHeld]

/-- In the earlier shards the table after the heartbeat is the table before it. -/
theorem mem_earlierShard {s : Nat} (earlier : s < layout.shardOf report.nodeId) (nodeId : String)
    (state : NodeState) :
    (nodeId, state) ∈ layout.shard (job.withReport now report).nodes s ↔
      (nodeId, state) ∈ job.nodes.entries ∧ layout.shardOf nodeId = s := by
  rw [Layout.mem_shard, Job.withReport_nodes, ShardedMap.mem_insert]
  constructor
  · intro after
    rcases after with ⟨⟨rfl, _⟩ | ⟨_, mem⟩, inShard⟩
    · exact absurd inShard (Nat.ne_of_gt earlier)
    · exact ⟨mem, inShard⟩
  · intro before
    rcases before with ⟨mem, inShard⟩
    refine ⟨.inr ⟨?_, mem⟩, inShard⟩
    intro same
    rw [same] at inShard
    exact Nat.lt_irrefl _ (inShard ▸ earlier)

/-- What is balanced under the two guards is balanced between taking and dropping them. -/
theorem heartbeatBracket_balanced {inner : LockSteps}
    (balanced : Balanced (heartbeatHeld layout jobId report) inner) :
    Balanced []
      (.acquire (.nodesShard jobId (layout.shardOf report.nodeId)) .exclusive ::
        (.acquire (.node jobId report.nodeId) .exclusive :: inner ++
          [.release (.node jobId report.nodeId) .exclusive]) ++
        [.release (.nodesShard jobId (layout.shardOf report.nodeId)) .exclusive]) := by
  apply balanced_bracket (free_nil _ _)
  apply balanced_bracket (free_cons_of_ne (by simp) (free_nil _ _))
  exact balanced

/-- Below a ratio of one there is no scan. -/
theorem updateNodeSteps_below
    (below : ¬ (1.0 : Float32) ≤
      (ChunkBitmap.fromBytes report.bitmapBytes job.manifest.chunkCount).completionRatio) :
    performAll [] (updateNodeSteps layout jobId job now report) = some [] := by
  apply heartbeatBracket_balanced
  simp only [Job.reportedState_bitmap, below, if_false]
  exact balanced_nil _

/-- An incomplete node in an earlier shard ends the scan in time. -/
theorem updateNodeSteps_stops {nodeId : String} {state : NodeState}
    (gate : (1.0 : Float32) ≤
      (ChunkBitmap.fromBytes report.bitmapBytes job.manifest.chunkCount).completionRatio)
    (mem : (nodeId, state) ∈ job.nodes.entries)
    (earlier : layout.shardOf nodeId < layout.shardOf report.nodeId)
    (incomplete : state.bitmap.isComplete = false) :
    performAll [] (updateNodeSteps layout jobId job now report) = some [] := by
  have inShard := (mem_earlierShard layout job now report earlier nodeId state).mpr ⟨mem, rfl⟩
  have notAll : (job.withReport now report).allNodesComplete layout = false := by
    rw [← Bool.not_eq_true, Job.allNodesComplete_iff]
    intro all
    have done := all nodeId state (Layout.mem_shard.mp inShard).1
    rw [incomplete] at done
    cases done
  apply heartbeatBracket_balanced
  simp only [Job.reportedState_bitmap, gate, if_true, notAll, Bool.false_eq_true, if_false,
    List.append_nil]
  exact completionScan_balanced layout jobId _ report earlier inShard incomplete

/-- Without one the call waits for itself. -/
theorem updateNodeSteps_blocks
    (gate : (1.0 : Float32) ≤
      (ChunkBitmap.fromBytes report.bitmapBytes job.manifest.chunkCount).completionRatio)
    (complete : ∀ nodeId state, (nodeId, state) ∈ job.nodes.entries →
      layout.shardOf nodeId < layout.shardOf report.nodeId → state.bitmap.isComplete = true) :
    performAll [] (updateNodeSteps layout jobId job now report) = none := by
  have inShards : ∀ s < layout.shardOf report.nodeId,
      ∀ entry ∈ layout.shard (job.withReport now report).nodes s,
      entry.2.bitmap.isComplete = true := by
    intro s earlier entry inShard
    rcases (mem_earlierShard layout job now report earlier entry.1 entry.2).mp inShard with
      ⟨mem, shardEq⟩
    exact complete entry.1 entry.2 mem (shardEq.symm ▸ earlier)
  have stuck := completionScan_blocks layout jobId (job.withReport now report) report inShards
  unfold updateNodeSteps
  simp only [Job.reportedState_bitmap, gate, if_true]
  -- Both guards are taken before the scan.
  rw [List.cons_append, performAll_cons (perform_acquire (free_nil _ _)), List.cons_append,
    List.cons_append,
    performAll_cons (perform_acquire (free_cons_of_ne (by simp) (free_nil _ _)))]
  apply performAll_blocked_append
  apply performAll_blocked_append
  apply performAll_blocked_append
  exact stuck

/-- The steps of a heartbeat to a known job run to their end, with every guard dropped, exactly when
the scan stays away from the shard of the node, and otherwise stop inside the call. -/
theorem updateNodeSteps_runs_iff :
    (performAll [] (updateNodeSteps layout jobId job now report) = some [] ↔
      ¬ (1.0 : Float32) ≤
          (ChunkBitmap.fromBytes report.bitmapBytes job.manifest.chunkCount).completionRatio ∨
        ∃ nodeId state, (nodeId, state) ∈ job.nodes.entries ∧
          layout.shardOf nodeId < layout.shardOf report.nodeId ∧
          state.bitmap.isComplete = false) ∧
    (performAll [] (updateNodeSteps layout jobId job now report) = some [] ∨
      performAll [] (updateNodeSteps layout jobId job now report) = none) := by
  by_cases gate : (1.0 : Float32) ≤
      (ChunkBitmap.fromBytes report.bitmapBytes job.manifest.chunkCount).completionRatio
  · by_cases stops : ∃ nodeId state, (nodeId, state) ∈ job.nodes.entries ∧
        layout.shardOf nodeId < layout.shardOf report.nodeId ∧ state.bitmap.isComplete = false
    · rcases stops with ⟨nodeId, state, mem, earlier, incomplete⟩
      have runs := updateNodeSteps_stops layout jobId job now report gate mem earlier incomplete
      exact ⟨iff_of_true runs (.inr ⟨nodeId, state, mem, earlier, incomplete⟩), .inl runs⟩
    · have complete : ∀ nodeId state, (nodeId, state) ∈ job.nodes.entries →
          layout.shardOf nodeId < layout.shardOf report.nodeId →
          state.bitmap.isComplete = true := by
        intro nodeId state mem earlier
        by_contra incomplete
        exact stops ⟨nodeId, state, mem, earlier, by simpa using incomplete⟩
      have blocks := updateNodeSteps_blocks layout jobId job now report gate complete
      refine ⟨iff_of_false ?_ ?_, .inr blocks⟩
      · rw [blocks]
        simp
      · intro away
        rcases away with below | found
        · exact below gate
        · exact stops found
  · have runs := updateNodeSteps_below layout jobId job now report gate
    exact ⟨iff_of_true runs (.inl gate), .inl runs⟩

end Heartbeat

/-! ### All operations -/

/-- A lookup followed by balanced steps on the found job is balanced. -/
theorem getJobSteps_then (layouts : TableLayouts) (jobId : String) (rest : LockSteps) :
    performAll [] (getJobSteps layouts jobId ++ rest) = performAll [] rest :=
  performAll_of_balanced (touch_balanced (free_nil _ _))

/-- The steps of a call run to their end with all guards dropped exactly when it is not a heartbeat
whose scan meets its own write guard; otherwise they stop inside the call. -/
theorem trace_runs_iff (layouts : TableLayouts) (tracker : Tracker) (operation : Operation) :
    (performAll [] (operation.trace layouts tracker) = some [] ↔
      ScanStaysAway layouts tracker operation) ∧
    (performAll [] (operation.trace layouts tracker) = some [] ∨
      performAll [] (operation.trace layouts tracker) = none) := by
  have always : performAll [] (operation.trace layouts tracker) = some [] →
      ScanStaysAway layouts tracker operation →
      (performAll [] (operation.trace layouts tracker) = some [] ↔
        ScanStaysAway layouts tracker operation) ∧
      (performAll [] (operation.trace layouts tracker) = some [] ∨
        performAll [] (operation.trace layouts tracker) = none) := by
    intro runs guard
    exact ⟨iff_of_true runs guard, .inl runs⟩
  cases operation with
  | createJob freshId manifest policy =>
      exact always (touch_balanced (free_nil _ _)) trivial
  | getJob jobId => exact always (touch_balanced (free_nil _ _)) trivial
  | cancelJob jobId =>
      refine always ?_ trivial
      rw [Operation.trace, getJobSteps_then]
      split
      · exact touch_balanced (free_nil _ _)
      · rfl
  | updateNode now jobId report =>
      rw [Operation.trace, getJobSteps_then]
      cases found : tracker.jobs.get? jobId with
      | none =>
          have vacuous : ScanStaysAway layouts tracker (.updateNode now jobId report) := by
            intro job found'
            rw [found] at found'
            cases found'
          exact ⟨iff_of_true rfl vacuous, .inl rfl⟩
      | some job =>
          have steps := updateNodeSteps_runs_iff (layouts.nodes jobId) jobId job now report
          refine ⟨steps.1.trans ?_, steps.2⟩
          constructor
          · intro guard job' found'
            rw [found] at found'
            cases found'
            exact guard
          · intro guard
            exact guard job found
  | getPeers jobId requesterId requesterRack chunkIndex topN =>
      refine always ?_ trivial
      rw [Operation.trace, getJobSteps_then]
      split
      · split
        · exact rarityFirstSteps_balanced requesterId chunkIndex
        · exact topologyAwareSteps_balanced requesterId chunkIndex
      · rfl
  | snapshot jobId now =>
      refine always ?_ trivial
      rw [Operation.trace, getJobSteps_then]
      split
      · exact snapshotSteps_balanced (by simp)
      · rfl
  | allJobSnapshots now =>
      refine always ?_ trivial
      exact scanJobs_balanced fun s entry => snapshotSteps_balanced (by simp)
  | evictStaleNodes now timeoutSecs =>
      refine always ?_ trivial
      exact scanJobs_balanced fun s entry => retainSteps_balanced (by simp)

/-- A sequence of calls from the empty tracker runs to its end, every call dropping all its guards,
exactly when every heartbeat in it keeps its scan away from the shard of its own node. -/
theorem lockedRun_iff (layouts : TableLayouts) (operations : List Operation) :
    (∃ final, runEvents (lockedStep layouts) .new operations = some final) ↔
      ∀ pre operation, pre ++ [operation] <+: operations →
        ScanStaysAway layouts (pre.foldl (Operation.apply layouts) .new) operation := by
  generalize Tracker.new = start
  induction operations generalizing start with
  | nil => simp
  | cons operation operations ih =>
      rw [forall_step_cons]
      have exactly := (trace_runs_iff layouts start operation).1
      by_cases guard : ScanStaysAway layouts start operation
      · have stepped : lockedStep layouts start operation =
            some (operation.apply layouts start) := by
          rw [lockedStep, exactly.mpr guard]
        simp only [runEvents, stepped, Option.bind_some, List.foldl_nil, guard, true_and,
          List.foldl_cons]
        exact ih _
      · have stuck : lockedStep layouts start operation = none := by
          rcases (trace_runs_iff layouts start operation).2 with runs | blocked
          · exact absurd (exactly.mp runs) guard
          · rw [lockedStep, blocked]
        simp [runEvents, stuck, guard]

/-- The first heartbeat of a complete node never returns: it waits for the shard of its own entry. -/
theorem complete_heartbeat_blocks :
    runEvents (lockedStep sampleServer.layouts) .new
      [.createJob "j" sampleManifest .rarityFirst,
       .updateNode 1 "j"
        { nodeId := "n", rackId := "rack-A", peerAddr := "n:7100", bitmapBytes := [192],
          uploadBwMbps := 8000 }] = none := by
  rw [← Option.isNone_iff_eq_none]
  decide +kernel

end ModelDistribution
