/-
Module: ModelDistribution.Proofs.ConcurrentCalls
Layer: Proofs
Purpose: Tracker calls on many threads. All operations take their locks in one order: shards of the
  job table, shards of a node table, nodes, status. Only the scan of a heartbeat goes against it, so
  calls without such a scan never deadlock, and one heartbeat whose scan meets its own guard stops
  every later call that comes to its shard.
Imports: Mathlib.Data.Prod.Lex, ModelDistribution.Foundation.LockOrder,
  ModelDistribution.Proofs.LockSafety
Trusted boundary: none
Main exports: LockId.rank, Operation.ScanFree, trace_rising, calls_never_deadlock, Operation.Meets,
  blocked_heartbeat_freezes
-/
import Mathlib.Data.Prod.Lex
import ModelDistribution.Foundation.LockOrder
import ModelDistribution.Proofs.LockSafety

namespace ModelDistribution

open Foundation

/-! ### The order of the locks -/

/-- The place of a lock in the order. -/
def LockId.rank : LockId → ℕ ×ₗ ℕ
  | .jobsShard s => toLex (0, s)
  | .nodesShard _ s => toLex (1, s)
  | .node _ _ => toLex (2, 0)
  | .status _ => toLex (3, 0)

/-- A heartbeat without a scan, or another operation. -/
def Operation.ScanFree (tracker : Tracker) : Operation → Prop
  | .updateNode _ jobId report =>
      ∀ job, tracker.jobs.get? jobId = some job →
        ¬ (1.0 : Float32) ≤
          (ChunkBitmap.fromBytes report.bitmapBytes job.manifest.chunkCount).completionRatio
  | _ => True

section Rank

variable {s t : Nat} {jobId other nodeId : String}

@[simp] theorem rank_jobsShard_lt : (LockId.jobsShard s).rank < (LockId.jobsShard t).rank ↔ s < t := by
  simp [LockId.rank, Prod.Lex.toLex_lt_toLex]

@[simp] theorem rank_nodesShard_lt :
    (LockId.nodesShard jobId s).rank < (LockId.nodesShard other t).rank ↔ s < t := by
  simp [LockId.rank, Prod.Lex.toLex_lt_toLex]

@[simp] theorem jobsShard_lt_nodesShard :
    (LockId.jobsShard s).rank < (LockId.nodesShard jobId t).rank := by
  simp [LockId.rank, Prod.Lex.toLex_lt_toLex]

@[simp] theorem jobsShard_lt_node : (LockId.jobsShard s).rank < (LockId.node jobId nodeId).rank := by
  simp [LockId.rank, Prod.Lex.toLex_lt_toLex]

@[simp] theorem jobsShard_lt_status : (LockId.jobsShard s).rank < (LockId.status jobId).rank := by
  simp [LockId.rank, Prod.Lex.toLex_lt_toLex]

@[simp] theorem nodesShard_lt_node :
    (LockId.nodesShard jobId s).rank < (LockId.node other nodeId).rank := by
  simp [LockId.rank, Prod.Lex.toLex_lt_toLex]

end Rank

/-! ### Every operation goes up the order -/

section Rising

variable {layout : Layout String NodeState} {jobId : String} {job : Job}
  {held : List (LockId × LockMode)} {halts : String × NodeState → Bool}
  {visit : String × NodeState → LockSteps}

theorem touch_rising {lock : LockId} {mode : LockMode} (above : Below LockId.rank held lock) :
    Rising LockId.rank held (touch lock mode) held :=
  rising_touch above

theorem scanNodes_rising (above : ∀ s, Below LockId.rank held (.nodesShard jobId s))
    (visits : ∀ s entry, Rising LockId.rank ((.nodesShard jobId s, .shared) :: held) (visit entry)
      ((.nodesShard jobId s, .shared) :: held)) :
    Rising LockId.rank held (scanNodes layout jobId job halts visit) held := by
  apply rising_scan
  · intro s t lt
    exact rank_nodesShard_lt.mpr lt
  · exact above
  · intro s
    apply rising_flatMap
    intro entry _
    exact visits s entry

/-- A node is read under the shard of its table. -/
theorem readNode_rising {s : Nat} {mode : LockMode} {entry : String × NodeState}
    (above : Below LockId.rank held (.node jobId entry.1)) :
    Rising LockId.rank ((.nodesShard jobId s, mode) :: held) (readNode jobId entry)
      ((.nodesShard jobId s, mode) :: held) :=
  touch_rising (below_cons.mpr ⟨by simp, above⟩)

theorem rarityFirstSteps_rising (requesterId : String) (chunkIndex : UInt32) :
    Rising LockId.rank [] (rarityFirstSteps layout jobId job requesterId chunkIndex) [] := by
  apply scanNodes_rising
  · intro s
    exact below_nil
  · intro s entry
    apply rising_append (readNode_rising below_nil)
    split
    · exact readNode_rising below_nil
    · rfl

theorem topologyAwareSteps_rising (requesterId : String) (chunkIndex : UInt32) :
    Rising LockId.rank [] (topologyAwareSteps layout jobId job requesterId chunkIndex) [] := by
  apply scanNodes_rising
  · intro s
    exact below_nil
  · intro s entry
    exact readNode_rising below_nil

/-- Only guards on the job table are held while a job is looked through. -/
theorem snapshotSteps_rising (outer : ∀ guard ∈ held, ∃ s, guard.1 = .jobsShard s) :
    Rising LockId.rank held (snapshotSteps layout jobId job) held := by
  have above : ∀ lock : LockId, (∀ s, (LockId.jobsShard s).rank < lock.rank) →
      Below LockId.rank held lock := by
    intro lock higher guard mem
    rcases outer guard mem with ⟨s, same⟩
    rw [same]
    exact higher s
  apply rising_append
  · apply scanNodes_rising
    · intro s
      exact above _ (by simp)
    · intro s entry
      exact readNode_rising (above _ (by simp))
  · exact touch_rising (above _ (by simp))

theorem retainSteps_rising (outer : ∀ guard ∈ held, ∃ s, guard.1 = .jobsShard s) :
    Rising LockId.rank held (retainSteps layout jobId job) held := by
  have above : ∀ lock : LockId, (∀ s, (LockId.jobsShard s).rank < lock.rank) →
      Below LockId.rank held lock := by
    intro lock higher guard mem
    rcases outer guard mem with ⟨s, same⟩
    rw [same]
    exact higher s
  apply rising_flatMap
  intro s _
  apply rising_bracket (above _ (by simp))
  apply rising_flatMap
  intro entry _
  exact readNode_rising (above _ (by simp))

theorem scanJobs_rising {layout : Layout String Job} {tracker : Tracker}
    {visit : String × Job → LockSteps}
    (visits : ∀ s entry, Rising LockId.rank [(.jobsShard s, .shared)] (visit entry)
      [(.jobsShard s, .shared)]) :
    Rising LockId.rank [] (scanJobs layout tracker visit) [] := by
  apply rising_scan
  · intro s t lt
    exact rank_jobsShard_lt.mpr lt
  · intro s
    exact below_nil
  · intro s
    apply rising_flatMap
    intro entry _
    exact visits s entry

/-- A heartbeat without a scan takes the shard and then the node. -/
theorem updateNodeSteps_rising {now : Nat} {report : NodeReport}
    (below : ¬ (1.0 : Float32) ≤
      (ChunkBitmap.fromBytes report.bitmapBytes job.manifest.chunkCount).completionRatio) :
    Rising LockId.rank [] (updateNodeSteps layout jobId job now report) [] := by
  unfold updateNodeSteps
  simp only [Job.reportedState_bitmap, below, if_false]
  apply rising_bracket below_nil
  apply rising_bracket (below_cons.mpr ⟨by simp, below_nil⟩)
  rfl

theorem trace_rising (layouts : TableLayouts) {tracker : Tracker} {operation : Operation}
    (scanFree : operation.ScanFree tracker) :
    Rising LockId.rank [] (operation.trace layouts tracker) [] := by
  have lookup : ∀ jobId, Rising LockId.rank [] (getJobSteps layouts jobId) [] := fun jobId =>
    touch_rising below_nil
  cases operation with
  | createJob freshId manifest policy => exact touch_rising below_nil
  | getJob jobId => exact lookup jobId
  | cancelJob jobId =>
      apply rising_append (lookup jobId)
      split
      · exact touch_rising below_nil
      · rfl
  | updateNode now jobId report =>
      apply rising_append (lookup jobId)
      split
      · rename_i job found
        exact updateNodeSteps_rising (scanFree job found)
      · rfl
  | getPeers jobId requesterId requesterRack chunkIndex topN =>
      apply rising_append (lookup jobId)
      split
      · split
        · exact rarityFirstSteps_rising requesterId chunkIndex
        · exact topologyAwareSteps_rising requesterId chunkIndex
      · rfl
  | snapshot jobId now =>
      apply rising_append (lookup jobId)
      split
      · exact snapshotSteps_rising (by simp)
      · rfl
  | allJobSnapshots now => exact scanJobs_rising fun s entry => snapshotSteps_rising (by simp)
  | evictStaleNodes now timeoutSecs =>
      exact scanJobs_rising fun s entry => retainSteps_rising (by simp)

end Rising

/-! ### No deadlock -/

/-- Threads that run calls without a scan, each over what it sees of the tables. -/
structure Orderly (tasks : List (LockTask LockId)) : Prop where
  rising : AllRising LockId.rank tasks
  exclusive : Exclusive tasks

/-- The event starts no thread but one for a call without a scan, over tables as that thread sees
them. -/
def StartsScanFree (layouts : TableLayouts) (event : LockEvent LockId) : Prop :=
  ∀ trace, event = .call trace → ∃ tracker operation,
    Operation.ScanFree tracker operation ∧ trace = operation.trace layouts tracker

theorem orderly_step {layouts : TableLayouts} {tasks next : List (LockTask LockId)}
    {event : LockEvent LockId} (starts : StartsScanFree layouts event) (orderly : Orderly tasks)
    (stepped : lockStep tasks event = some next) : Orderly next := by
  cases event with
  | step k => exact ⟨allRising_step orderly.rising stepped, exclusive_step orderly.exclusive stepped⟩
  | call trace =>
      cases stepped
      rcases starts trace rfl with ⟨tracker, operation, scanFree, rfl⟩
      refine ⟨?_, exclusive_call orderly.exclusive⟩
      intro task mem
      rcases List.mem_append.mp mem with earlier | fresh
      · exact orderly.rising task earlier
      · rw [List.mem_singleton.mp fresh]
        exact trace_rising layouts scanFree

theorem orderly_run {layouts : TableLayouts} {tasks final : List (LockTask LockId)}
    {events : List (LockEvent LockId)} (starts : ∀ event ∈ events, StartsScanFree layouts event)
    (orderly : Orderly tasks) (ran : runEvents lockStep tasks events = some final) :
    Orderly final := by
  induction events generalizing tasks with
  | nil =>
      cases ran
      exact orderly
  | cons event events ih =>
      rcases runEvents_cons_eq_some.mp ran with ⟨next, stepped, rest⟩
      exact ih (fun other mem => starts other (List.mem_cons_of_mem event mem))
        (orderly_step (starts event List.mem_cons_self) orderly stepped) rest

/-- Tracker calls on any number of threads, in any interleaving, each over the tables as it sees them,
never deadlock unless one of them is a heartbeat that scans. In every state no two threads hold guards
that conflict; while a thread is not done, some thread can take its next step, and not as a reader that
goes ahead of a waiting writer; every schedule is bounded by the steps still to come; and some schedule
ends with every call done and every guard dropped. -/
theorem calls_never_deadlock (layouts : TableLayouts) (events : List (LockEvent LockId))
    (final : List (LockTask LockId)) (ran : runEvents lockStep [] events = some final)
    (starts : ∀ event ∈ events, StartsScanFree layouts event) :
    Exclusive final ∧
    ((∃ task ∈ final, task.rest ≠ []) →
      ∃ k next, stepTask final k = some next ∧ ¬ Barred final k) ∧
    (∀ schedule next, runEvents stepTask final schedule = some next →
      schedule.length ≤ remaining final) ∧
    ∃ schedule last, runEvents stepTask final schedule = some last ∧ Done last := by
  have empty : Orderly [] := by
    constructor
    · intro task mem
      cases mem
    · intro i j one other _ here
      cases here
  have orderly := orderly_run starts empty ran
  refine ⟨orderly.exclusive, rising_progress orderly.rising, ?_, rising_completes orderly.rising⟩
  intro schedule next ran
  have whole := remaining_run ran
  omega

/-- A listing has taken the first shard of the job table, and a new job waits for it. -/
def listingAndCreation : List (LockTask LockId) :=
  [{ held := [(.jobsShard 0, .shared)]
     rest := ((Operation.allJobSnapshots 0).trace sampleServer.layouts .new).tail },
   { held := [], rest := touch (.jobsShard 0) .exclusive }]

theorem calls_never_deadlock_sample :
    ∃ k next, stepTask listingAndCreation k = some next ∧ ¬ Barred listingAndCreation k := by
  have starts : ∀ event ∈ [.call ((Operation.allJobSnapshots 0).trace sampleServer.layouts .new),
      .step 0,
      .call ((Operation.createJob "" sampleManifest .rarityFirst).trace sampleServer.layouts .new)],
      StartsScanFree sampleServer.layouts event := by
    intro event mem trace isCall
    rw [isCall] at mem
    simp only [List.mem_cons, LockEvent.call.injEq, reduceCtorEq, List.not_mem_nil, or_false,
      false_or] at mem
    rcases mem with rfl | rfl
    · exact ⟨.new, .allJobSnapshots 0, trivial, rfl⟩
    · exact ⟨.new, .createJob "" sampleManifest .rarityFirst, trivial, rfl⟩
  have kept := calls_never_deadlock sampleServer.layouts _ listingAndCreation rfl starts
  apply kept.2.1
  exact ⟨_, List.mem_cons_of_mem _ List.mem_cons_self, by simp [touch]⟩

/-! ### Behind a heartbeat that waits for itself -/

/-- The call comes to the shard of the node table of the job: it reports a node of the shard, or goes
over all nodes of the job. -/
def Operation.Meets (layouts : TableLayouts) (tracker : Tracker) (jobId : String) (s : Nat) :
    Operation → Prop
  | .updateNode _ id report =>
      id = jobId ∧ (tracker.jobs.get? jobId).isSome ∧
        (layouts.nodes jobId).shardOf report.nodeId = s
  | .getPeers id requesterId _ chunkIndex _ =>
      id = jobId ∧ ∃ job, tracker.jobs.get? jobId = some job ∧
        ∀ entry ∈ job.nodes.entries, lookupPanics requesterId chunkIndex entry = false
  | .snapshot id _ => id = jobId ∧ (tracker.jobs.get? jobId).isSome
  | .allJobSnapshots _ => (tracker.jobs.get? jobId).isSome
  | .evictStaleNodes _ _ => (tracker.jobs.get? jobId).isSome
  | _ => False

section Freeze

variable {layout : Layout String NodeState} {jobId : String} {job : Job} {s : Nat}

/-- A scan that no entry ends takes the guard of every shard. -/
theorem acquire_mem_scanNodes {halts : String × NodeState → Bool}
    {visit : String × NodeState → LockSteps} (below : s < layout.shardCount)
    (walks : ∀ entry ∈ job.nodes.entries, halts entry = false) :
    .acquire (.nodesShard jobId s) .shared ∈ scanNodes layout jobId job halts visit := by
  apply mem_scanGuards
  · intro t _
    rw [List.any_eq_false]
    intro entry mem
    simp [walks entry (Layout.mem_shard.mp mem).1]
  · exact List.mem_range.mpr below
  · exact .inl rfl

theorem acquire_mem_snapshotSteps (below : s < layout.shardCount) :
    .acquire (.nodesShard jobId s) .shared ∈ snapshotSteps layout jobId job :=
  List.mem_append_left _ (acquire_mem_scanNodes below (by simp))

theorem acquire_mem_retainSteps (below : s < layout.shardCount) :
    .acquire (.nodesShard jobId s) .exclusive ∈ retainSteps layout jobId job :=
  List.mem_flatMap.mpr ⟨s, List.mem_range.mpr below, by simp⟩

/-- The steps for a job of the table are among the steps over all jobs. -/
theorem mem_scanJobs {layout : Layout String Job} {tracker : Tracker}
    {visit : String × Job → LockSteps} {action : LockAction LockId}
    (known : tracker.jobs.get? jobId = some job) (mem : action ∈ visit (jobId, job)) :
    action ∈ scanJobs layout tracker visit := by
  have inShard : (jobId, job) ∈ layout.shard tracker.jobs (layout.shardOf jobId) :=
    Layout.mem_shard.mpr ⟨ShardedMap.get?_eq_some_iff.mp known, rfl⟩
  apply mem_scanGuards
  · intro t _
    rfl
  · exact List.mem_range.mpr (layout.shardOf_lt jobId)
  · exact .inr (List.mem_flatMap.mpr ⟨(jobId, job), inShard, mem⟩)

/-- A call that comes to the shard takes it. -/
theorem acquire_of_meets {layouts : TableLayouts} {tracker : Tracker} {operation : Operation}
    (below : s < (layouts.nodes jobId).shardCount)
    (meets : operation.Meets layouts tracker jobId s) :
    ∃ mode, .acquire (.nodesShard jobId s) mode ∈ operation.trace layouts tracker := by
  cases operation with
  | createJob freshId manifest policy => cases meets
  | getJob id => cases meets
  | cancelJob id => cases meets
  | updateNode now id report =>
      rcases meets with ⟨rfl, known, rfl⟩
      rcases Option.isSome_iff_exists.mp known with ⟨job, known⟩
      simp only [Operation.trace, known]
      exact ⟨.exclusive, List.mem_append_right _ List.mem_cons_self⟩
  | getPeers id requesterId requesterRack chunkIndex topN =>
      rcases meets with ⟨rfl, job, known, walks⟩
      cases policy : job.policy with
      | rarityFirst =>
          simp only [Operation.trace, known, policy]
          exact ⟨.shared, List.mem_append_right _ (acquire_mem_scanNodes below walks)⟩
      | topologyAware =>
          simp only [Operation.trace, known, policy]
          exact ⟨.shared, List.mem_append_right _ (acquire_mem_scanNodes below walks)⟩
  | snapshot id now =>
      rcases meets with ⟨rfl, known⟩
      rcases Option.isSome_iff_exists.mp known with ⟨job, known⟩
      simp only [Operation.trace, known]
      exact ⟨.shared, List.mem_append_right _ (acquire_mem_snapshotSteps below)⟩
  | allJobSnapshots now =>
      rcases Option.isSome_iff_exists.mp meets with ⟨job, known⟩
      exact ⟨.shared, mem_scanJobs known (acquire_mem_snapshotSteps below)⟩
  | evictStaleNodes now timeoutSecs =>
      rcases Option.isSome_iff_exists.mp meets with ⟨job, known⟩
      exact ⟨.exclusive, mem_scanJobs known (acquire_mem_retainSteps below)⟩

/-- The scan of a heartbeat drops no write guard. -/
theorem completionScan_keeps (layout : Layout String NodeState) (jobId : String) (job : Job)
    (lock : LockId) : .release lock .exclusive ∉ completionScan layout jobId job := by
  intro mem
  rcases release_of_mem_scanGuards mem with shared | ⟨s, _, inBody⟩
  · cases shared
  · rcases List.mem_flatMap.mp inBody with ⟨entry, _, read⟩
    simp [readNode, touch] at read

/-- Where a heartbeat waits for itself it holds its shard for writing. -/
theorem updateNodeSteps_stop (now : Nat) {report : NodeReport}
    (gate : (1.0 : Float32) ≤
      (ChunkBitmap.fromBytes report.bitmapBytes job.manifest.chunkCount).completionRatio)
    (complete : ∀ nodeId state, (nodeId, state) ∈ job.nodes.entries →
      layout.shardOf nodeId < layout.shardOf report.nodeId → state.bitmap.isComplete = true) :
    ∃ front action rest middle, updateNodeSteps layout jobId job now report = front ++ action :: rest ∧
      performAll [] front = some middle ∧ action.perform middle = none ∧
      (.nodesShard jobId (layout.shardOf report.nodeId), .exclusive) ∈ middle := by
  have inShards : ∀ s < layout.shardOf report.nodeId,
      ∀ entry ∈ layout.shard (job.withReport now report).nodes s,
      entry.2.bitmap.isComplete = true := by
    intro s earlier entry inShard
    rcases (mem_earlierShard layout job now report earlier entry.1 entry.2).mp inShard with
      ⟨mem, rfl⟩
    exact complete entry.1 entry.2 mem earlier
  have scanBlocks := completionScan_blocks layout jobId (job.withReport now report) report inShards
  rcases stops_of_none scanBlocks with ⟨front, action, rest, middle, split, ran, stops⟩
  have held : (.nodesShard jobId (layout.shardOf report.nodeId), .exclusive) ∈ middle := by
    apply mem_of_performAll _ _ ran
    · simp [heartbeatHeld]
    · intro dropped
      apply completionScan_keeps layout jobId (job.withReport now report)
      rw [split]
      exact List.mem_append_left _ dropped
  have taken : performAll []
      (.acquire (.nodesShard jobId (layout.shardOf report.nodeId)) .exclusive ::
        .acquire (.node jobId report.nodeId) .exclusive :: front) = some middle := by
    rw [performAll_cons (perform_acquire (free_nil _ _)),
      performAll_cons (perform_acquire (free_cons_of_ne (by simp) (free_nil _ _)))]
    exact ran
  refine ⟨_, action,
    rest ++ ((if (job.withReport now report).allNodesComplete layout then
        touch (.status jobId) .exclusive else []) ++
      [.release (.node jobId report.nodeId) .exclusive,
       .release (.nodesShard jobId (layout.shardOf report.nodeId)) .exclusive]),
    middle, ?_, taken, stops, held⟩
  simp [updateNodeSteps, gate, split]

end Freeze

/-- The guards and the place at which a heartbeat waits for itself. -/
theorem heartbeat_stop {layouts : TableLayouts} {tracker : Tracker} {now : Nat} {jobId : String}
    {report : NodeReport} (blocked : ¬ ScanStaysAway layouts tracker (.updateNode now jobId report)) :
    ∃ front action rest middle,
      (Operation.updateNode now jobId report).trace layouts tracker = front ++ action :: rest ∧
      performAll [] front = some middle ∧ action.perform middle = none ∧
      (.nodesShard jobId ((layouts.nodes jobId).shardOf report.nodeId), .exclusive) ∈ middle := by
  simp only [ScanStaysAway, not_forall, not_or, not_exists, not_and, not_not] at blocked
  rcases blocked with ⟨job, found, gate, complete⟩
  have complete' : ∀ nodeId state, (nodeId, state) ∈ job.nodes.entries →
      (layouts.nodes jobId).shardOf nodeId < (layouts.nodes jobId).shardOf report.nodeId →
      state.bitmap.isComplete = true := by
    intro nodeId state mem earlier
    simpa using complete nodeId state mem earlier
  rcases updateNodeSteps_stop now gate complete' with
    ⟨front, action, rest, middle, split, ran, stops, held⟩
  refine ⟨getJobSteps layouts jobId ++ front, action, rest, middle, ?_, ?_, stops, held⟩
  · rw [Operation.trace, found, List.append_assoc]
    exact congrArg _ split
  · rw [getJobSteps_then]
    exact ran

/-- A heartbeat whose scan comes to the shard of its own node never ends, whatever else runs. Alone it
comes to the point where it waits for itself. And once it is there, in any run with other calls, each
call from then on that comes to the shard, over the tables as it sees them, never ends either. -/
theorem blocked_heartbeat_freezes (layouts : TableLayouts) (tracker : Tracker) (now : Nat)
    (jobId : String) (report : NodeReport)
    (blocked : ¬ ScanStaysAway layouts tracker (.updateNode now jobId report)) :
    (∃ schedule stuck, runEvents lockStep []
        (.call ((Operation.updateNode now jobId report).trace layouts tracker) :: schedule) =
          some [stuck] ∧ stuck.WaitsForItself) ∧
    ∀ tasks : List (LockTask LockId),
      NeverDone (tasks ++ [{ held := []
                             rest := (Operation.updateNode now jobId report).trace layouts tracker }])
        tasks.length ∧
      ∀ later final task,
        runEvents lockStep
          (tasks ++ [{ held := []
                       rest := (Operation.updateNode now jobId report).trace layouts tracker }])
          later = some final →
        final[tasks.length]? = some task → task.WaitsForItself →
        ∀ (seen : Tracker) (operation : Operation),
          operation.Meets layouts seen jobId ((layouts.nodes jobId).shardOf report.nodeId) →
          NeverDone (final ++ [{ held := [], rest := operation.trace layouts seen }])
            final.length := by
  rcases heartbeat_stop blocked with ⟨front, action, rest, middle, split, ran, stops, held⟩
  have never : performAll [] ((Operation.updateNode now jobId report).trace layouts tracker) =
      none := by
    rcases (trace_runs_iff layouts tracker (.updateNode now jobId report)).2 with runs | none
    · exact absurd ((trace_runs_iff layouts tracker (.updateNode now jobId report)).1.mp runs) blocked
    · exact none
  constructor
  · refine ⟨List.replicate front.length (.step 0), { held := middle, rest := action :: rest }, ?_,
      action, rest, rfl, stops⟩
    rw [split]
    exact runEvents_cons_eq_some.mpr ⟨_, rfl, run_alone (action :: rest) ran⟩
  · intro tasks
    refine ⟨blocked_neverDone never tasks, ?_⟩
    intro later final task went found waits seen operation meets
    have start : (tasks ++ [{ held := [], rest := front ++ action :: rest }])[tasks.length]? =
        some { held := [], rest := front ++ action :: rest } := by
      simp
    rw [split] at went
    have follows : LockTask.Follows { held := [], rest := front ++ action :: rest }
        (front ++ action :: rest) := ⟨[], rfl, rfl⟩
    rcases follows_run start follows went with ⟨after, found', follows'⟩
    rw [found] at found'
    cases found'
    rw [← held_of_waits ran stops follows' waits] at held
    rcases acquire_of_meets ((layouts.nodes jobId).shardOf_lt report.nodeId) meets with ⟨mode, mem⟩
    have needs : LockTask.Needs { held := [], rest := operation.trace layouts seen }
        (.nodesShard jobId ((layouts.nodes jobId).shardOf report.nodeId)) mode := mem
    have conflict : LockMode.exclusive.conflicts mode = true := by
      cases mode <;> rfl
    have there : (final ++ [{ held := [], rest := operation.trace layouts seen }])[tasks.length]? =
        some task := by
      rw [List.getElem?_append_left (List.getElem?_eq_some_iff.mp found).1, found]
    exact needs_neverDone there waits held conflict (by simp) needs

/-- A node of the sample job that has both chunks. -/
def completeReport : NodeReport :=
  { nodeId := "n", rackId := "rack-A", peerAddr := "n:7100", bitmapBytes := [192]
    uploadBwMbps := 8000 }

/-- The report stops the call, and a snapshot that starts then never returns. -/
theorem blocked_heartbeat_freezes_sample :
    ∃ final : List (LockTask LockId),
      NeverDone (final ++
        [{ held := []
           rest := (Operation.snapshot "j" 2).trace sampleServer.layouts
             (Tracker.new.createJob "j" sampleManifest .rarityFirst).2 }]) final.length := by
  have blocked : ¬ ScanStaysAway sampleServer.layouts
      (Tracker.new.createJob "j" sampleManifest .rarityFirst).2
      (.updateNode 1 "j" completeReport) := by
    intro away
    rcases away (Job.new "j" sampleManifest .rarityFirst) rfl with below | ⟨nodeId, state, mem, _⟩
    · exact below (by decide +kernel)
    · cases mem
  rcases blocked_heartbeat_freezes sampleServer.layouts
      (Tracker.new.createJob "j" sampleManifest .rarityFirst).2 1 "j" completeReport blocked with
    ⟨⟨schedule, stuck, ran, waits⟩, others⟩
  exact ⟨[stuck], (others []).2 schedule [stuck] stuck ran rfl waits
    (Tracker.new.createJob "j" sampleManifest .rarityFirst).2 (.snapshot "j" 2) ⟨rfl, rfl⟩⟩

end ModelDistribution
