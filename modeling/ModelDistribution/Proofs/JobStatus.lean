/-
Module: ModelDistribution.Proofs.JobStatus
Layer: Proofs
Purpose: The status of a job against the table of its nodes, and after a cancellation. Only a
  heartbeat recomputes the status, it only ever sets it to complete, and it does so whatever the
  status was; both results name exactly the steps at which that matters.
Imports: ModelDistribution.Proofs.TrackerInvariants
Trusted boundary: none
Main exports: Job.reportCompletes_iff_allComplete, StatusTruthful, KeepsStatusTruthful,
  statusTruthful_run_iff, CancelledIn, LeavesIncomplete, cancelled_stays_iff
-/
import ModelDistribution.Proofs.TrackerInvariants

namespace ModelDistribution

open Foundation

/-- Every registered node has all chunks. -/
def Job.AllComplete (job : Job) : Prop :=
  ∀ nodeId state, (nodeId, state) ∈ job.nodes.entries → state.bitmap.isComplete = true

/-- A heartbeat completes its job exactly when it leaves all nodes complete. -/
theorem Job.reportCompletes_iff_allComplete (layout : Layout String NodeState) (job : Job)
    (now : Nat) (report : NodeReport) :
    job.reportCompletes layout now report = true ↔
      (job.afterReport layout now report).AllComplete := by
  rw [Job.reportCompletes_iff]
  unfold Job.AllComplete
  simp only [Job.afterReport_nodes, ShardedMap.mem_insert]
  constructor
  · rintro ⟨own, others⟩ nodeId state (⟨_, rfl⟩ | ⟨other, mem⟩)
    · exact own
    · exact others nodeId state mem other
  · intro all
    exact ⟨all _ _ (.inl ⟨rfl, rfl⟩), fun nodeId state mem other =>
      all nodeId state (.inr ⟨other, mem⟩)⟩

namespace Server

/-! ### What one event does to the status -/

/-- A heartbeat to a known job is acknowledged with the status it leaves. -/
theorem dispatch_heartbeat {server : Server} {tracker : Tracker} {now : Nat} {freshId : String}
    {request : Request} {jobId : String} {report : NodeReport} {job : Job}
    (heartbeat : reportOf request = some (jobId, report))
    (found : tracker.jobs.get? jobId = some job) :
    (server.dispatch tracker now freshId request).2 = .ok (.heartbeatAck
      (decide ((job.afterReport (server.layouts.nodes jobId) now report).status = .complete))) := by
  cases request with
  | heartbeat other nodeId rackId peerAddr bitmapBytes uploadBwMbps =>
      cases heartbeat
      rcases tracker.updateNode_spec server.layouts now jobId
          { nodeId, rackId, peerAddr, bitmapBytes, uploadBwMbps } with
        ⟨absent, _⟩ | ⟨job', after, found', returned, table⟩
      · rw [found] at absent
        cases absent
      · rw [found] at found'
        cases found'
        have stored := table jobId
        rw [if_pos rfl] at stored
        simp only [dispatch, returned, Tracker.getJob, stored]
  | _ => cases heartbeat

/-! ### Status and node table -/

/-- With a registered node, the status is complete exactly when all registered nodes are. -/
def StatusTruthful (_jobId : String) (job : Job) : Prop :=
  job.nodes.entries ≠ [] → (job.status = .complete ↔ job.AllComplete)

/-- The event brings no incomplete bitmap into a complete job, and an eviction pass that leaves nodes
of a job that is not complete leaves an incomplete one. -/
def KeepsStatusTruthful (tracker : Tracker) : TrackerEvent → Prop
  | .request _ _ request =>
      ∀ jobId report job, reportOf request = some (jobId, report) →
        tracker.jobs.get? jobId = some job → job.status = .complete →
        (ChunkBitmap.fromBytes report.bitmapBytes job.manifest.chunkCount).isComplete = true
  | .evict now timeoutSecs =>
      ∀ jobId job, tracker.jobs.get? jobId = some job → job.status ≠ .complete →
        (∃ nodeId state, (nodeId, state) ∈ job.nodes.entries ∧
          state.isStale now timeoutSecs = false) →
        ∃ nodeId state, (nodeId, state) ∈ job.nodes.entries ∧
          state.isStale now timeoutSecs = false ∧ state.bitmap.isComplete = false

/-- A request that cancels a job. -/
def isCancel : TrackerEvent → Bool
  | .request _ _ (.cancelJob _) => true
  | _ => false

/-- A heartbeat leaves a truthful status exactly when it brings no incomplete bitmap into a complete
job. -/
theorem statusTruthful_afterReport_iff {layout : Layout String NodeState} {jobId : String}
    {job : Job} (truthful : StatusTruthful jobId job) (now : Nat) (report : NodeReport) :
    StatusTruthful jobId (job.afterReport layout now report) ↔
      (job.status = .complete →
        (ChunkBitmap.fromBytes report.bitmapBytes job.manifest.chunkCount).isComplete = true) := by
  have registered : (job.afterReport layout now report).nodes.entries ≠ [] := by
    rw [Job.afterReport_nodes]
    intro empty
    have mem : (report.nodeId, job.reportedState now report) ∈
        (job.nodes.insert report.nodeId (job.reportedState now report)).entries :=
      ShardedMap.mem_insert.mpr (.inl ⟨rfl, rfl⟩)
    rw [empty] at mem
    cases mem
  have allComplete := job.reportCompletes_iff_allComplete layout now report
  unfold StatusTruthful
  simp only [registered, ne_eq, not_false_eq_true, true_implies, ← allComplete,
    Job.afterReport_status]
  cases completes : job.reportCompletes layout now report with
  | true =>
      have own := (job.reportCompletes_iff layout now report).mp completes
      simp [own.1]
  | false =>
      simp only [Bool.false_eq_true, if_false, iff_false]
      constructor
      · intro notComplete complete
        exact absurd complete notComplete
      · intro guarded complete
        -- The other nodes of a complete job are complete, so this report would complete it again.
        have others : ∀ nodeId state, (nodeId, state) ∈ job.nodes.entries →
            nodeId ≠ report.nodeId → state.bitmap.isComplete = true := by
          intro nodeId state mem _
          have nonempty : job.nodes.entries ≠ [] := List.ne_nil_of_mem mem
          exact (truthful nonempty).mp complete nodeId state mem
        have completesAgain := (job.reportCompletes_iff layout now report).mpr
          ⟨guarded complete, others⟩
        rw [completes] at completesAgain
        cases completesAgain

/-- An eviction pass leaves a truthful status exactly when it does not leave only complete nodes in
a job that is not complete. -/
theorem statusTruthful_evictStale_iff {jobId : String} {job : Job}
    (truthful : StatusTruthful jobId job) (now : Nat) (timeoutSecs : UInt64) :
    StatusTruthful jobId (job.evictStale now timeoutSecs) ↔
      (job.status ≠ .complete →
        (∃ nodeId state, (nodeId, state) ∈ job.nodes.entries ∧
          state.isStale now timeoutSecs = false) →
        ∃ nodeId state, (nodeId, state) ∈ job.nodes.entries ∧
          state.isStale now timeoutSecs = false ∧ state.bitmap.isComplete = false) := by
  have survivors : (job.evictStale now timeoutSecs).nodes.entries ≠ [] ↔
      ∃ nodeId state, (nodeId, state) ∈ job.nodes.entries ∧
        state.isStale now timeoutSecs = false := by
    constructor
    · intro nonempty
      obtain ⟨⟨nodeId, state⟩, mem⟩ := List.exists_mem_of_ne_nil _ nonempty
      exact ⟨nodeId, state, Job.mem_evictStale.mp mem⟩
    · rintro ⟨nodeId, state, mem⟩
      exact List.ne_nil_of_mem (Job.mem_evictStale.mpr mem)
  have incomplete : ¬ (job.evictStale now timeoutSecs).AllComplete ↔
      ∃ nodeId state, (nodeId, state) ∈ job.nodes.entries ∧
        state.isStale now timeoutSecs = false ∧ state.bitmap.isComplete = false := by
    unfold Job.AllComplete
    push Not
    simp only [Job.mem_evictStale, Bool.not_eq_true, and_assoc]
  unfold StatusTruthful
  rw [survivors, Job.evictStale_status, ← incomplete]
  constructor
  · intro after running survivor all
    exact running ((after survivor).mpr all)
  · intro guarded survivor
    constructor
    · intro complete nodeId state mem
      have before := (Job.mem_evictStale.mp mem).1
      exact (truthful (List.ne_nil_of_mem before)).mp complete nodeId state before
    · intro all
      by_contra running
      exact guarded running survivor all

/-- One event keeps every status truthful exactly when it meets the guard. -/
theorem statusTruthful_step_iff {server : Server} {tracker : Tracker} {event : TrackerEvent}
    (noCancel : isCancel event = false) (truthful : tracker.AllJobs StatusTruthful) :
    (server.step tracker event).AllJobs StatusTruthful ↔ KeepsStatusTruthful tracker event := by
  constructor
  · intro after
    cases event with
    | request now freshId request =>
        intro jobId report job heartbeat found
        exact (statusTruthful_afterReport_iff (truthful jobId job found) now report).mp
          (after jobId _ (step_report heartbeat found))
    | evict now timeoutSecs =>
        intro jobId job found
        apply (statusTruthful_evictStale_iff (truthful jobId job found) now timeoutSecs).mp
        apply after jobId
        rw [step, Tracker.get?_evictStaleNodes, found]
        rfl
  · intro guarded jobId job stored
    have change := server.step_jobChange tracker event jobId
    generalize (server.step tracker event).jobs.get? jobId = result at change stored
    cases change with
    | created parsed known =>
        cases stored
        intro nonempty
        exact absurd rfl nonempty
    | reported heartbeat found =>
        cases stored
        exact (statusTruthful_afterReport_iff (truthful jobId _ found) _ _).mpr
          (guarded jobId _ _ heartbeat found)
    | cancelled found => cases noCancel
    | evicted =>
        obtain ⟨old, found, rfl⟩ := Option.map_eq_some_iff.mp stored
        exact (statusTruthful_evictStale_iff (truthful jobId old found) _ _).mpr
          (guarded jobId old found)
    | untouched _ _ _ => exact truthful jobId job stored

/-- In a run without cancellations the status of every job with registered nodes is complete exactly
when all of them are, at every point of the run, if and only if every event meets the guard. -/
theorem statusTruthful_run_iff (server : Server) (events : List TrackerEvent)
    (noCancel : ∀ event ∈ events, isCancel event = false) :
    (∀ pre, pre <+: events → (server.run pre).AllJobs StatusTruthful) ↔
      ∀ pre event, pre ++ [event] <+: events → KeepsStatusTruthful (server.run pre) event := by
  apply run_exact (fun tracker => tracker.AllJobs StatusTruthful) fun event =>
    isCancel event = false
  · exact allJobs_new StatusTruthful
  · intro tracker event admitted truthful
    exact statusTruthful_step_iff admitted truthful
  · exact noCancel

/-- A run in which the only node reports all chunks meets the guard, so its status is truthful. -/
theorem statusTruthful_run_sample :
    (sampleServer.run
      [.request 0 "j" (.createJob sampleManifestBytes "rarity-first"),
       .request 1 "k" (.heartbeat "j" "n" "rack-A" "n:7100" [192] 8000)]).AllJobs
      StatusTruthful := by
  refine (statusTruthful_run_iff sampleServer _ (by simp [isCancel])).mpr ?_ _ List.prefix_rfl
  rw [forall_step_cons, forall_step_cons, forall_step_nil]
  refine ⟨?_, ?_, trivial⟩
  · intro jobId report job heartbeat
    cases heartbeat
  · intro jobId report job heartbeat found complete
    cases heartbeat
    simp only [run, List.foldl_cons, List.foldl_nil, step_createSample, Tracker.get?_createJob,
      if_true, Option.some.injEq] at found
    subst found
    cases complete

/-- A node that joins a complete job with nothing leaves the job complete. -/
theorem late_join_leaves_complete :
    ¬ (sampleServer.run
      [.request 0 "j" (.createJob sampleManifestBytes "rarity-first"),
       .request 1 "k" (.heartbeat "j" "n1" "rack-A" "n1:7100" [192] 8000),
       .request 2 "l" (.heartbeat "j" "n2" "rack-B" "n2:7100" [0] 8000)]).AllJobs
      StatusTruthful := by
  simp only [run, List.foldl_cons, List.foldl_nil, step_createSample]
  generalize reached : sampleServer.step (sampleServer.step
    (Tracker.new.createJob "j" sampleManifest .rarityFirst).2 _) _ = tracker
  have view : (tracker.jobs.get? "j").map (fun job =>
      (job.status, job.nodes.entries.map fun entry => (entry.1, entry.2.bitmap.isComplete))) =
      some (.complete, [("n1", true), ("n2", false)]) := by
    rw [← reached]
    decide +kernel
  obtain ⟨job, found, shown⟩ := Option.map_eq_some_iff.mp view
  obtain ⟨status, entries⟩ := Prod.mk.inj shown
  intro truthful
  have listed : ("n2", false) ∈
      job.nodes.entries.map fun entry => (entry.1, entry.2.bitmap.isComplete) := by
    rw [entries]
    simp
  obtain ⟨entry, mem, joined⟩ := List.mem_map.mp listed
  have all := (truthful "j" job found (List.ne_nil_of_mem mem)).mp status entry.1 entry.2 mem
  rw [(Prod.mk.inj joined).2] at all
  cases all

/-! ### After a cancellation -/

/-- The job is there and cancelled. -/
def CancelledIn (jobId : String) (tracker : Tracker) : Prop :=
  ∃ job, tracker.jobs.get? jobId = some job ∧ job.status = .cancelled

/-- The event is a heartbeat for the job that is answered with a completed job. -/
def AcksComplete (server : Server) (jobId : String) (tracker : Tracker)
    (event : TrackerEvent) : Prop :=
  ∃ now freshId request report, event = .request now freshId request ∧
    reportOf request = some (jobId, report) ∧
    (server.dispatch tracker now freshId request).2 = .ok (.heartbeatAck true)

/-- If the event is a heartbeat for the job, then its own bitmap is incomplete, or another registered
node's is. -/
def LeavesIncomplete (jobId : String) (tracker : Tracker) (event : TrackerEvent) : Prop :=
  ∀ now freshId request report job, event = .request now freshId request →
    reportOf request = some (jobId, report) → tracker.jobs.get? jobId = some job →
    (ChunkBitmap.fromBytes report.bitmapBytes job.manifest.chunkCount).isComplete = false ∨
      ∃ nodeId state, (nodeId, state) ∈ job.nodes.entries ∧ nodeId ≠ report.nodeId ∧
        state.bitmap.isComplete = false

theorem reportCompletes_eq_false_iff (layout : Layout String NodeState) (job : Job) (now : Nat)
    (report : NodeReport) :
    job.reportCompletes layout now report = false ↔
      (ChunkBitmap.fromBytes report.bitmapBytes job.manifest.chunkCount).isComplete = false ∨
        ∃ nodeId state, (nodeId, state) ∈ job.nodes.entries ∧ nodeId ≠ report.nodeId ∧
          state.bitmap.isComplete = false := by
  rw [← Bool.not_eq_true, Job.reportCompletes_iff, not_and_or]
  push Not
  simp only [Bool.not_eq_true]

/-- One event keeps a cancelled job cancelled exactly when it leaves an incomplete node. -/
theorem cancelledIn_step_iff {server : Server} {jobId : String} {tracker : Tracker}
    {event : TrackerEvent} (noReuse : NoReuse jobId event) (cancelled : CancelledIn jobId tracker) :
    CancelledIn jobId (server.step tracker event) ↔ LeavesIncomplete jobId tracker event := by
  obtain ⟨job, found, status⟩ := cancelled
  have change := server.step_jobChange tracker event jobId
  unfold CancelledIn
  generalize (server.step tracker event).jobs.get? jobId = result at change
  cases change with
  | created parsed known => exact absurd rfl (noReuse _ _ _)
  | reported heartbeat found' =>
      rename_i now freshId request report job'
      rw [found] at found'
      cases found'
      have exactly : (∃ after, some (job.afterReport (server.layouts.nodes jobId) now report) =
          some after ∧ after.status = .cancelled) ↔
          job.reportCompletes (server.layouts.nodes jobId) now report = false := by
        cases completes : job.reportCompletes (server.layouts.nodes jobId) now report with
        | false => simp [Job.afterReport_status, completes, status]
        | true => simp [Job.afterReport_status, completes]
      rw [exactly, reportCompletes_eq_false_iff]
      constructor
      · intro incomplete now' freshId' request' report' job' same heartbeat' found'
        cases same
        rw [heartbeat] at heartbeat'
        cases heartbeat'
        rw [found] at found'
        cases found'
        exact incomplete
      · intro leaves
        exact leaves now freshId request report job rfl heartbeat found
  | cancelled found' =>
      rw [found] at found'
      cases found'
      constructor
      · intro _ now' freshId' request' report' job' same heartbeat'
        cases same
        cases heartbeat'
      · intro _
        exact ⟨_, rfl, rfl⟩
  | evicted =>
      rw [found]
      constructor
      · intro _ now' freshId' request' report' job' same
        cases same
      · intro _
        exact ⟨_, rfl, status⟩
  | untouched _ notReport _ =>
      constructor
      · intro _ now' freshId' request' report' job' same heartbeat' found'
        have absent := notReport _ _ _ _ same heartbeat'
        rw [found] at absent
        cases absent
      · intro _
        exact ⟨job, found, status⟩

/-- A heartbeat that leaves an incomplete node of a cancelled job is not answered with a completed
job. -/
theorem not_acksComplete_of_leavesIncomplete {server : Server} {jobId : String} {tracker : Tracker}
    {event : TrackerEvent} (cancelled : CancelledIn jobId tracker)
    (leaves : LeavesIncomplete jobId tracker event) :
    ¬ AcksComplete server jobId tracker event := by
  rintro ⟨now, freshId, request, report, rfl, heartbeat, answered⟩
  obtain ⟨job, found, status⟩ := cancelled
  have incomplete := (reportCompletes_eq_false_iff (server.layouts.nodes jobId) job now report).mpr
    (leaves now freshId request report job rfl heartbeat found)
  rw [dispatch_heartbeat heartbeat found, Job.afterReport_status, incomplete, status] at answered
  simp at answered

/-- After `cancel_job` returned, in every run that does not draw the identifier again, the job stays
cancelled and no heartbeat for it is answered with a completed job, if and only if every heartbeat
for it leaves an incomplete node. -/
theorem cancelled_stays_iff (server : Server) (tracker : Tracker) (now : Nat) (freshId : String)
    (jobId : String) (later : List TrackerEvent)
    (answered : (server.dispatch tracker now freshId (.cancelJob jobId)).2 = .ok .ok)
    (noReuse : ∀ event ∈ later, NoReuse jobId event) :
    let start := server.step tracker (.request now freshId (.cancelJob jobId))
    ((∀ pre, pre <+: later → CancelledIn jobId (pre.foldl server.step start)) ∧
      ∀ pre event, pre ++ [event] <+: later →
        ¬ AcksComplete server jobId (pre.foldl server.step start) event) ↔
      ∀ pre event, pre ++ [event] <+: later →
        LeavesIncomplete jobId (pre.foldl server.step start) event := by
  intro start
  have cancelledFirst : CancelledIn jobId start := by
    rcases tracker.cancelJob_spec jobId with ⟨_, refused⟩ | ⟨job, _, returned⟩
    · simp [dispatch, refused] at answered
    · refine ⟨{ job with status := .cancelled }, ?_, rfl⟩
      simp [start, step, dispatch, returned]
  have staysExactly : (∀ pre, pre <+: later → CancelledIn jobId (pre.foldl server.step start)) ↔
      ∀ pre event, pre ++ [event] <+: later →
        LeavesIncomplete jobId (pre.foldl server.step start) event := by
    apply foldl_exact (fun _ _ _ (_ : True) => trivial) _ trivial cancelledFirst noReuse
    intro state event admitted _ cancelled
    exact cancelledIn_step_iff admitted cancelled
  constructor
  · rintro ⟨stays, _⟩
    exact staysExactly.mp stays
  · intro leaves
    have stays := staysExactly.mpr leaves
    refine ⟨stays, ?_⟩
    intro pre event isPrefix
    exact not_acksComplete_of_leavesIncomplete
      (stays pre ((List.prefix_append _ _).trans isPrefix)) (leaves pre event isPrefix)

/-- A heartbeat without chunks leaves the cancelled sample job cancelled. -/
theorem cancelled_stays_sample :
    CancelledIn "j"
      ([TrackerEvent.request 2 "l" (.heartbeat "j" "n" "rack-A" "n:7100" [0] 8000)].foldl
        sampleServer.step (sampleServer.step
        (sampleServer.run [.request 0 "j" (.createJob sampleManifestBytes "rarity-first")])
        (.request 1 "k" (.cancelJob "j")))) := by
  simp only [run, List.foldl_cons, List.foldl_nil, step_createSample]
  refine ((cancelled_stays_iff sampleServer (Tracker.new.createJob "j" sampleManifest .rarityFirst).2
    1 "k" "j" [.request 2 "l" (.heartbeat "j" "n" "rack-A" "n:7100" [0] 8000)] rfl
    ?_).mpr ?_).1 _ List.prefix_rfl
  · simp [NoReuse]
  · rw [forall_step_cons, forall_step_nil]
    refine ⟨?_, trivial⟩
    intro now freshId request report job same heartbeat found
    cases same
    cases heartbeat
    have chunkCount : ((sampleServer.step (Tracker.new.createJob "j" sampleManifest .rarityFirst).2
        (.request 1 "k" (.cancelJob "j"))).jobs.get? "j").map (fun job => job.manifest.chunkCount) =
        some 2 := by
      decide +kernel
    rw [List.foldl_nil] at found
    rw [found] at chunkCount
    have two : job.manifest.chunkCount = 2 := Option.some.inj chunkCount
    rw [two]
    exact .inl (by decide)

/-- A heartbeat of a complete node reopens a cancelled job as complete. -/
theorem heartbeat_overwrites_cancelled :
    (sampleServer.dispatch
        (sampleServer.run [.request 0 "j" (.createJob sampleManifestBytes "rarity-first")]) 1 "k"
        (.cancelJob "j")).2 = .ok .ok ∧
      ¬ CancelledIn "j" (sampleServer.run
        [.request 0 "j" (.createJob sampleManifestBytes "rarity-first"),
         .request 1 "k" (.cancelJob "j"),
         .request 2 "l" (.heartbeat "j" "n" "rack-A" "n:7100" [192] 8000)]) := by
  simp only [run, List.foldl_cons, List.foldl_nil, step_createSample]
  refine ⟨rfl, ?_⟩
  generalize reached : sampleServer.step (sampleServer.step
    (Tracker.new.createJob "j" sampleManifest .rarityFirst).2 _) _ = tracker
  have status : (tracker.jobs.get? "j").map Job.status = some .complete := by
    rw [← reached]
    decide +kernel
  rintro ⟨job, found, cancelled⟩
  rw [found, Option.map_some, cancelled] at status
  cases status

end Server

end ModelDistribution
