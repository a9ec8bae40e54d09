/-
Module: ModelDistribution.Proofs.CompletionCounter
Layer: Proofs
Purpose: The counter of completed jobs against the jobs that ever were complete. Every heartbeat that
  finds all registered nodes complete counts, whatever the status was, so the two agree exactly in the
  runs in which no such heartbeat comes for a job that has been complete before.
Imports: Mathlib.Data.Finset.Card, Mathlib.Data.Set.Card,
  ModelDistribution.Proofs.TrackerInvariants
Trusted boundary: none
Main exports: completedBy, completions, BecameComplete, mem_completions_iff, LeavesAllComplete,
  completions_counted_iff
-/
import Mathlib.Data.Finset.Card
import Mathlib.Data.Set.Card
import ModelDistribution.Proofs.TrackerInvariants

namespace ModelDistribution

open Foundation

namespace Server

/-- The job that an event completes, now or again. -/
def completedBy (server : Server) (tracker : Tracker) : TrackerEvent → Option String
  | .request now _ request =>
      match reportOf request with
      | some (jobId, report) =>
          match tracker.jobs.get? jobId with
          | some job =>
              if job.reportCompletes (server.layouts.nodes jobId) now report then some jobId
              else none
          | none => none
      | none => none
  | .evict _ _ => none

/-- The completions of a run, in order and with repetitions. -/
def completions (server : Server) : Tracker → List TrackerEvent → List String
  | _, [] => []
  | tracker, event :: events =>
      (server.completedBy tracker event).toList ++
        server.completions (server.step tracker event) events

/-- The status of the job was complete at some point of the run. -/
def BecameComplete (server : Server) (events : List TrackerEvent) (jobId : String) : Prop :=
  ∃ pre, pre <+: events ∧ ∃ job, (server.run pre).jobs.get? jobId = some job ∧
    job.status = .complete

/-- The event is a heartbeat for the job behind which all its registered nodes are complete. -/
def LeavesAllComplete (jobId : String) (tracker : Tracker) (event : TrackerEvent) : Prop :=
  ∃ now freshId request report job, event = .request now freshId request ∧
    reportOf request = some (jobId, report) ∧ tracker.jobs.get? jobId = some job ∧
    (ChunkBitmap.fromBytes report.bitmapBytes job.manifest.chunkCount).isComplete = true ∧
    ∀ nodeId state, (nodeId, state) ∈ job.nodes.entries → nodeId ≠ report.nodeId →
      state.bitmap.isComplete = true

variable {server : Server}

theorem completions_append (tracker : Tracker) (first second : List TrackerEvent) :
    server.completions tracker (first ++ second) =
      server.completions tracker first ++
        server.completions (first.foldl server.step tracker) second := by
  induction first generalizing tracker with
  | nil => rfl
  | cons event events ih => simp [completions, ih]

theorem completions_snoc (events : List TrackerEvent) (event : TrackerEvent) :
    server.completions .new (events ++ [event]) =
      server.completions .new events ++ (server.completedBy (server.run events) event).toList := by
  simp [completions_append, completions, run]

theorem completedBy_eq_some_iff {tracker : Tracker} {event : TrackerEvent} {jobId : String} :
    server.completedBy tracker event = some jobId ↔ LeavesAllComplete jobId tracker event := by
  constructor
  · intro completed
    cases event with
    | evict now timeoutSecs => cases completed
    | request now freshId request =>
        cases heartbeat : reportOf request with
        | none => simp [completedBy, heartbeat] at completed
        | some addressed =>
            cases found : tracker.jobs.get? addressed.1 with
            | none => simp [completedBy, heartbeat, found] at completed
            | some job =>
                simp only [completedBy, heartbeat, found, Option.ite_none_right_eq_some,
                  Option.some.injEq] at completed
                rcases completed with ⟨completes, rfl⟩
                exact ⟨now, freshId, request, addressed.2, job, rfl, heartbeat, found,
                  (job.reportCompletes_iff _ now addressed.2).mp completes⟩
  · rintro ⟨now, freshId, request, report, job, rfl, heartbeat, found, all⟩
    have completes := (job.reportCompletes_iff (server.layouts.nodes jobId) now report).mpr all
    simp [completedBy, heartbeat, found, completes]

/-! ### What one event does to the counter and to the history -/

/-- The counter moves by one exactly at a completion. -/
theorem jobsCompleteTotal_step (tracker : Tracker) (event : TrackerEvent) :
    (server.step tracker event).jobsCompleteTotal =
      tracker.jobsCompleteTotal + (server.completedBy tracker event).toList.length := by
  cases event with
  | evict now timeoutSecs => rfl
  | request now freshId request =>
      cases request with
      | createJob bytes policyText =>
          simp only [step, dispatch, completedBy, reportOf]
          split
          · rfl
          · split <;> rfl
      | heartbeat jobId nodeId rackId peerAddr bitmapBytes uploadBwMbps =>
          cases found : tracker.jobs.get? jobId with
          | none =>
              simp [step, dispatch, completedBy, reportOf, Tracker.updateNode, Tracker.getJob,
                found, bind, Except.bind]
          | some job =>
              cases completes : job.reportCompletes (server.layouts.nodes jobId) now
                  { nodeId, rackId, peerAddr, bitmapBytes, uploadBwMbps } <;>
                simp [step, dispatch, completedBy, reportOf, Tracker.updateNode, Tracker.getJob,
                  Tracker.setJob, found, completes, bind, Except.bind, pure, Except.pure]
      | getPeers jobId nodeId rackId chunkIndex topN =>
          rcases tracker.getPeers_spec server.layouts jobId nodeId rackId chunkIndex topN with
            ⟨_, refused⟩ | ⟨job, _, returned⟩
          · simp [step, dispatch, completedBy, reportOf, refused]
          · simp only [step, dispatch, completedBy, reportOf, returned]
            cases Tracker.schedule (server.layouts.nodes jobId) job nodeId rackId chunkIndex topN <;>
              rfl
      | getStatus jobId =>
          simp only [step, dispatch, completedBy, reportOf]
          split <;> rfl
      | cancelJob jobId =>
          rcases tracker.cancelJob_spec jobId with ⟨_, refused⟩ | ⟨job, _, returned⟩
          · simp [step, dispatch, completedBy, reportOf, refused]
          · simp [step, dispatch, completedBy, reportOf, returned, Tracker.setJob]
      | listJobs => rfl

/-- A job is complete behind an event if the event completed it, and else only if it was before. -/
theorem complete_of_step {tracker : Tracker} {event : TrackerEvent} {jobId : String} {job : Job}
    (stored : (server.step tracker event).jobs.get? jobId = some job)
    (complete : job.status = .complete) :
    server.completedBy tracker event = some jobId ∨
      ∃ before, tracker.jobs.get? jobId = some before ∧ before.status = .complete := by
  have change := server.step_jobChange tracker event jobId
  generalize (server.step tracker event).jobs.get? jobId = after at change stored
  generalize earlier : tracker.jobs.get? jobId = known at change
  cases change with
  | created _ _ =>
      cases stored
      cases complete
  | reported heartbeat found =>
      rename_i now freshId request report before
      cases found
      cases stored
      rw [Job.afterReport_status] at complete
      cases completes : before.reportCompletes (server.layouts.nodes jobId) now report with
      | true =>
          left
          simp [completedBy, heartbeat, earlier, completes]
      | false =>
          right
          exact ⟨before, rfl, by simpa [completes] using complete⟩
  | cancelled _ =>
      cases stored
      cases complete
  | evicted =>
      right
      rcases Option.map_eq_some_iff.mp stored with ⟨before, found, rfl⟩
      exact ⟨before, found, complete⟩
  | untouched _ _ _ => exact .inr ⟨job, stored, complete⟩

/-- A completed job is complete behind the event. -/
theorem complete_of_completedBy {tracker : Tracker} {event : TrackerEvent} {jobId : String}
    (completed : server.completedBy tracker event = some jobId) :
    ∃ job, (server.step tracker event).jobs.get? jobId = some job ∧ job.status = .complete := by
  rcases completedBy_eq_some_iff.mp completed with
    ⟨now, freshId, request, report, job, rfl, heartbeat, found, all⟩
  have completes := (job.reportCompletes_iff (server.layouts.nodes jobId) now report).mpr all
  exact ⟨_, step_report heartbeat found, by simp [Job.afterReport_status, completes]⟩

/-! ### Whole runs -/

/-- The counter is the number of completions. -/
theorem jobsCompleteTotal_run (events : List TrackerEvent) :
    (server.run events).jobsCompleteTotal = (server.completions .new events).length := by
  induction events using List.reverseRecOn with
  | nil => rfl
  | append_singleton events event ih =>
      rw [completions_snoc, List.length_append, ← ih, run_append]
      exact jobsCompleteTotal_step _ event

/-- The jobs with a completion are those that were complete at some point. -/
theorem mem_completions_iff {events : List TrackerEvent} {jobId : String} :
    jobId ∈ server.completions .new events ↔ BecameComplete server events jobId := by
  induction events using List.reverseRecOn with
  | nil =>
      constructor
      · intro mem
        cases mem
      · rintro ⟨pre, isPrefix, job, stored, _⟩
        cases List.prefix_nil.mp isPrefix
        cases stored
  | append_singleton events event ih =>
      rw [completions_snoc, List.mem_append, ih, Option.mem_toList]
      constructor
      · rintro (⟨pre, isPrefix, complete⟩ | completed)
        · exact ⟨pre, isPrefix.trans (List.prefix_append _ _), complete⟩
        · refine ⟨events ++ [event], List.prefix_rfl, ?_⟩
          rw [run_append]
          exact complete_of_completedBy completed
      · rintro ⟨pre, isPrefix, job, stored, complete⟩
        rcases List.prefix_concat_iff.mp isPrefix with rfl | earlier
        · rw [run_append] at stored
          rcases complete_of_step stored complete with completed | ⟨before, found, was⟩
          · exact .inr completed
          · exact .inl ⟨events, List.prefix_rfl, before, found, was⟩
        · exact .inl ⟨pre, earlier, job, stored, complete⟩

/-- No job is completed twice exactly when no completion comes for a job that was complete before. -/
theorem nodup_completions_iff {events : List TrackerEvent} :
    (server.completions .new events).Nodup ↔
      ∀ pre event, pre ++ [event] <+: events → ∀ jobId,
        LeavesAllComplete jobId (server.run pre) event → ¬ BecameComplete server pre jobId := by
  induction events using List.reverseRecOn with
  | nil => simp [completions]
  | append_singleton events event ih =>
      rw [forall_step_snoc, ← ih, completions_snoc, List.nodup_append]
      have exactly : ∀ jobId, LeavesAllComplete jobId (server.run events) event ↔
          server.completedBy (server.run events) event = some jobId :=
        fun _ => completedBy_eq_some_iff.symm
      simp only [exactly, ← mem_completions_iff]
      cases completed : server.completedBy (server.run events) event with
      | none => simp
      | some jobId => simp [eq_comm, List.forall_mem_ne]

/-- The counter of completed jobs is the number of jobs that were ever complete if and only if no
heartbeat leaves all nodes complete in a job that was complete at an earlier point of the run. -/
theorem completions_counted_iff (server : Server) (events : List TrackerEvent) :
    (server.run events).jobsCompleteTotal =
        Set.ncard {jobId | BecameComplete server events jobId} ↔
      ∀ pre event, pre ++ [event] <+: events → ∀ jobId,
        LeavesAllComplete jobId (server.run pre) event → ¬ BecameComplete server pre jobId := by
  have ever : {jobId | BecameComplete server events jobId} =
      ((server.completions .new events).toFinset : Set String) := by
    ext jobId
    simp [mem_completions_iff]
  rw [jobsCompleteTotal_run, ever, Set.ncard_coe_finset, ← nodup_completions_iff,
    List.card_toFinset]
  constructor
  · intro same
    have whole := (List.dedup_sublist _).eq_of_length same.symm
    exact List.dedup_eq_self.mp whole
  · intro different
    rw [different.dedup]

/-- A complete node that reports twice completes its job twice. -/
theorem repeated_heartbeat_counts_twice :
    let events :=
      [.request 0 "j" (.createJob sampleManifestBytes "rarity-first"),
       .request 1 "k" (.heartbeat "j" "n" "rack-A" "n:7100" [192] 8000),
       .request 2 "l" (.heartbeat "j" "n" "rack-A" "n:7100" [192] 8000)]
    (sampleServer.run events).jobsCompleteTotal = 2 ∧
      Set.ncard {jobId | BecameComplete sampleServer events jobId} = 1 := by
  intro events
  have first : sampleServer.completedBy
      (Tracker.new.createJob "j" sampleManifest .rarityFirst).2
      (.request 1 "k" (.heartbeat "j" "n" "rack-A" "n:7100" [192] 8000)) = some "j" := by
    decide +kernel
  have again : sampleServer.completedBy
      (sampleServer.step (Tracker.new.createJob "j" sampleManifest .rarityFirst).2
        (.request 1 "k" (.heartbeat "j" "n" "rack-A" "n:7100" [192] 8000)))
      (.request 2 "l" (.heartbeat "j" "n" "rack-A" "n:7100" [192] 8000)) = some "j" := by
    decide +kernel
  have listed : sampleServer.completions .new events = ["j", "j"] := by
    simp only [events, completions, step_createSample, first, again]
    rfl
  have ever : {jobId | BecameComplete sampleServer events jobId} = {"j"} := by
    ext jobId
    rw [Set.mem_ofPred_eq, ← mem_completions_iff, listed]
    simp
  constructor
  · rw [jobsCompleteTotal_run, listed]
    rfl
  · rw [ever, Set.ncard_singleton]

end Server

end ModelDistribution
