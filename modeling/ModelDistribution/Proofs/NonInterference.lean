/-
Module: ModelDistribution.Proofs.NonInterference
Layer: Proofs
Purpose: Jobs do not interfere. What a request for a job does to it and how it is answered depends on
  that job alone, and requests for other jobs and refused requests do nothing to it, so a run without
  them leaves the job in the same state and answers its requests in the same way.
Imports: ModelDistribution.Foundation.Unwinding, ModelDistribution.Proofs.TrackerInvariants
Trusted boundary: none
Main exports: concerns, refused, kept, jobResponse, job_unwinding, jobs_do_not_interfere
-/
import ModelDistribution.Foundation.Unwinding
import ModelDistribution.Proofs.TrackerInvariants

namespace ModelDistribution

open Foundation

namespace Server

/-- The event is an eviction pass or a request about the job; a creation is about the job whose
identifier it draws. -/
def concerns (jobId : String) : TrackerEvent → Bool
  | .evict _ _ => true
  | .request _ freshId request =>
      match request with
      | .createJob _ _ => freshId = jobId
      | .heartbeat other _ _ _ _ _ => other = jobId
      | .getPeers other _ _ _ _ => other = jobId
      | .getStatus other => other = jobId
      | .cancelJob other => other = jobId
      | .listJobs => false

/-- The answer is an error response. -/
def refused : Checked (Option Response) → Bool
  | .ok (some (.error _)) => true
  | _ => false

/-- What remains for a job: the events that concern it and are not refused. -/
def kept (server : Server) (jobId : String) (tracker : Tracker) (event : TrackerEvent) : Bool :=
  concerns jobId event && !refused (server.response tracker event)

/-- The answer to an event that concerns a job, from that job alone. -/
def jobResponse (server : Server) (jobId : String) (known : Option Job) :
    TrackerEvent → Checked (Option Response)
  | .evict _ _ => .ok none
  | .request now freshId request =>
      match request, known with
      | .createJob manifestBytes policyText, _ =>
          match server.deserialise manifestBytes with
          | .error e => .ok (some (.error e.toString))
          | .ok _ =>
              match SchedulingPolicy.fromStr policyText with
              | .error e => .ok (some (.error e.toString))
              | .ok _ => .ok (some (.jobCreated freshId))
      | .listJobs, _ => .ok none
      | _, none => .ok (some (.error (DistError.jobNotFound jobId).toString))
      | .heartbeat _ nodeId rackId peerAddr bitmapBytes uploadBwMbps, some job =>
          .ok (some (.heartbeatAck (decide ((job.afterReport (server.layouts.nodes jobId) now
            { nodeId, rackId, peerAddr, bitmapBytes, uploadBwMbps }).status = .complete))))
      | .getPeers _ nodeId rackId chunkIndex topN, some job =>
          (Tracker.schedule (server.layouts.nodes jobId) job nodeId rackId chunkIndex topN).map
            fun peers => some (.peers (peers.map PeerInfo.fromCandidate))
      | .getStatus _, some job =>
          .ok (some (.status (job.snapshot (server.layouts.nodes jobId) now).toValue))
      | .cancelJob _, some _ => .ok (some .ok)

variable {server : Server} {jobId : String} {tracker : Tracker} {event : TrackerEvent}

/-- Events that concern a job are answered from that job. -/
theorem response_eq_jobResponse (about : concerns jobId event = true) :
    server.response tracker event = server.jobResponse jobId (tracker.jobs.get? jobId) event := by
  cases event with
  | evict now timeoutSecs => rfl
  | request now freshId request =>
      cases request with
      | createJob manifestBytes policyText =>
          simp only [response, dispatch, jobResponse]
          cases server.deserialise manifestBytes with
          | error e => rfl
          | ok manifest => cases SchedulingPolicy.fromStr policyText <;> rfl
      | heartbeat other nodeId rackId peerAddr bitmapBytes uploadBwMbps =>
          have same : other = jobId := by simpa [concerns] using about
          subst same
          rcases tracker.updateNode_spec server.layouts now other
              { nodeId, rackId, peerAddr, bitmapBytes, uploadBwMbps } with
            ⟨absent, returned⟩ | ⟨job, after, found, returned, table⟩
          · simp only [response, dispatch, returned, absent, jobResponse]
            rfl
          · have stored := table other
            rw [if_pos rfl] at stored
            simp only [response, dispatch, returned, Tracker.getJob, stored, found, jobResponse]
            rfl
      | getPeers other nodeId rackId chunkIndex topN =>
          have same : other = jobId := by simpa [concerns] using about
          subst same
          rcases tracker.getPeers_spec server.layouts other nodeId rackId chunkIndex topN with
            ⟨absent, returned⟩ | ⟨job, found, returned⟩
          · simp only [response, dispatch, returned, absent, jobResponse]
            rfl
          · simp only [response, dispatch, returned, found, jobResponse]
            cases Tracker.schedule (server.layouts.nodes other) job nodeId rackId chunkIndex topN <;>
              rfl
      | getStatus other =>
          have same : other = jobId := by simpa [concerns] using about
          subst same
          simp only [response, dispatch, Tracker.getJob, jobResponse]
          cases tracker.jobs.get? other <;> rfl
      | cancelJob other =>
          have same : other = jobId := by simpa [concerns] using about
          subst same
          rcases tracker.cancelJob_spec other with ⟨absent, returned⟩ | ⟨job, found, returned⟩
          · simp only [response, dispatch, returned, absent, jobResponse]
            rfl
          · simp only [response, dispatch, returned, found, jobResponse]
            rfl
      | listJobs => cases about

/-- An event that does not concern the job, or is refused, leaves the job as it is. -/
theorem get?_step_of_not_kept (purged : server.kept jobId tracker event = false) :
    (server.step tracker event).jobs.get? jobId = tracker.jobs.get? jobId := by
  rw [get?_step]
  cases about : concerns jobId event with
  | false =>
      cases event with
      | evict now timeoutSecs => cases about
      | request now freshId request =>
          cases request <;> simp_all [concerns, jobAfter]
  | true =>
      have isRefused : refused (server.jobResponse jobId (tracker.jobs.get? jobId) event) = true := by
        simpa [kept, about, response_eq_jobResponse about] using purged
      cases event with
      | evict now timeoutSecs => cases isRefused
      | request now freshId request =>
          cases request with
          | createJob manifestBytes policyText =>
              simp only [jobResponse, jobAfter] at isRefused ⊢
              cases parsed : server.deserialise manifestBytes with
              | error e => simp
              | ok manifest =>
                  cases known : SchedulingPolicy.fromStr policyText with
                  | error e => simp
                  | ok policy => simp [parsed, known, refused] at isRefused
          | heartbeat other nodeId rackId peerAddr bitmapBytes uploadBwMbps =>
              cases found : tracker.jobs.get? jobId with
              | none => simp [jobAfter]
              | some job => simp [found, jobResponse, refused] at isRefused
          | cancelJob other =>
              cases found : tracker.jobs.get? jobId with
              | none => simp [jobAfter]
              | some job => simp [found, jobResponse, refused] at isRefused
          | _ => rfl

/-- One job, seen through its entry in the table, satisfies the conditions on single steps. -/
theorem job_unwinding (server : Server) (jobId : String) :
    Unwinding server.step (server.kept jobId) server.response
      fun tracker => tracker.jobs.get? jobId where
  unseen := fun _ _ purged => get?_step_of_not_kept purged
  consistent := by
    intro tracker other event same _
    rw [get?_step, get?_step, same]
  answered := by
    intro tracker other event same isKept
    have about : concerns jobId event = true := (Bool.and_eq_true_iff.mp isKept).1
    rw [response_eq_jobResponse about, response_eq_jobResponse about, same]

/-- No event but a creation changes the manifest or the policy of a job. -/
theorem manifest_policy_step (noReuse : NoReuse jobId event) {job : Job}
    (found : tracker.jobs.get? jobId = some job) :
    ∃ after, (server.step tracker event).jobs.get? jobId = some after ∧
      after.manifest = job.manifest ∧ after.policy = job.policy := by
  have change := server.step_jobChange tracker event jobId
  generalize (server.step tracker event).jobs.get? jobId = result at change
  cases change with
  | created _ _ => exact absurd rfl (noReuse _ _ _)
  | reported _ found' =>
      cases found.symm.trans found'
      exact ⟨_, rfl, by simp, by simp⟩
  | cancelled found' =>
      cases found.symm.trans found'
      exact ⟨_, rfl, rfl, rfl⟩
  | evicted => exact ⟨_, congrArg _ found, rfl, rfl⟩
  | untouched _ _ _ => exact ⟨job, found, rfl, rfl⟩

theorem manifest_policy_run {events : List TrackerEvent}
    (noReuse : ∀ event ∈ events, NoReuse jobId event) {job : Job}
    (found : tracker.jobs.get? jobId = some job) :
    ∃ after, (events.foldl server.step tracker).jobs.get? jobId = some after ∧
      after.manifest = job.manifest ∧ after.policy = job.policy := by
  induction events generalizing tracker job with
  | nil => exact ⟨job, found, rfl, rfl⟩
  | cons event events ih =>
      rcases manifest_policy_step (noReuse event List.mem_cons_self) found with
        ⟨next, stored, sameManifest, samePolicy⟩
      rcases ih (fun other mem => noReuse other (List.mem_cons_of_mem event mem)) stored with
        ⟨after, reached, manifest, policy⟩
      exact ⟨after, reached, manifest.trans sameManifest, policy.trans samePolicy⟩

/-- A run without the requests for other jobs and without the refused ones leaves a job exactly as the
whole run does and answers its requests exactly as the whole run does. Behind its creation the
manifest and the policy of the job stay what they are. -/
theorem jobs_do_not_interfere (server : Server) (jobId : String) (events : List TrackerEvent) :
    (server.run (purge server.step (server.kept jobId) .new events)).jobs.get? jobId =
        (server.run events).jobs.get? jobId ∧
      outputs server.step server.response .new
          (purge server.step (server.kept jobId) .new events) =
        keptOutputs server.step (server.kept jobId) server.response .new events ∧
      ∀ before later job, before ++ later = events →
        (server.run before).jobs.get? jobId = some job →
        (∀ event ∈ later, NoReuse jobId event) →
        ∃ after, (server.run events).jobs.get? jobId = some after ∧
          after.manifest = job.manifest ∧ after.policy = job.policy := by
  have purged := (job_unwinding server jobId).purged (Eq.refl (Tracker.new.jobs.get? jobId)) events
  refine ⟨purged.1, purged.2, ?_⟩
  rintro before later job rfl found noReuse
  rw [run_append]
  exact manifest_policy_run noReuse found

end Server

end ModelDistribution
