/-
Module: ModelDistribution.Tracker.Server
Layer: Model
Purpose: The control-plane server: one request is dispatched to the tracker operations and answered.
  A run of the server interleaves requests with eviction passes. Parsing the manifest bytes of a
  request is a parameter.
Imports: ModelDistribution.Proto, ModelDistribution.Tracker.Operations
Trusted boundary: human-reviewed spec
Main exports: Server, Server.dispatch, TrackerEvent, Server.step, Server.response, jobAfter,
  get?_step, JobChange, step_jobChange, step_report

[src/tracker/server.rs]
-/
import ModelDistribution.Proto
import ModelDistribution.Tracker.Operations

namespace ModelDistribution

open Foundation

/-- What a server runs with: the layout of its tables and the parser of manifest bytes. -/
structure Server where
  layouts : TableLayouts
  manifestFromSlice : List UInt8 → Except String Manifest

namespace Server

/-- `Manifest::deserialise`. -/
def deserialise (server : Server) (bytes : List UInt8) : Except DistError Manifest :=
  match server.manifestFromSlice bytes with
  | .ok manifest => .ok manifest
  | .error message => .error (.serde message)

theorem deserialise_eq_ok {server : Server} {bytes : List UInt8} {manifest : Manifest}
    (parsed : server.manifestFromSlice bytes = .ok manifest) :
    server.deserialise bytes = .ok manifest := by
  rw [deserialise, parsed]

/-- `dispatch`: the tracker afterwards and the response, or the panic that answering raises.
`freshId` is the identifier that a created job draws. -/
def dispatch (server : Server) (tracker : Tracker) (now : Nat) (freshId : String) :
    Request → Tracker × Checked Response
  | .createJob manifestBytes policy =>
      match server.deserialise manifestBytes with
      | .error e => (tracker, .ok (.error e.toString))
      | .ok manifest =>
          match SchedulingPolicy.fromStr policy with
          | .error e => (tracker, .ok (.error e.toString))
          | .ok policy =>
              let created := tracker.createJob freshId manifest policy
              (created.2, .ok (.jobCreated created.1.jobId))
  | .heartbeat jobId nodeId rackId peerAddr bitmapBytes uploadBwMbps =>
      match tracker.updateNode server.layouts now jobId
          { nodeId, rackId, peerAddr, bitmapBytes, uploadBwMbps } with
      | .error e => (tracker, .ok (.error e.toString))
      | .ok after =>
          let jobComplete :=
            match after.getJob jobId with
            | .ok job => decide (job.status = .complete)
            | .error _ => false
          (after, .ok (.heartbeatAck jobComplete))
  | .getPeers jobId nodeId rackId chunkIndex topN =>
      match tracker.getPeers server.layouts jobId nodeId rackId chunkIndex topN with
      | .error panic => (tracker, .error panic)
      | .ok (.error e) => (tracker, .ok (.error e.toString))
      | .ok (.ok (peers, after)) => (after, .ok (.peers (peers.map PeerInfo.fromCandidate)))
  | .getStatus jobId =>
      match tracker.getJob jobId with
      | .error e => (tracker, .ok (.error e.toString))
      | .ok job =>
          (tracker, .ok (.status (job.snapshot (server.layouts.nodes jobId) now).toValue))
  | .cancelJob jobId =>
      match tracker.cancelJob jobId with
      | .error e => (tracker, .ok (.error e.toString))
      | .ok after => (after, .ok .ok)
  | .listJobs =>
      (tracker, .ok (.jobList ((tracker.allJobSnapshots server.layouts now).map
        JobSnapshot.toValue)))

end Server

/-- What reaches the tracker: a request with the clock reading and the identifier it may draw, or a
pass of the background eviction. -/
inductive TrackerEvent where
  | request (now : Nat) (freshId : String) (request : Request)
  | evict (now : Nat) (timeoutSecs : UInt64)
deriving DecidableEq, Repr

namespace Server

/-- The tracker after one event. -/
def step (server : Server) (tracker : Tracker) : TrackerEvent → Tracker
  | .request now freshId request => (server.dispatch tracker now freshId request).1
  | .evict now timeoutSecs => tracker.evictStaleNodes now timeoutSecs

/-- The answer to one event; an eviction pass answers nothing and cannot panic. -/
def response (server : Server) (tracker : Tracker) :
    TrackerEvent → Checked (Option Response)
  | .request now freshId request => (server.dispatch tracker now freshId request).2.map some
  | .evict _ _ => .ok none

/-- The tracker after a run of events. -/
def run (server : Server) (events : List TrackerEvent) : Tracker :=
  events.foldl server.step .new

/-- A creation request with a readable manifest and a known policy stores a new job. -/
theorem step_createJob {server : Server} {bytes : List UInt8} {policyText : String}
    {manifest : Manifest} {policy : SchedulingPolicy} (tracker : Tracker) (now : Nat)
    (freshId : String) (parsed : server.deserialise bytes = .ok manifest)
    (known : SchedulingPolicy.fromStr policyText = .ok policy) :
    server.step tracker (.request now freshId (.createJob bytes policyText)) =
      (tracker.createJob freshId manifest policy).2 := by
  simp only [step, dispatch, parsed, known]

/-! ### What one event does to one job

Every proof about runs reads the effect of an event on the job table from these lemmas. -/

/-- A heartbeat request as the report it carries. -/
def reportOf : Request → Option (String × NodeReport)
  | .heartbeat jobId nodeId rackId peerAddr bitmapBytes uploadBwMbps =>
      some (jobId, { nodeId, rackId, peerAddr, bitmapBytes, uploadBwMbps })
  | _ => none

/-- What an event leaves of the job under an identifier, from that job alone. -/
def jobAfter (server : Server) (jobId : String) (known : Option Job) : TrackerEvent → Option Job
  | .evict now timeoutSecs => known.map fun job => job.evictStale now timeoutSecs
  | .request now freshId request =>
      match request with
      | .createJob manifestBytes policyText =>
          if freshId = jobId then
            match server.deserialise manifestBytes, SchedulingPolicy.fromStr policyText with
            | .ok manifest, .ok policy => some (.new jobId manifest policy)
            | _, _ => known
          else known
      | .heartbeat other nodeId rackId peerAddr bitmapBytes uploadBwMbps =>
          if other = jobId then
            known.map fun job => job.afterReport (server.layouts.nodes jobId) now
              { nodeId, rackId, peerAddr, bitmapBytes, uploadBwMbps }
          else known
      | .cancelJob other =>
          if other = jobId then known.map fun job => { job with status := .cancelled } else known
      | _ => known

/-- The table of jobs changes job by job. -/
theorem get?_step (server : Server) (tracker : Tracker) (event : TrackerEvent) (jobId : String) :
    (server.step tracker event).jobs.get? jobId =
      server.jobAfter jobId (tracker.jobs.get? jobId) event := by
  cases event with
  | evict now timeoutSecs => exact Tracker.get?_evictStaleNodes tracker now timeoutSecs jobId
  | request now freshId request =>
      cases request with
      | createJob manifestBytes policyText =>
          simp only [step, dispatch, jobAfter]
          cases server.deserialise manifestBytes with
          | error e => simp
          | ok manifest =>
              cases SchedulingPolicy.fromStr policyText with
              | error e => simp
              | ok policy =>
                  simp only [Tracker.get?_createJob]
                  by_cases same : freshId = jobId
                  · subst same
                    simp
                  · simp [same, Ne.symm same]
      | heartbeat other nodeId rackId peerAddr bitmapBytes uploadBwMbps =>
          rcases tracker.updateNode_spec server.layouts now other
              { nodeId, rackId, peerAddr, bitmapBytes, uploadBwMbps } with
            ⟨absent, refused⟩ | ⟨job, after, found, returned, table⟩
          · simp only [step, dispatch, refused, jobAfter]
            split
            · rename_i same
              subst same
              simp [absent]
            · rfl
          · simp only [step, dispatch, returned, table, jobAfter]
            by_cases same : other = jobId
            · subst same
              simp [found]
            · simp [same, Ne.symm same]
      | getPeers other nodeId rackId chunkIndex topN =>
          rcases tracker.getPeers_spec server.layouts other nodeId rackId chunkIndex topN with
            ⟨_, refused⟩ | ⟨job, _, returned⟩
          · simp only [step, dispatch, refused, jobAfter]
          · simp only [step, dispatch, returned, jobAfter]
            cases Tracker.schedule (server.layouts.nodes other) job nodeId rackId chunkIndex topN <;>
              rfl
      | getStatus other =>
          simp only [step, dispatch, jobAfter]
          split <;> rfl
      | cancelJob other =>
          rcases tracker.cancelJob_spec other with ⟨absent, refused⟩ | ⟨job, found, returned⟩
          · simp only [step, dispatch, refused, jobAfter]
            split
            · rename_i same
              subst same
              simp [absent]
            · rfl
          · simp only [step, dispatch, returned, Tracker.get?_setJob, jobAfter]
            by_cases same : other = jobId
            · subst same
              simp [found]
            · simp [same, Ne.symm same]
      | listJobs => rfl

/-- How one event changes the job under an identifier. -/
inductive JobChange (server : Server) (jobId : String) (before : Option Job) :
    TrackerEvent → Option Job → Prop where
  | created {now : Nat} {bytes : List UInt8} {policyText : String} {manifest : Manifest}
      {policy : SchedulingPolicy} (parsed : server.deserialise bytes = .ok manifest)
      (known : SchedulingPolicy.fromStr policyText = .ok policy) :
      JobChange server jobId before (.request now jobId (.createJob bytes policyText))
        (some (.new jobId manifest policy))
  | reported {now : Nat} {freshId : String} {request : Request} {report : NodeReport} {job : Job}
      (heartbeat : reportOf request = some (jobId, report)) (found : before = some job) :
      JobChange server jobId before (.request now freshId request)
        (some (job.afterReport (server.layouts.nodes jobId) now report))
  | cancelled {now : Nat} {freshId : String} {job : Job} (found : before = some job) :
      JobChange server jobId before (.request now freshId (.cancelJob jobId))
        (some { job with status := .cancelled })
  | evicted {now : Nat} {timeoutSecs : UInt64} :
      JobChange server jobId before (.evict now timeoutSecs)
        (before.map fun job => job.evictStale now timeoutSecs)
  | untouched {event : TrackerEvent}
      (notEviction : ∀ now timeoutSecs, event ≠ .evict now timeoutSecs)
      (notReport : ∀ now freshId request report, event = .request now freshId request →
        reportOf request = some (jobId, report) → before = none)
      (notCancel : ∀ now freshId, event = .request now freshId (.cancelJob jobId) →
        before = none) :
      JobChange server jobId before event before

/-- A request that is neither a report to the job nor its cancellation leaves it as it is; where it is
one, the job must be unknown. -/
theorem JobChange.untouched_request {server : Server} {jobId : String} {before : Option Job}
    {now : Nat} {freshId : String} {request : Request}
    (notReport : ∀ report, reportOf request = some (jobId, report) → before = none)
    (notCancel : request = .cancelJob jobId → before = none) :
    JobChange server jobId before (.request now freshId request) before := by
  apply JobChange.untouched
  · intro _ _ same
    cases same
  · intro _ _ _ report same heartbeat
    cases same
    exact notReport report heartbeat
  · intro _ _ same
    cases same
    exact notCancel rfl

/-- The whole effect of an event on one job. -/
theorem step_jobChange (server : Server) (tracker : Tracker) (event : TrackerEvent)
    (jobId : String) :
    JobChange server jobId (tracker.jobs.get? jobId) event
      ((server.step tracker event).jobs.get? jobId) := by
  rw [get?_step]
  generalize tracker.jobs.get? jobId = known
  cases event with
  | evict now timeoutSecs => exact .evicted
  | request now freshId request =>
      cases request with
      | createJob bytes policyText =>
          simp only [jobAfter]
          split
          · rename_i same
            subst same
            split
            · rename_i parsed accepted
              exact .created parsed accepted
            · exact .untouched_request (by simp [reportOf]) (by simp)
          · exact .untouched_request (by simp [reportOf]) (by simp)
      | heartbeat other nodeId rackId peerAddr bitmapBytes uploadBwMbps =>
          simp only [jobAfter]
          split
          · rename_i same
            subst same
            cases known with
            | none => exact .untouched_request (fun _ _ => rfl) (by simp)
            | some job => exact .reported rfl rfl
          · rename_i different
            apply JobChange.untouched_request
            · intro report heartbeat
              cases heartbeat
              exact absurd rfl different
            · intro same
              cases same
      | cancelJob other =>
          simp only [jobAfter]
          split
          · rename_i same
            subst same
            cases known with
            | none => exact .untouched_request (by simp [reportOf]) (fun _ => rfl)
            | some job => exact .cancelled rfl
          · rename_i different
            apply JobChange.untouched_request
            · intro report heartbeat
              cases heartbeat
            · intro same
              cases same
              exact absurd rfl different
      | _ => exact .untouched_request (by simp [reportOf]) (by simp)

/-- A heartbeat to a known job leaves the job with its report. -/
theorem step_report {server : Server} {tracker : Tracker} {now : Nat} {freshId jobId : String}
    {request : Request} {report : NodeReport} {job : Job}
    (heartbeat : reportOf request = some (jobId, report))
    (found : tracker.jobs.get? jobId = some job) :
    (server.step tracker (.request now freshId request)).jobs.get? jobId =
      some (job.afterReport (server.layouts.nodes jobId) now report) := by
  have change := server.step_jobChange tracker (.request now freshId request) jobId
  generalize (server.step tracker (.request now freshId request)).jobs.get? jobId = after
    at change ⊢
  cases change with
  | created => cases heartbeat
  | reported heartbeat' found' =>
      rw [heartbeat] at heartbeat'
      cases heartbeat'
      rw [found] at found'
      cases found'
      rfl
  | cancelled => cases heartbeat
  | untouched _ notReport _ =>
      have absent := notReport _ _ _ _ rfl heartbeat
      rw [found] at absent
      cases absent

end Server

end ModelDistribution
