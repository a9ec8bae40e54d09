/-
Module: ModelDistribution.Proofs.ManifestHandover
Layer: Proofs
Purpose: The hand-over of the manifest from the tracker to a node. A created job is found by every
  later status request, but the snapshot that answers it has no member `manifest` and only two of the
  fields of one, so a node can never decode its manifest from it.
Imports: ModelDistribution.Peer.Node, ModelDistribution.Proofs.TrackerInvariants
Trusted boundary: none
Main exports: fromValue_snapshot, fetchManifest_snapshot, getStatus_after_createJob,
  fetchManifest_never_delivers, fetchManifest_fails_for_sample
-/
import ModelDistribution.Peer.Node
import ModelDistribution.Proofs.TrackerInvariants

namespace ModelDistribution

open Foundation

/-! ### The two ends of the status body -/

/-- The encoding of a job snapshot is no encoding of a manifest. -/
theorem fromValue_snapshot (snapshot : JobSnapshot) :
    Manifest.fromValue snapshot.toValue = .error "missing field `total_size`" := by
  have fileId : snapshot.toValue.field "file_id" Json.asString = .ok snapshot.fileId := by
    have member : snapshot.toValue.get? "file_id" = some (.string snapshot.fileId) := by
      simp [JobSnapshot.toValue, Json.get?_cons]
    rw [Json.field_of_get? Json.asString member]
    rfl
  have version : snapshot.toValue.field "version" Json.asString = .ok snapshot.version := by
    have member : snapshot.toValue.get? "version" = some (.string snapshot.version) := by
      simp [JobSnapshot.toValue, Json.get?_cons]
    rw [Json.field_of_get? Json.asString member]
    rfl
  have totalSize : snapshot.toValue.field "total_size" Json.asUInt64 =
      .error "missing field `total_size`" := by
    apply Json.field_missing
    apply Json.get?_eq_none
    simp
  unfold JobSnapshot.toValue at *
  simp only [Manifest.fromValue, fileId, version, totalSize, bind, Except.bind]

/-- What `fetch_manifest` makes of a status body that encodes a snapshot. -/
theorem fetchManifest_snapshot (debugText : Response → String) (snapshot : JobSnapshot) :
    PeerNode.fetchManifest debugText (.ok (.status snapshot.toValue)) =
      .error (.proto "missing field `total_size`") := by
  have noManifest : snapshot.toValue.get? "manifest" = none := by
    apply Json.get?_eq_none
    simp
  simp only [PeerNode.fetchManifest, TrackerClient.jobStatus, bind, Except.bind, pure, Except.pure,
    noManifest, Option.getD_none, fromValue_snapshot]

namespace Server

variable {server : Server}

/-! ### A created job stays known -/

/-- No event removes a job. -/
theorem step_keeps_job {tracker : Tracker} {jobId : String} (event : TrackerEvent)
    (known : ∃ job, tracker.jobs.get? jobId = some job) :
    ∃ job, (server.step tracker event).jobs.get? jobId = some job := by
  rcases known with ⟨job, found⟩
  have change := server.step_jobChange tracker event jobId
  generalize (server.step tracker event).jobs.get? jobId = after at change
  cases change with
  | created _ _ => exact ⟨_, rfl⟩
  | reported _ _ => exact ⟨_, rfl⟩
  | cancelled _ => exact ⟨_, rfl⟩
  | evicted => exact ⟨_, congrArg (Option.map _) found⟩
  | untouched _ _ _ => exact ⟨job, found⟩

theorem foldl_keeps_job {tracker : Tracker} {jobId : String} (events : List TrackerEvent)
    (known : ∃ job, tracker.jobs.get? jobId = some job) :
    ∃ job, (events.foldl server.step tracker).jobs.get? jobId = some job := by
  induction events generalizing tracker with
  | nil => exact known
  | cons event events ih => exact ih (step_keeps_job event known)

/-- A creation request that is answered with an identifier stores a job under it. -/
theorem known_of_jobCreated {tracker : Tracker} {now : Nat} {freshId jobId policyText : String}
    {bytes : List UInt8}
    (accepted : (server.dispatch tracker now freshId (.createJob bytes policyText)).2 =
      .ok (.jobCreated jobId)) :
    ∃ job, (server.step tracker (.request now freshId (.createJob bytes policyText))).jobs.get?
      jobId = some job := by
  rcases stored_of_jobCreated accepted with ⟨_, manifest, policy, _, _, created⟩
  exact ⟨_, created⟩

/-- A status request for a known job is answered with its snapshot. -/
theorem dispatch_getStatus {tracker : Tracker} {jobId : String} {job : Job} (now : Nat)
    (freshId : String) (found : tracker.jobs.get? jobId = some job) :
    (server.dispatch tracker now freshId (.getStatus jobId)).2 =
      .ok (.status (job.snapshot (server.layouts.nodes jobId) now).toValue) := by
  simp only [dispatch, Tracker.getJob_eq_ok_iff.mpr found]

/-- Behind the creation of a job, whatever else has happened, its status requests are answered with
snapshots. -/
theorem getStatus_after_createJob (before later : List TrackerEvent) {now : Nat}
    {freshId jobId policyText : String} {bytes : List UInt8}
    (accepted : (server.dispatch (server.run before) now freshId
      (.createJob bytes policyText)).2 = .ok (.jobCreated jobId)) (asked : Nat) (askId : String) :
    ∃ snapshot : JobSnapshot,
      (server.dispatch
        (server.run (before ++ .request now freshId (.createJob bytes policyText) :: later))
        asked askId (.getStatus jobId)).2 = .ok (.status snapshot.toValue) := by
  have stays : ∃ job, (server.run
      (before ++ .request now freshId (.createJob bytes policyText) :: later)).jobs.get? jobId =
      some job := by
    rw [run_append, List.foldl_cons]
    exact foldl_keeps_job later (known_of_jobCreated accepted)
  rcases stays with ⟨job, found⟩
  exact ⟨_, dispatch_getStatus asked askId found⟩

/-- Whatever manifest a job was created with and whatever has happened since, `fetch_manifest` fails
on the answer to its status request, with the first field of a manifest that a snapshot lacks. -/
theorem fetchManifest_never_delivers (server : Server) (debugText : Response → String)
    (before later : List TrackerEvent) (now asked : Nat) (freshId askId policyText jobId : String)
    (bytes : List UInt8)
    (accepted : (server.dispatch (server.run before) now freshId
      (.createJob bytes policyText)).2 = .ok (.jobCreated jobId)) :
    ∃ body, (server.dispatch
        (server.run (before ++ .request now freshId (.createJob bytes policyText) :: later))
        asked askId (.getStatus jobId)).2 = .ok (.status body) ∧
      PeerNode.fetchManifest debugText (.ok (.status body)) =
        .error (.proto "missing field `total_size`") := by
  rcases getStatus_after_createJob before later accepted asked askId with ⟨snapshot, answered⟩
  exact ⟨snapshot.toValue, answered, fetchManifest_snapshot debugText snapshot⟩

/-- The sample job, with a heartbeat between its creation and the status request. -/
theorem fetchManifest_never_delivers_sample :
    ∃ body, (sampleServer.dispatch
        (sampleServer.run ([] ++ .request 0 "j" (.createJob sampleManifestBytes "rarity-first") ::
          [.request 1 "k" (.heartbeat "j" "n" "rack-A" "n:7100" [128] 8000)]))
        2 "l" (.getStatus "j")).2 = .ok (.status body) ∧
      PeerNode.fetchManifest (fun _ => "") (.ok (.status body)) =
        .error (.proto "missing field `total_size`") :=
  fetchManifest_never_delivers sampleServer (fun _ => "") [] _ 0 2 "j" "l" "rarity-first" "j"
    sampleManifestBytes (dispatch_createSample _ 0 "j")

/-- The first status request behind the creation of the sample job does not deliver its manifest. -/
theorem fetchManifest_fails_for_sample :
    (sampleServer.dispatch (sampleServer.run []) 0 "j"
        (.createJob sampleManifestBytes "rarity-first")).2 = .ok (.jobCreated "j") ∧
      ∃ body, (sampleServer.dispatch
          (sampleServer.run [.request 0 "j" (.createJob sampleManifestBytes "rarity-first")])
          1 "k" (.getStatus "j")).2 = .ok (.status body) ∧
        PeerNode.fetchManifest (fun _ => "") (.ok (.status body)) ≠ .ok sampleManifest := by
  refine ⟨dispatch_createSample _ 0 "j", ?_⟩
  rcases getStatus_after_createJob [] [] (dispatch_createSample _ 0 "j") 1 "k" with
    ⟨snapshot, answered⟩
  refine ⟨snapshot.toValue, answered, ?_⟩
  rw [fetchManifest_snapshot]
  intro same
  cases same

end Server

end ModelDistribution
