/-
Module: ModelDistribution.Proofs.RequestSafety
Layer: Proofs
Purpose: When no request can crash the tracker. A heartbeat stores whatever bitmap it carries, so a
  bitmap with fewer bits than the job has chunks is found by a later request; a run is free of
  panics exactly when every heartbeat to a known job carries enough bits and no replica counter
  leaves 32 bits in a build that checks it.
Imports: ModelDistribution.Proofs.ReplicaCounts, ModelDistribution.Proofs.TrackerInvariants
Trusted boundary: none
Main exports: Server.CrashFree, Server.EnoughBits, Server.crashFree_iff, crashFree_run_iff
-/
import ModelDistribution.Proofs.ReplicaCounts
import ModelDistribution.Proofs.TrackerInvariants

namespace ModelDistribution

open Foundation

namespace Server

/-- In this state every request is answered, and the replica counts of every job can be read. -/
structure CrashFree (server : Server) (profile : Profile) (tracker : Tracker) : Prop where
  answers : ∀ now freshId request, ∃ response,
    (server.dispatch tracker now freshId request).2 = .ok response
  counts : tracker.AllJobs fun jobId job =>
    ∃ counts, job.replicaCounts profile (server.layouts.nodes jobId) = .ok counts

/-- A heartbeat to a known job carries a bit for every chunk. -/
def EnoughBits (tracker : Tracker) (event : TrackerEvent) : Prop :=
  ∀ now freshId request jobId report job, event = .request now freshId request →
    reportOf request = some (jobId, report) → tracker.jobs.get? jobId = some job →
    job.manifest.chunkCount.toNat ≤ 8 * report.bitmapBytes.length

/-- Every stored bitmap of the job is full. -/
def BitmapsFull (_jobId : String) (job : Job) : Prop :=
  ∀ nodeId state, (nodeId, state) ∈ job.nodes.entries → state.bitmap.Full

section State

variable {server : Server} {tracker : Tracker}

/-- With full bitmaps every request is answered. -/
theorem dispatch_answers (full : tracker.AllJobs BitmapsFull) (now : Nat) (freshId : String)
    (request : Request) :
    ∃ response, (server.dispatch tracker now freshId request).2 = .ok response := by
  cases request with
  | createJob bytes policyText =>
      simp only [dispatch]
      split
      · exact ⟨_, rfl⟩
      · split <;> exact ⟨_, rfl⟩
  | heartbeat jobId nodeId rackId peerAddr bitmapBytes uploadBwMbps =>
      simp only [dispatch]
      split <;> exact ⟨_, rfl⟩
  | getPeers jobId nodeId rackId chunkIndex topN =>
      rcases tracker.getPeers_spec server.layouts jobId nodeId rackId chunkIndex topN with
        ⟨_, refused⟩ | ⟨job, found, returned⟩
      · simp only [dispatch, refused]
        exact ⟨_, rfl⟩
      · obtain ⟨peers, scheduled⟩ := Tracker.schedule_returns (server.layouts.nodes jobId)
          (fun entry mem => full jobId job found entry.1 entry.2 mem) nodeId rackId chunkIndex topN
        simp only [dispatch, returned, scheduled, Except.map]
        exact ⟨_, rfl⟩
  | getStatus jobId =>
      simp only [dispatch]
      split <;> exact ⟨_, rfl⟩
  | cancelJob jobId =>
      simp only [dispatch]
      split <;> exact ⟨_, rfl⟩
  | listJobs => exact ⟨_, rfl⟩

/-- In a coherent state nothing can crash exactly when every stored bitmap is full and the replica
counters fit. -/
theorem crashFree_iff {profile : Profile} (coherent : tracker.AllJobs Coherent) :
    server.CrashFree profile tracker ↔
      tracker.AllJobs BitmapsFull ∧ tracker.AllJobs fun _ job => job.CountersFit profile := by
  have countsOf : ∀ jobId job, tracker.jobs.get? jobId = some job → BitmapsFull jobId job →
      ((∃ counts, job.replicaCounts profile (server.layouts.nodes jobId) = .ok counts) ↔
        job.CountersFit profile) := by
    intro jobId job found full
    apply Job.replicaCounts_returns_iff
    intro entry mem
    exact ⟨full entry.1 entry.2 mem, (coherent jobId job found).chunkCount_eq entry.1 entry.2 mem⟩
  constructor
  · intro safe
    have full : tracker.AllJobs BitmapsFull := by
      intro jobId job found nodeId state mem
      by_contra short
      have count := (coherent jobId job found).chunkCount_eq nodeId state mem
      have bits : state.bitmap.bits.len < job.manifest.chunkCount.toNat := by
        rw [← count]
        exact Nat.lt_of_le_of_ne state.bitmap.within short
      obtain ⟨panic, stopped⟩ := Job.replicaCounts_panics profile
        (server.layouts.nodes jobId) mem bits count
      obtain ⟨counts, returned⟩ := safe.counts jobId job found
      rw [stopped] at returned
      cases returned
    exact ⟨full, fun jobId job found =>
      (countsOf jobId job found (full jobId job found)).mp (safe.counts jobId job found)⟩
  · rintro ⟨full, fits⟩
    exact ⟨dispatch_answers full, fun jobId job found =>
      (countsOf jobId job found (full jobId job found)).mpr (fits jobId job found)⟩

/-- A step keeps all bitmaps full exactly when it stores no short one. -/
theorem bitmapsFull_step_iff (event : TrackerEvent) (full : tracker.AllJobs BitmapsFull) :
    (server.step tracker event).AllJobs BitmapsFull ↔ EnoughBits tracker event := by
  constructor
  · rintro after now freshId request jobId report job rfl heartbeat found
    have entry := after jobId _ (step_report heartbeat found) report.nodeId
      (job.reportedState now report) (by
        rw [Job.afterReport_nodes, ShardedMap.mem_insert]
        exact .inl ⟨rfl, rfl⟩)
    rw [Job.reportedState_bitmap, ChunkBitmap.full_fromBytes_iff] at entry
    exact entry
  · intro enough jobId
    apply (server.step_jobChange tracker event jobId).preserves (BitmapsFull jobId)
    · intro manifest policy nodeId state mem
      simp [Job.new] at mem
    · intro now freshId request report job eventEq heartbeat found known nodeId state mem
      rw [Job.afterReport_nodes, ShardedMap.mem_insert] at mem
      rcases mem with ⟨_, rfl⟩ | ⟨_, old⟩
      · rw [Job.reportedState_bitmap, ChunkBitmap.full_fromBytes_iff]
        exact enough now freshId request jobId report job eventEq heartbeat found
      · exact known nodeId state old
    · intro job known
      exact known
    · intro now timeoutSecs job known nodeId state mem
      exact known nodeId state (Job.mem_evictStale.mp mem).1
    · exact full jobId

end State

/-- In every state that a run visits every further request is answered and no lookup or counter
leaves its range, exactly when every heartbeat of the run to a known job carries a bit for each
chunk and, in a build that checks overflow, no chunk ever has `2 ^ 32` registered holders. -/
theorem crashFree_run_iff (server : Server) (profile : Profile) (events : List TrackerEvent) :
    (∀ pre, pre <+: events → server.CrashFree profile (server.run pre)) ↔
      (∀ pre event, pre ++ [event] <+: events → EnoughBits (server.run pre) event) ∧
        ∀ pre, pre <+: events →
          (server.run pre).AllJobs fun _ job => job.CountersFit profile := by
  have fullExactly : (∀ pre, pre <+: events → (server.run pre).AllJobs BitmapsFull) ↔
      ∀ pre event, pre ++ [event] <+: events → EnoughBits (server.run pre) event := by
    apply run_exact (fun tracker => tracker.AllJobs BitmapsFull) fun _ => True
    · exact allJobs_new BitmapsFull
    · intro tracker event _ full
      exact bitmapsFull_step_iff event full
    · intro _ _
      trivial
  rw [← fullExactly]
  constructor
  · intro safe
    have both := fun pre isPrefix =>
      (crashFree_iff (server.run_coherent pre)).mp (safe pre isPrefix)
    exact ⟨fun pre isPrefix => (both pre isPrefix).1, fun pre isPrefix => (both pre isPrefix).2⟩
  · rintro ⟨full, fits⟩ pre isPrefix
    exact (crashFree_iff (server.run_coherent pre)).mpr ⟨full pre isPrefix, fits pre isPrefix⟩

/-- A heartbeat without any bitmap bytes makes the next query for peers panic. -/
theorem empty_bitmap_crashes_getPeers :
    let events : List TrackerEvent :=
      [.request 0 "j" (.createJob sampleManifestBytes "rarity-first"),
       .request 1 "k" (.heartbeat "j" "n" "rack-A" "n:7100" [] 8000)]
    (sampleServer.dispatch (sampleServer.run events) 2 "l"
      (.getPeers "j" "p" "rack-B" 0 5)).2.panic? = some .indexOutOfBounds := by
  simp only [run, List.foldl_cons, List.foldl_nil, step_createSample]
  decide +kernel

end Server

end ModelDistribution
