/-
Module: ModelDistribution.Proofs.HeartbeatEffect
Layer: Proofs
Purpose: What one heartbeat does to its job, exactly. The table changes in the entry of the reporting
  node only, that entry is complete exactly when the reported bytes carry every chunk's bit, and the
  job becomes complete exactly when all entries of the changed table are.
Imports: ModelDistribution.Proofs.BitmapWire, ModelDistribution.Proofs.JobStatus
Trusted boundary: none
Main exports: Job.gate_passes, Tracker.updateNode_effect
-/
import ModelDistribution.Proofs.BitmapWire
import ModelDistribution.Proofs.JobStatus

namespace ModelDistribution

open Foundation

namespace Job

variable (layout : Layout String NodeState) (job : Job) (now : Nat) (report : NodeReport)

/-- The gate on the single-precision ratio lets every heartbeat through whose scan would succeed. -/
theorem gate_passes (all : (job.withReport now report).allNodesComplete layout = true) :
    (1.0 : Float32) ≤ (job.reportedState now report).bitmap.completionRatio := by
  have own : (report.nodeId, job.reportedState now report) ∈
      (job.withReport now report).nodes.entries := by
    rw [withReport_nodes, ShardedMap.mem_insert]
    exact .inl ⟨rfl, rfl⟩
  exact ChunkBitmap.one_le_completionRatio ((allNodesComplete_iff _).mp all _ _ own)

/-- The gate aside, the outcome is that of the scan. -/
theorem afterReport_status_of_allComplete
    (all : (job.afterReport layout now report).AllComplete) :
    (job.afterReport layout now report).status = .complete := by
  rw [afterReport_status, if_pos ((job.reportCompletes_iff_allComplete layout now report).mpr all)]

theorem afterReport_status_of_not_allComplete
    (some : ¬ (job.afterReport layout now report).AllComplete) :
    (job.afterReport layout now report).status = job.status := by
  rw [afterReport_status, if_neg fun completes =>
    some ((job.reportCompletes_iff_allComplete layout now report).mp completes)]

end Job

/-- One heartbeat on a job in any state: the status afterwards, the entry of the reporting node, the
gate, and the frame. -/
theorem Tracker.updateNode_effect (layouts : TableLayouts) (tracker : Tracker) (now : Nat)
    (jobId : String) (report : NodeReport) {job : Job}
    (registered : tracker.jobs.get? jobId = some job) :
    ∃ after job', updateNode layouts tracker now jobId report = .ok after ∧
      after.jobs.get? jobId = some job' ∧
      (job'.AllComplete → job'.status = .complete) ∧
      (¬ job'.AllComplete → job'.status = job.status) ∧
      (∃ state, job'.nodes.get? report.nodeId = some state ∧
        state.bitmap = .fromBytes report.bitmapBytes job.manifest.chunkCount ∧
        (state.bitmap.isComplete = true ↔
          ∀ i < job.manifest.chunkCount, ChunkBitmap.wireBit report.bitmapBytes i.toNat = true) ∧
        (job'.AllComplete → (1.0 : Float32) ≤ state.bitmap.completionRatio)) ∧
      (∀ other, other ≠ report.nodeId → job'.nodes.get? other = job.nodes.get? other) ∧
      ∀ other, other ≠ jobId → after.jobs.get? other = tracker.jobs.get? other := by
  obtain ⟨unknown, _⟩ | ⟨job₀, after, found, returned, table⟩ :=
    updateNode_spec layouts tracker now jobId report
  · rw [registered] at unknown
    cases unknown
  · rw [registered] at found
    cases found
    refine ⟨after, job.afterReport (layouts.nodes jobId) now report, returned, ?_,
      job.afterReport_status_of_allComplete _ now report,
      job.afterReport_status_of_not_allComplete _ now report,
      ⟨job.reportedState now report, ?_, rfl, ?_, ?_⟩, ?_, ?_⟩
    · rw [table, if_pos rfl]
    · rw [Job.afterReport_nodes, ShardedMap.get?_insert, if_pos rfl]
    · rw [Job.reportedState_bitmap, ChunkBitmap.isComplete_fromBytes_iff]
    · intro all
      apply job.gate_passes (layouts.nodes jobId)
      rw [Job.allNodesComplete_iff]
      simpa [Job.AllComplete] using all
    · intro other different
      rw [Job.afterReport_nodes, ShardedMap.get?_insert, if_neg different]
    · intro other different
      rw [table, if_neg different]

/-- The first heartbeat of a job of two chunks, with one padding bit raised and one chunk missing. -/
theorem Tracker.updateNode_effect_first :
    (Tracker.new.createJob "job" sampleManifest .rarityFirst).2.jobs.get? "job" =
        some (.new "job" sampleManifest .rarityFirst) ∧
      ∃ after, updateNode sampleServer.layouts
        (Tracker.new.createJob "job" sampleManifest .rarityFirst).2 7 "job"
        { nodeId := "n", rackId := "r", peerAddr := "n:1", bitmapBytes := [0xA0],
          uploadBwMbps := 10 } = .ok after := by
  have registered : (Tracker.new.createJob "job" sampleManifest .rarityFirst).2.jobs.get? "job" =
      some (.new "job" sampleManifest .rarityFirst) := by
    rw [get?_createJob, if_pos rfl]
  obtain ⟨after, _, returned, _⟩ := updateNode_effect sampleServer.layouts _ 7 "job"
    { nodeId := "n", rackId := "r", peerAddr := "n:1", bitmapBytes := [0xA0], uploadBwMbps := 10 }
    registered
  exact ⟨registered, after, returned⟩

end ModelDistribution
