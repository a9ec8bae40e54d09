/-
Module: ModelDistribution.Proofs.TrackerInvariants
Layer: Proofs
Purpose: Job properties over whole runs of the tracker. A property that survives creation, reports,
  cancellation and eviction holds of every stored job; the first instance is that every job is
  stored under its own identifier and every node entry under its own, with a bitmap of the job's
  chunk count.
Imports: ModelDistribution.Foundation.Machine, ModelDistribution.Proofs.Reassembly,
  ModelDistribution.Tracker.Server
Trusted boundary: none
Main exports: Server.JobChange.preserves, Tracker.AllJobs, Server.NoReuse,
  Server.stored_of_jobCreated, Server.Coherent, Server.run_coherent, sampleServer
-/
import ModelDistribution.Foundation.Machine
import ModelDistribution.Proofs.Reassembly
import ModelDistribution.Tracker.Server

namespace ModelDistribution

open Foundation

/-- A property of every stored job, with the identifier it is stored under. -/
def Tracker.AllJobs (tracker : Tracker) (P : String → Job → Prop) : Prop :=
  ∀ jobId job, tracker.jobs.get? jobId = some job → P jobId job

namespace Server

/-- What creation, the report of the event, cancellation and eviction keep, the event keeps. -/
theorem JobChange.preserves {server : Server} {jobId : String} {before after : Option Job}
    {event : TrackerEvent} (change : JobChange server jobId before event after) (P : Job → Prop)
    (created : ∀ manifest policy, P (.new jobId manifest policy))
    (reported : ∀ now freshId request report job, event = .request now freshId request →
      reportOf request = some (jobId, report) → before = some job → P job →
      P (job.afterReport (server.layouts.nodes jobId) now report))
    (cancelled : ∀ job, P job → P { job with status := .cancelled })
    (evicted : ∀ now timeoutSecs job, P job → P (job.evictStale now timeoutSecs))
    (holds : ∀ job, before = some job → P job) : ∀ job, after = some job → P job := by
  intro job stored
  cases change with
  | created parsed known =>
      cases stored
      exact created _ _
  | reported heartbeat found =>
      cases stored
      exact reported _ _ _ _ _ rfl heartbeat found (holds _ found)
  | cancelled found =>
      cases stored
      exact cancelled _ (holds _ found)
  | evicted =>
      obtain ⟨old, found, rfl⟩ := Option.map_eq_some_iff.mp stored
      exact evicted _ _ _ (holds _ found)
  | untouched _ _ _ => exact holds _ stored

@[simp] theorem run_nil (server : Server) : server.run [] = .new := rfl

theorem run_append (server : Server) (first second : List TrackerEvent) :
    server.run (first ++ second) = second.foldl server.step (server.run first) :=
  List.foldl_append

/-- What holds of the empty tracker and survives every event holds after every run. -/
theorem run_invariant {server : Server} (Inv : Tracker → Prop) (start : Inv .new)
    (preserved : ∀ tracker event, Inv tracker → Inv (server.step tracker event))
    (events : List TrackerEvent) : Inv (server.run events) :=
  foldl_invariant (fun tracker event (_ : True) => preserved tracker event) start
    fun _ _ => trivial

/-- When every admitted event keeps a property exactly under a guard, a run of admitted events keeps
it at every prefix exactly when all its events meet the guard. -/
theorem run_exact {server : Server} (Property : Tracker → Prop)
    {Guard : Tracker → TrackerEvent → Prop} (Admitted : TrackerEvent → Prop)
    (start : Property .new)
    (exact' : ∀ tracker event, Admitted event → Property tracker →
      (Property (server.step tracker event) ↔ Guard tracker event))
    {events : List TrackerEvent} (admitted : ∀ event ∈ events, Admitted event) :
    (∀ pre, pre <+: events → Property (server.run pre)) ↔
      ∀ pre event, pre ++ [event] <+: events → Guard (server.run pre) event :=
  foldl_exact (fun _ _ _ (_ : True) => trivial)
    (fun tracker event allowed _ holds => exact' tracker event allowed holds) trivial start admitted

/-- The event does not create another job under the identifier. -/
def NoReuse (jobId : String) (event : TrackerEvent) : Prop :=
  ∀ now bytes policyText, event ≠ .request now jobId (.createJob bytes policyText)

/-- A creation request with a readable manifest and a known policy is answered with the identifier it
drew. -/
theorem dispatch_createJob {server : Server} {tracker : Tracker} {now : Nat}
    {freshId policyText : String} {bytes : List UInt8} {manifest : Manifest} {policy : SchedulingPolicy}
    (parsed : server.deserialise bytes = .ok manifest)
    (known : SchedulingPolicy.fromStr policyText = .ok policy) :
    (server.dispatch tracker now freshId (.createJob bytes policyText)).2 =
      .ok (.jobCreated freshId) := by
  simp only [dispatch, parsed, known]
  rfl

/-- A creation request that is answered with an identifier has stored a new job under it, with the
manifest that its bytes encode. -/
theorem stored_of_jobCreated {server : Server} {tracker : Tracker} {now : Nat}
    {freshId jobId policyText : String} {bytes : List UInt8}
    (accepted : (server.dispatch tracker now freshId (.createJob bytes policyText)).2 =
      .ok (.jobCreated jobId)) :
    freshId = jobId ∧ ∃ manifest policy, server.deserialise bytes = .ok manifest ∧
      SchedulingPolicy.fromStr policyText = .ok policy ∧
      (server.step tracker (.request now freshId (.createJob bytes policyText))).jobs.get? jobId =
        some (.new jobId manifest policy) := by
  cases parsed : server.deserialise bytes with
  | error e => simp [dispatch, parsed] at accepted
  | ok manifest =>
      cases known : SchedulingPolicy.fromStr policyText with
      | error e => simp [dispatch, parsed, known] at accepted
      | ok policy =>
          have sameId : freshId = jobId := by
            simpa [dispatch, parsed, known, Tracker.createJob, Job.new] using accepted
          subst sameId
          refine ⟨rfl, manifest, policy, rfl, rfl, ?_⟩
          rw [step_createJob tracker now freshId parsed known, Tracker.get?_createJob, if_pos rfl]

theorem allJobs_new (P : String → Job → Prop) : Tracker.new.AllJobs P := by
  intro jobId job stored
  cases stored

/-- The job is stored under its own identifier, every node under its own, and every stored bitmap
has the chunk count of the job. -/
structure Coherent (jobId : String) (job : Job) : Prop where
  jobId_eq : job.jobId = jobId
  nodeId_eq : ∀ nodeId state, (nodeId, state) ∈ job.nodes.entries → state.nodeId = nodeId
  chunkCount_eq : ∀ nodeId state, (nodeId, state) ∈ job.nodes.entries →
    state.bitmap.chunkCount = job.manifest.chunkCount

theorem coherent_new (jobId : String) (manifest : Manifest) (policy : SchedulingPolicy) :
    Coherent jobId (.new jobId manifest policy) where
  jobId_eq := rfl
  nodeId_eq := by simp [Job.new]
  chunkCount_eq := by simp [Job.new]

theorem coherent_afterReport {layout : Layout String NodeState} {jobId : String} {job : Job}
    (coherent : Coherent jobId job) (now : Nat) (report : NodeReport) :
    Coherent jobId (job.afterReport layout now report) where
  jobId_eq := by
    rw [Job.afterReport_jobId]
    exact coherent.jobId_eq
  nodeId_eq := by
    intro nodeId state mem
    rw [Job.afterReport_nodes, ShardedMap.mem_insert] at mem
    rcases mem with ⟨rfl, rfl⟩ | ⟨_, old⟩
    · -- The entry keeps the identifier it was registered with, which is its key.
      show ((job.nodes.get? report.nodeId).getD _).nodeId = report.nodeId
      cases found : job.nodes.get? report.nodeId with
      | none => rfl
      | some registered =>
          exact coherent.nodeId_eq _ _ (ShardedMap.get?_eq_some_iff.mp found)
    · exact coherent.nodeId_eq nodeId state old
  chunkCount_eq := by
    intro nodeId state mem
    rw [Job.afterReport_nodes, ShardedMap.mem_insert] at mem
    rw [Job.afterReport_manifest]
    rcases mem with ⟨_, rfl⟩ | ⟨_, old⟩
    · rfl
    · exact coherent.chunkCount_eq nodeId state old

theorem coherent_evictStale {jobId : String} {job : Job} (coherent : Coherent jobId job) (now : Nat)
    (timeoutSecs : UInt64) : Coherent jobId (job.evictStale now timeoutSecs) where
  jobId_eq := coherent.jobId_eq
  nodeId_eq := fun nodeId state mem => coherent.nodeId_eq nodeId state (Job.mem_evictStale.mp mem).1
  chunkCount_eq := fun nodeId state mem =>
    coherent.chunkCount_eq nodeId state (Job.mem_evictStale.mp mem).1

theorem coherent_step {server : Server} {tracker : Tracker} (event : TrackerEvent)
    (coherent : tracker.AllJobs Coherent) : (server.step tracker event).AllJobs Coherent := by
  intro jobId
  apply (server.step_jobChange tracker event jobId).preserves (Coherent jobId)
  · intro manifest policy
    exact coherent_new jobId manifest policy
  · intro now _ _ report job _ _ _ known
    exact coherent_afterReport known now report
  · intro job known
    exact ⟨known.jobId_eq, known.nodeId_eq, known.chunkCount_eq⟩
  · intro now timeoutSecs job known
    exact coherent_evictStale known now timeoutSecs
  · exact coherent jobId

/-- Every job is coherent after every run. -/
theorem run_coherent (server : Server) (events : List TrackerEvent) :
    (server.run events).AllJobs Coherent := by
  apply run_invariant fun tracker => tracker.AllJobs Coherent
  · exact allJobs_new Coherent
  · intro tracker event coherent
    exact coherent_step event coherent

end Server

/-! ### A server for concrete runs -/

/-- Four shards, with the keys spread by their length and each shard in insertion order. -/
def Foundation.Layout.byLength (V : Type) : Layout String V where
  shardCount := 4
  shardOf key := key.length % 4
  shardOf_lt key := Nat.mod_lt _ (by decide)
  order := id
  order_perm _ := List.Perm.refl _

/-- The bytes that encode the manifest of the sample file. -/
@[irreducible] def sampleManifestBytes : List UInt8 :=
  let text := "\x7b\"file_id\":\"m\",\"version\":\"1\",\"total_size\":3,\"chunk_size\":2," ++
    "\"chunk_count\":2,\"chunk_hashes\":[\"" ++
    "a12871fee210fb8619291eaea194581cbd2531e4b23759d225f6806923f63222" ++ "\",\"" ++
    "084fed08b978af4d7d196a7446a86b58009e636b611db16211b65a9aadff29c5" ++ "\"]\x7d"
  text.toList.map fun c => UInt8.ofNat c.toNat

/-- A parser that knows the encoded sample manifest. -/
def sampleParser (bytes : List UInt8) : Except String Manifest :=
  if bytes = sampleManifestBytes then .ok sampleManifest
  else .error "expected value at line 1 column 1"

theorem sampleParser_known : sampleParser sampleManifestBytes = .ok sampleManifest := by
  unfold sampleParser
  exact if_pos (Eq.refl sampleManifestBytes)

/-- A server with this parser. -/
def sampleServer : Server where
  layouts := { jobs := .byLength Job, nodes := fun _ => .byLength NodeState }
  manifestFromSlice := sampleParser

/-- Creating the sample job, without running the parser on its bytes. -/
theorem step_createSample (tracker : Tracker) (now : Nat) (freshId : String) :
    sampleServer.step tracker
        (.request now freshId (.createJob sampleManifestBytes "rarity-first")) =
      (tracker.createJob freshId sampleManifest .rarityFirst).2 :=
  Server.step_createJob tracker now freshId (Server.deserialise_eq_ok sampleParser_known) rfl

theorem Server.dispatch_createSample (tracker : Tracker) (now : Nat) (freshId : String) :
    (sampleServer.dispatch tracker now freshId
      (.createJob sampleManifestBytes "rarity-first")).2 = .ok (.jobCreated freshId) :=
  dispatch_createJob (deserialise_eq_ok sampleParser_known) rfl

end ModelDistribution
