/-
Module: ModelDistribution.Proofs.NodeTable
Layer: Proofs
Purpose: The node table of a job as the replay of its heartbeats. An entry is what the last heartbeat
  of the node alone determines, whether it was registered by it or overwritten, and it is there until
  an eviction pass finds it too old. Heartbeats replace each other in the order in which they are
  processed, so an old one that comes late takes chunks away again.
Imports: ModelDistribution.Foundation.LatestWins, ModelDistribution.Proofs.TrackerInvariants,
  Mathlib.Data.List.Pairwise
Trusted boundary: none
Main exports: NodeState.ofReport, tableEffect, nodes_eq_replay, LatestReport, nodeTable_replays,
  processedBytes, stored_bitmap_is_last
-/
import ModelDistribution.Foundation.LatestWins
import ModelDistribution.Proofs.TrackerInvariants
import Mathlib.Data.List.Pairwise

namespace ModelDistribution

open Foundation

/-- The entry that a heartbeat alone determines. -/
def NodeState.ofReport (chunkCount : UInt32) (now : Nat) (report : NodeReport) : NodeState where
  nodeId := report.nodeId
  rackId := report.rackId
  peerAddr := report.peerAddr
  bitmap := .fromBytes report.bitmapBytes chunkCount
  uploadBwMbps := report.uploadBwMbps
  lastSeen := now

/-- Registration and overwriting leave the same entry. -/
theorem Server.Coherent.reportedState_eq {jobId : String} {job : Job}
    (coherent : Server.Coherent jobId job) (now : Nat) (report : NodeReport) :
    job.reportedState now report = .ofReport job.manifest.chunkCount now report := by
  cases found : job.nodes.get? report.nodeId with
  | none => simp [Job.reportedState, found, NodeState.touch, NodeState.new, NodeState.ofReport]
  | some registered =>
      have sameId : registered.nodeId = report.nodeId :=
        coherent.nodeId_eq _ _ (ShardedMap.get?_eq_some_iff.mp found)
      simp [Job.reportedState, found, NodeState.touch, NodeState.ofReport, sameId]

namespace Server

/-- What an event does to the node table of a job. -/
def tableEffect (jobId : String) (chunkCount : UInt32) :
    TrackerEvent → TableEffect String NodeState
  | .request now _ request =>
      match reportOf request with
      | some (other, report) =>
          if other = jobId then .put report.nodeId (.ofReport chunkCount now report) else .skip
      | none => .skip
  | .evict now timeoutSecs => .sweep fun state => !state.isStale now timeoutSecs

theorem tableEffect_report {jobId : String} {chunkCount : UInt32} {now : Nat} {freshId : String}
    {request : Request} {report : NodeReport} (heartbeat : reportOf request = some (jobId, report)) :
    tableEffect jobId chunkCount (.request now freshId request) =
      .put report.nodeId (.ofReport chunkCount now report) := by
  simp [tableEffect, heartbeat]

/-- The job is there, coherent, and has the chunk count it was created with. -/
def HasJob (jobId : String) (chunkCount : UInt32) (tracker : Tracker) : Prop :=
  ∃ job, tracker.jobs.get? jobId = some job ∧ Coherent jobId job ∧
    job.manifest.chunkCount = chunkCount

/-- What the node table of a job holds for a node. -/
def nodeIn (jobId : String) (tracker : Tracker) (nodeId : String) : Option NodeState :=
  (tracker.jobs.get? jobId).bind fun job => job.nodes.get? nodeId

theorem hasJob_step {server : Server} {jobId : String} {chunkCount : UInt32} {tracker : Tracker}
    {event : TrackerEvent} (noReuse : NoReuse jobId event)
    (has : HasJob jobId chunkCount tracker) : HasJob jobId chunkCount (server.step tracker event) := by
  rcases has with ⟨job, found, coherent, count⟩
  have change := server.step_jobChange tracker event jobId
  unfold HasJob
  generalize (server.step tracker event).jobs.get? jobId = after at change
  cases change with
  | created _ _ => exact absurd rfl (noReuse _ _ _)
  | reported _ found' =>
      cases found.symm.trans found'
      exact ⟨_, rfl, coherent_afterReport coherent _ _, by simpa using count⟩
  | cancelled found' =>
      cases found.symm.trans found'
      exact ⟨_, rfl, ⟨coherent.jobId_eq, coherent.nodeId_eq, coherent.chunkCount_eq⟩, count⟩
  | evicted => exact ⟨_, congrArg _ found, coherent_evictStale coherent _ _, by simpa using count⟩
  | untouched _ _ _ => exact ⟨job, found, coherent, count⟩

/-- One event changes the entry of a node as its table effect says. -/
theorem nodeIn_step {server : Server} {jobId : String} {chunkCount : UInt32} {tracker : Tracker}
    {event : TrackerEvent} (noReuse : NoReuse jobId event)
    (has : HasJob jobId chunkCount tracker) (nodeId : String) :
    nodeIn jobId (server.step tracker event) nodeId =
      (tableEffect jobId chunkCount event).apply nodeId (nodeIn jobId tracker nodeId) := by
  rcases has with ⟨job, found, coherent, count⟩
  have change := server.step_jobChange tracker event jobId
  unfold nodeIn
  generalize (server.step tracker event).jobs.get? jobId = after at change
  rw [found, Option.bind_some]
  cases change with
  | created _ _ => exact absurd rfl (noReuse _ _ _)
  | reported heartbeat found' =>
      cases found.symm.trans found'
      rename_i now freshId request report
      rw [tableEffect_report heartbeat, Option.bind_some, Job.afterReport_nodes,
        ShardedMap.get?_insert, coherent.reportedState_eq, count]
      simp [TableEffect.apply, eq_comm]
  | cancelled found' =>
      cases found.symm.trans found'
      rfl
  | evicted =>
      rw [found]
      exact ShardedMap.get?_retain _ _ _
  | untouched notEviction notReport _ =>
      rw [found, Option.bind_some]
      cases event with
      | evict now timeoutSecs => exact absurd rfl (notEviction now timeoutSecs)
      | request now freshId request =>
          cases heartbeat : reportOf request with
          | none => simp [tableEffect, heartbeat, TableEffect.apply]
          | some addressed =>
              by_cases same : addressed.1 = jobId
              · have absent := notReport now freshId request addressed.2 rfl (same ▸ heartbeat)
                rw [found] at absent
                cases absent
              · simp [tableEffect, heartbeat, same, TableEffect.apply]

/-! ### The table as a replay -/

section Replay

variable {start : Tracker} {jobId : String} {manifest : Manifest} {policy : SchedulingPolicy}
  {later : List TrackerEvent}

/-- Behind the creation of a job, its node table is the replay of the events. -/
theorem nodes_eq_replay (server : Server)
    (created : start.jobs.get? jobId = some (.new jobId manifest policy))
    (noReuse : ∀ event ∈ later, NoReuse jobId event) :
    ∃ job, (later.foldl server.step start).jobs.get? jobId = some job ∧ Coherent jobId job ∧
      job.manifest.chunkCount = manifest.chunkCount ∧
      ∀ nodeId, job.nodes.get? nodeId =
        replay (tableEffect jobId manifest.chunkCount) later nodeId := by
  have has : HasJob jobId manifest.chunkCount start := ⟨_, created, coherent_new _ _ _, rfl⟩
  have reached : HasJob jobId manifest.chunkCount (later.foldl server.step start) := by
    apply foldl_invariant _ has noReuse
    exact fun tracker event allowed known => hasJob_step allowed known
  rcases reached with ⟨job, found, coherent, count⟩
  refine ⟨job, found, coherent, count, ?_⟩
  intro nodeId
  have replayed : nodeIn jobId (later.foldl server.step start) nodeId =
      replay (tableEffect jobId manifest.chunkCount) later nodeId := by
    apply lookup_eq_replay _ _ has _ noReuse nodeId
    · exact fun tracker event allowed known => hasJob_step allowed known
    · exact fun tracker event other allowed known => nodeIn_step allowed known other
    · simp [nodeIn, created, Job.new]
  rw [← replayed, nodeIn, found, Option.bind_some]

/-- The event is a heartbeat of the node for the job. -/
def Reports (jobId nodeId : String) (event : TrackerEvent) : Prop :=
  ∃ now freshId request report, event = .request now freshId request ∧
    reportOf request = some (jobId, report) ∧ report.nodeId = nodeId

/-- The heartbeat was processed and is the last one of the node for the job; `after` is what happened
behind it. -/
structure LatestReport (jobId nodeId : String) (events : List TrackerEvent) (sentAt : Nat)
    (report : NodeReport) (after : List TrackerEvent) : Prop where
  processed : ∃ earlier freshId request,
    events = earlier ++ .request sentAt freshId request :: after ∧
      reportOf request = some (jobId, report)
  node : report.nodeId = nodeId
  last : ∀ event ∈ after, ¬ Reports jobId nodeId event

theorem puts_iff_reports {chunkCount : UInt32} {nodeId : String} {event : TrackerEvent} :
    Puts (tableEffect jobId chunkCount) nodeId event ↔ Reports jobId nodeId event := by
  constructor
  · rintro ⟨value, put⟩
    cases event with
    | evict now timeoutSecs => cases put
    | request now freshId request =>
        cases heartbeat : reportOf request with
        | none => simp [tableEffect, heartbeat] at put
        | some addressed =>
            by_cases same : addressed.1 = jobId
            · simp only [tableEffect, heartbeat, same, if_true, TableEffect.put.injEq] at put
              exact ⟨now, freshId, request, addressed.2, rfl, same ▸ heartbeat, put.1⟩
            · simp [tableEffect, heartbeat, same] at put
  · rintro ⟨now, freshId, request, report, rfl, heartbeat, rfl⟩
    exact ⟨_, tableEffect_report heartbeat⟩

/-- An entry survives an event unless that is an eviction pass that finds it too old. -/
theorem survives_iff {chunkCount : UInt32} {state : NodeState} {event : TrackerEvent} :
    Survives (tableEffect jobId chunkCount) state event ↔
      ∀ now timeoutSecs, event = .evict now timeoutSecs →
        state.elapsedSecs now ≤ timeoutSecs.toNat := by
  cases event with
  | evict now timeoutSecs => simp [Survives, tableEffect, NodeState.isStale]
  | request now freshId request =>
      have noSweep : ∀ keep : NodeState → Bool,
          tableEffect jobId chunkCount (.request now freshId request) ≠ .sweep keep := by
        intro keep
        simp only [tableEffect]
        split
        · split <;> simp
        · simp
      simp [Survives, noSweep]

/-- What a key holds after the events, read as a heartbeat and the passes behind it. -/
theorem replay_tableEffect_iff {chunkCount : UInt32} {nodeId : String} {state : NodeState} :
    replay (tableEffect jobId chunkCount) later nodeId = some state ↔
      ∃ sentAt report after, LatestReport jobId nodeId later sentAt report after ∧
        (∀ now timeoutSecs, TrackerEvent.evict now timeoutSecs ∈ after →
          (now - sentAt) / 10 ^ 9 ≤ timeoutSecs.toNat) ∧
        state = .ofReport chunkCount sentAt report := by
  rw [replay_eq_some_iff]
  simp only [puts_iff_reports, survives_iff]
  constructor
  · rintro ⟨earlier, event, after, split, put, quiet, kept⟩
    rcases puts_iff_reports.mp ⟨state, put⟩ with
      ⟨sentAt, freshId, request, report, rfl, heartbeat, rfl⟩
    rw [tableEffect_report heartbeat, TableEffect.put.injEq] at put
    refine ⟨sentAt, report, after, ⟨⟨earlier, freshId, request, split, heartbeat⟩, rfl, quiet⟩, ?_,
      put.2.symm⟩
    intro now timeoutSecs mem
    have young := kept _ mem now timeoutSecs rfl
    rw [← put.2] at young
    exact young
  · rintro ⟨sentAt, report, after, ⟨⟨earlier, freshId, request, split, heartbeat⟩, rfl, quiet⟩,
      young, rfl⟩
    refine ⟨earlier, _, after, split, tableEffect_report heartbeat, quiet, ?_⟩
    rintro event mem now timeoutSecs rfl
    exact young now timeoutSecs mem

end Replay

/-- After every run behind the creation of a job, a node is registered with exactly the state that its
last heartbeat determines, if it has sent one and every later eviction pass came within its timeout;
the next heartbeat of any node, registered or not, leaves what it determines alone. -/
theorem nodeTable_replays (server : Server) (before later : List TrackerEvent) (now : Nat)
    (freshId jobId policyText : String) (bytes : List UInt8)
    (accepted : (server.dispatch (server.run before) now freshId
      (.createJob bytes policyText)).2 = .ok (.jobCreated jobId))
    (noReuse : ∀ event ∈ later, NoReuse jobId event) :
    ∃ job, (server.run (before ++ .request now freshId (.createJob bytes policyText) ::
        later)).jobs.get? jobId = some job ∧
      (∀ nodeId state, job.nodes.get? nodeId = some state ↔
        ∃ sentAt report after, LatestReport jobId nodeId later sentAt report after ∧
          (∀ at' timeoutSecs, TrackerEvent.evict at' timeoutSecs ∈ after →
            (at' - sentAt) / 10 ^ 9 ≤ timeoutSecs.toNat) ∧
          state = .ofReport job.manifest.chunkCount sentAt report) ∧
      ∀ at' report,
        job.reportedState at' report = .ofReport job.manifest.chunkCount at' report := by
  rcases stored_of_jobCreated accepted with ⟨_, manifest, policy, _, _, created⟩
  rcases nodes_eq_replay server created noReuse with ⟨job, found, coherent, count, replayed⟩
  refine ⟨job, ?_, ?_, ?_⟩
  · rw [run_append, List.foldl_cons]
    exact found
  · intro nodeId state
    rw [replayed, replay_tableEffect_iff, count]
  · intro at' report
    exact coherent.reportedState_eq at' report

/-- A heartbeat and an eviction pass that comes in time. -/
theorem nodeTable_replays_sample :
    ∃ job, (sampleServer.run
        ([] ++ .request 0 "j" (.createJob sampleManifestBytes "rarity-first") ::
          [.request 1 "k" (.heartbeat "j" "n" "rack-A" "n:7100" [128] 8000),
           .evict (60 * 10 ^ 9) 60])).jobs.get? "j" = some job ∧
      job.nodes.get? "n" = some (.ofReport job.manifest.chunkCount 1
        ⟨"n", "rack-A", "n:7100", [128], 8000⟩) := by
  rcases nodeTable_replays sampleServer []
      [.request 1 "k" (.heartbeat "j" "n" "rack-A" "n:7100" [128] 8000), .evict (60 * 10 ^ 9) 60]
      0 "j" "j" "rarity-first" sampleManifestBytes (dispatch_createSample _ 0 "j")
      (by simp [NoReuse]) with ⟨job, found, entries, _⟩
  refine ⟨job, found, (entries "n" _).mpr ⟨1, _, [.evict (60 * 10 ^ 9) 60], ?_, ?_, rfl⟩⟩
  · exact ⟨⟨[], "k", _, rfl, rfl⟩, rfl, by simp [Reports]⟩
  · simp

/-! ### Heartbeats out of order -/

/-- The bytes report the chunk. -/
def Carries (chunkCount : UInt32) (bitmapBytes : List UInt8) (i : UInt32) : Prop :=
  (ChunkBitmap.fromBytes bitmapBytes chunkCount).has i = .ok true

/-- The bitmap bytes that an event brings from a node for a job. -/
def broughtBytes (jobId nodeId : String) : TrackerEvent → Option (List UInt8)
  | .request _ _ request =>
      match reportOf request with
      | some (other, report) =>
          if other = jobId ∧ report.nodeId = nodeId then some report.bitmapBytes else none
      | none => none
  | .evict _ _ => none

/-- The bitmap bytes of all heartbeats of a node for a job, in the order of their processing. -/
def processedBytes (jobId nodeId : String) (events : List TrackerEvent) : List (List UInt8) :=
  events.filterMap (broughtBytes jobId nodeId)

theorem broughtBytes_eq_none {jobId nodeId : String} {event : TrackerEvent}
    (quiet : ¬ Reports jobId nodeId event) : broughtBytes jobId nodeId event = none := by
  cases event with
  | evict now timeoutSecs => rfl
  | request now freshId request =>
      cases heartbeat : reportOf request with
      | none => simp [broughtBytes, heartbeat]
      | some addressed =>
          by_cases same : addressed.1 = jobId ∧ addressed.2.nodeId = nodeId
          · exact absurd ⟨now, freshId, request, addressed.2, rfl, same.1 ▸ heartbeat, same.2⟩ quiet
          · simp [broughtBytes, heartbeat, same]

/-- The last bytes that were processed are those of the latest heartbeat. -/
theorem LatestReport.getLast?_processedBytes {jobId nodeId : String} {events after : List TrackerEvent}
    {sentAt : Nat} {report : NodeReport}
    (latest : LatestReport jobId nodeId events sentAt report after) :
    (processedBytes jobId nodeId events).getLast? = some report.bitmapBytes := by
  rcases latest with ⟨⟨earlier, freshId, request, rfl, heartbeat⟩, rfl, quiet⟩
  have brought : broughtBytes jobId report.nodeId (.request sentAt freshId request) =
      some report.bitmapBytes := by
    simp [broughtBytes, heartbeat]
  have nothing : after.filterMap (broughtBytes jobId report.nodeId) = [] :=
    List.filterMap_eq_nil_iff.mpr fun event mem => broughtBytes_eq_none (quiet event mem)
  simp [processedBytes, brought, nothing]

/-- Let the `k`-th heartbeat of a node carry the bytes `sent k`, which report more and more chunks, and
let `order` be the order in which they are processed. The stored bitmap is that of the last one
processed. It has every chunk reported so far exactly when that one reports what the newest one
processed does, and so always when they are processed in the order of their sending. -/
theorem stored_bitmap_is_last (server : Server) (before later : List TrackerEvent) (now : Nat)
    (freshId jobId policyText : String) (bytes : List UInt8)
    (accepted : (server.dispatch (server.run before) now freshId
      (.createJob bytes policyText)).2 = .ok (.jobCreated jobId))
    (noReuse : ∀ event ∈ later, NoReuse jobId event) :
    ∃ manifest job, server.deserialise bytes = .ok manifest ∧
      (server.run (before ++ .request now freshId (.createJob bytes policyText) ::
        later)).jobs.get? jobId = some job ∧
      ∀ nodeId state, job.nodes.get? nodeId = some state →
        ∀ (sent : Nat → List UInt8) (order : List Nat),
          (∀ k l, k ≤ l → ∀ i, Carries manifest.chunkCount (sent k) i →
            Carries manifest.chunkCount (sent l) i) →
          processedBytes jobId nodeId later = order.map sent →
          ∃ last, order.getLast? = some last ∧
            state.bitmap = .fromBytes (sent last) manifest.chunkCount ∧
            (∀ newest ∈ order, (∀ k ∈ order, k ≤ newest) →
              ((∀ k ∈ order, ∀ i, Carries manifest.chunkCount (sent k) i →
                state.bitmap.has i = .ok true) ↔
              ∀ i, Carries manifest.chunkCount (sent newest) i →
                Carries manifest.chunkCount (sent last) i)) ∧
            (order.Pairwise (· ≤ ·) → ∀ k ∈ order, ∀ i,
              Carries manifest.chunkCount (sent k) i → state.bitmap.has i = .ok true) := by
  rcases stored_of_jobCreated accepted with ⟨_, manifest, policy, parsed, _, created⟩
  rcases nodes_eq_replay server created noReuse with ⟨job, found, _, _, replayed⟩
  refine ⟨manifest, job, parsed, ?_, ?_⟩
  · rw [run_append, List.foldl_cons]
    exact found
  intro nodeId state registered sent order grows processed
  rw [replayed, replay_tableEffect_iff] at registered
  rcases registered with ⟨sentAt, report, after, latest, _, rfl⟩
  have ends := latest.getLast?_processedBytes
  rw [processed, List.getLast?_map, Option.map_eq_some_iff] at ends
  rcases ends with ⟨last, isLast, carried⟩
  have stored : (NodeState.ofReport manifest.chunkCount sentAt report).bitmap =
      .fromBytes (sent last) manifest.chunkCount := by
    rw [carried]
    rfl
  have all_of_newest : ∀ newest, (∀ k ∈ order, k ≤ newest) →
      (∀ i, Carries manifest.chunkCount (sent newest) i →
        Carries manifest.chunkCount (sent last) i) →
      ∀ k ∈ order, ∀ i, Carries manifest.chunkCount (sent k) i →
        (NodeState.ofReport manifest.chunkCount sentAt report).bitmap.has i = .ok true := by
    intro newest most within k mem i reported
    rw [stored]
    exact within i (grows k newest (most k mem) i reported)
  refine ⟨last, isLast, stored, ?_, ?_⟩
  · intro newest mem most
    constructor
    · intro all i reported
      have present := all newest mem i reported
      rw [stored] at present
      exact present
    · exact all_of_newest newest most
  · intro sorted
    apply all_of_newest last
    · intro k mem
      rw [List.getLast?_eq_some_getLast (List.ne_nil_of_mem mem), Option.some.injEq] at isLast
      exact isLast ▸ sorted.rel_getLast mem
    · exact fun _ => id

/-! ### The sample file in three chunks -/

/-- The manifest of the sample file in chunks of one byte. -/
def sampleThirds : Manifest := Manifest.built Manifest.sampleDigest "m" "1" [1, 2, 3] 1

/-- The bytes that encode it. -/
@[irreducible] def sampleThirdsBytes : List UInt8 :=
  let text := "\x7b\"file_id\":\"m\",\"version\":\"1\",\"total_size\":3,\"chunk_size\":1," ++
    "\"chunk_count\":3,\"chunk_hashes\":[\"" ++
    "4bf5122f344554c53bde2ebb8cd2b7e3d1600ad631c385a5d7cce23c7785459a" ++ "\",\"" ++
    "dbc1b4c900ffe48d575b5da5c638040125f65db0fe3e24494b76ea986457d986" ++ "\",\"" ++
    "084fed08b978af4d7d196a7446a86b58009e636b611db16211b65a9aadff29c5" ++ "\"]\x7d"
  text.toList.map fun c => UInt8.ofNat c.toNat

/-- A server with a parser that knows the encoded manifest. -/
def sampleThirdsServer : Server where
  layouts := sampleServer.layouts
  manifestFromSlice bytes :=
    if bytes = sampleThirdsBytes then .ok sampleThirds
    else .error "expected value at line 1 column 1"

theorem sampleThirdsServer_known :
    sampleThirdsServer.deserialise sampleThirdsBytes = .ok sampleThirds :=
  deserialise_eq_ok (if_pos (Eq.refl sampleThirdsBytes))

theorem step_createThirds (tracker : Tracker) (now : Nat) (freshId : String) :
    sampleThirdsServer.step tracker
        (.request now freshId (.createJob sampleThirdsBytes "rarity-first")) =
      (tracker.createJob freshId sampleThirds .rarityFirst).2 :=
  step_createJob tracker now freshId sampleThirdsServer_known rfl

/-- A heartbeat of the sample node. Its bitmaps leave the last chunk out, so that none of them is
complete and none has the tracker look at the other nodes of the job. -/
def sampleHeartbeat (now : Nat) (bitmapBytes : List UInt8) : TrackerEvent :=
  .request now "k" (.heartbeat "j" "n" "rack-A" "n:7100" bitmapBytes 8000)

private theorem carries_more (i : UInt32) (reported : Carries 3 [128] i) : Carries 3 [192] i := by
  have below : i < 3 := ChunkBitmap.has_lt reported
  have oneOfThree : i = 0 ∨ i = 1 ∨ i = 2 := by
    rw [UInt32.lt_iff_toNat_lt] at below
    rw [← UInt32.toNat_inj, ← UInt32.toNat_inj, ← UInt32.toNat_inj]
    change i.toNat < 3 at below
    change i.toNat = 0 ∨ i.toNat = 1 ∨ i.toNat = 2
    omega
  rcases oneOfThree with rfl | rfl | rfl
  · unfold Carries
    decide
  · unfold Carries
    decide
  · unfold Carries at reported
    exact absurd reported (by decide)

/-- Two heartbeats in the order of their sending leave what the second one reports. -/
theorem stored_bitmap_is_last_sample :
    ∃ job, (sampleThirdsServer.run
        ([] ++ .request 0 "j" (.createJob sampleThirdsBytes "rarity-first") ::
          [sampleHeartbeat 1 [128], sampleHeartbeat 2 [192]])).jobs.get? "j" = some job ∧
      ∀ state, job.nodes.get? "n" = some state → state.bitmap = .fromBytes [192] 3 := by
  rcases stored_bitmap_is_last sampleThirdsServer []
      [sampleHeartbeat 1 [128], sampleHeartbeat 2 [192]] 0 "j" "j" "rarity-first" sampleThirdsBytes
      (dispatch_createJob sampleThirdsServer_known rfl) (by simp [NoReuse, sampleHeartbeat]) with
    ⟨manifest, job, parsed, found, stored⟩
  refine ⟨job, found, ?_⟩
  intro state registered
  have sameManifest : manifest = sampleThirds :=
    Except.ok.inj (parsed.symm.trans sampleThirdsServer_known)
  subst sameManifest
  have grows : ∀ k l, k ≤ l → ∀ i : UInt32,
      Carries sampleThirds.chunkCount (if k = 0 then [128] else [192]) i →
        Carries sampleThirds.chunkCount (if l = 0 then [128] else [192]) i := by
    intro k l ordered i reported
    by_cases first : k = 0
    · by_cases second : l = 0
      · rw [if_pos first] at reported
        rw [if_pos second]
        exact reported
      · rw [if_pos first] at reported
        rw [if_neg second]
        exact carries_more i reported
    · have second : l ≠ 0 := fun zero => first (Nat.le_zero.mp (zero ▸ ordered))
      rw [if_neg first] at reported
      rw [if_neg second]
      exact reported
  rcases stored "n" state registered (fun k => if k = 0 then [128] else [192]) [0, 1] grows rfl with
    ⟨last, isLast, bitmap, _⟩
  cases isLast
  exact bitmap

/-- The first heartbeat of a node, processed behind its second one, takes a chunk away again that the
other order leaves. -/
theorem late_heartbeat_takes_chunk_away :
    (∃ job state,
      (sampleThirdsServer.run [.request 0 "j" (.createJob sampleThirdsBytes "rarity-first"),
        sampleHeartbeat 1 [192], sampleHeartbeat 2 [128]]).jobs.get? "j" = some job ∧
      job.nodes.get? "n" = some state ∧ Carries 3 [192] 1 ∧ state.bitmap.has 1 = .ok false) ∧
    ∃ job state,
      (sampleThirdsServer.run [.request 0 "j" (.createJob sampleThirdsBytes "rarity-first"),
        sampleHeartbeat 1 [128], sampleHeartbeat 2 [192]]).jobs.get? "j" = some job ∧
      job.nodes.get? "n" = some state ∧ state.bitmap.has 1 = .ok true := by
  have late : ((sampleThirdsServer.run
        [.request 0 "j" (.createJob sampleThirdsBytes "rarity-first"),
          sampleHeartbeat 1 [192], sampleHeartbeat 2 [128]]).jobs.get? "j").bind
      (fun job => job.nodes.get? "n") =
      some (.ofReport 3 2 ⟨"n", "rack-A", "n:7100", [128], 8000⟩) := by
    simp only [run, List.foldl_cons, List.foldl_nil, step_createThirds]
    decide +kernel
  have inOrder : ((sampleThirdsServer.run
        [.request 0 "j" (.createJob sampleThirdsBytes "rarity-first"),
          sampleHeartbeat 1 [128], sampleHeartbeat 2 [192]]).jobs.get? "j").bind
      (fun job => job.nodes.get? "n") =
      some (.ofReport 3 2 ⟨"n", "rack-A", "n:7100", [192], 8000⟩) := by
    simp only [run, List.foldl_cons, List.foldl_nil, step_createThirds]
    decide +kernel
  constructor
  · rcases Option.bind_eq_some_iff.mp late with ⟨job, found, registered⟩
    exact ⟨job, _, found, registered, by unfold Carries; decide, by decide⟩
  · rcases Option.bind_eq_some_iff.mp inOrder with ⟨job, found, registered⟩
    exact ⟨job, _, found, registered, by decide⟩

end Server

end ModelDistribution
