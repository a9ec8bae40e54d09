/-
Module: ModelDistribution.Proofs.NodeHistory
Layer: Proofs
Purpose: The node table of a job along a whole run, creations of the job included: an entry is there
  exactly when some heartbeat stands for it, and a query names the best of the nodes whose standing
  heartbeat carries the chunk.
Imports: ModelDistribution.Proofs.NodeTable, ModelDistribution.Proofs.PeerRanking
Trusted boundary: none
Main exports: Server.creates, Server.Undisturbed, Server.Stands, Server.registered_iff,
  Server.Named, Server.NamesHolders, Server.namesHolders_of_answer
-/
import ModelDistribution.Proofs.NodeTable
import ModelDistribution.Proofs.PeerRanking

namespace ModelDistribution

open Foundation

namespace Server

/-! ### One replay for the whole run -/

/-- The event creates a job under the identifier. -/
def creates (server : Server) (jobId : String) : TrackerEvent → Bool
  | .request _ freshId (.createJob bytes policyText) =>
      match server.deserialise bytes, SchedulingPolicy.fromStr policyText with
      | .ok _, .ok _ => freshId = jobId
      | _, _ => false
  | _ => false

/-- What an event does to the node table of the job that the identifier names; a new job starts
without nodes. -/
def historyEffect (server : Server) (jobId : String) (chunkCount : UInt32) (event : TrackerEvent) :
    TableEffect String NodeState :=
  if server.creates jobId event then .sweep fun _ => false else tableEffect jobId chunkCount event

section History

variable {server : Server} {jobId nodeId : String} {chunkCount : UInt32} {tracker : Tracker}
  {event : TrackerEvent} {events : List TrackerEvent} {job : Job} {state : NodeState}

theorem historyEffect_of_not_creates (keeps : server.creates jobId event = false) :
    server.historyEffect jobId chunkCount event = tableEffect jobId chunkCount event := by
  simp [historyEffect, keeps]

/-- A creation stores a job without nodes. -/
theorem new_of_creates (creates : server.creates jobId event = true)
    (found : (server.step tracker event).jobs.get? jobId = some job) :
    ∃ manifest policy, job = .new jobId manifest policy := by
  cases event with
  | evict now timeoutSecs => cases creates
  | request now freshId request =>
      cases request with
      | createJob bytes policyText =>
          simp only [Server.creates] at creates
          split at creates
          · rename_i manifest policy parsed known
            rw [decide_eq_true_iff] at creates
            subst creates
            rw [step_createJob tracker now freshId parsed known, Tracker.get?_createJob,
              if_pos rfl] at found
            cases found
            exact ⟨manifest, policy, rfl⟩
          · cases creates
      | _ => cases creates

/-- An event that creates no job under the identifier draws it for none, or is refused. -/
theorem noReuse_or_refused (tracker : Tracker) (chunkCount : UInt32)
    (keeps : server.creates jobId event = false) :
    NoReuse jobId event ∨
      ((server.step tracker event).jobs.get? jobId = tracker.jobs.get? jobId ∧
        tableEffect jobId chunkCount event = .skip) := by
  by_cases reuse : NoReuse jobId event
  · exact .inl reuse
  · right
    simp only [NoReuse, not_forall, not_not] at reuse
    rcases reuse with ⟨now, bytes, policyText, rfl⟩
    constructor
    · rw [get?_step]
      simp only [jobAfter, Server.creates, if_true] at keeps ⊢
      split
      · rename_i parsed known
        simp [parsed, known] at keeps
      · rfl
    · rfl

/-- A job that is there behind such an event was there before it, with the same chunk count, and its
nodes are what the event leaves of them. -/
theorem nodes_step (keeps : server.creates jobId event = false) (coherent : tracker.AllJobs Coherent)
    (found : (server.step tracker event).jobs.get? jobId = some job) :
    ∃ earlier, tracker.jobs.get? jobId = some earlier ∧
      earlier.manifest.chunkCount = job.manifest.chunkCount ∧
      ∀ nodeId, job.nodes.get? nodeId =
        (tableEffect jobId job.manifest.chunkCount event).apply nodeId (earlier.nodes.get? nodeId) := by
  rcases noReuse_or_refused tracker job.manifest.chunkCount keeps with noReuse | ⟨same, skip⟩
  · cases known : tracker.jobs.get? jobId with
    | none =>
        have change := server.step_jobChange tracker event jobId
        rw [known, found] at change
        cases change with
        | created _ _ => exact absurd rfl (noReuse _ _ _)
        | reported _ absent => cases absent
        | cancelled absent => cases absent
    | some earlier =>
        have has : HasJob jobId earlier.manifest.chunkCount tracker :=
          ⟨earlier, known, coherent jobId earlier known, rfl⟩
        have kept : HasJob jobId earlier.manifest.chunkCount (server.step tracker event) :=
          hasJob_step noReuse has
        rcases kept with ⟨job', found', _, count⟩
        rw [found] at found'
        cases found'
        refine ⟨earlier, rfl, count.symm, ?_⟩
        intro nodeId
        have stepped : nodeIn jobId (server.step tracker event) nodeId = _ :=
          nodeIn_step noReuse has nodeId
        rw [nodeIn, found, Option.bind_some, nodeIn, known, Option.bind_some] at stepped
        rw [count, stepped]
  · refine ⟨job, same ▸ found, rfl, ?_⟩
    intro nodeId
    rw [skip]
    rfl

/-- The node table of a job is the replay of all events since the start, each creation a sweep. -/
theorem nodes_of_run (found : (server.run events).jobs.get? jobId = some job) (nodeId : String) :
    job.nodes.get? nodeId =
      replay (server.historyEffect jobId job.manifest.chunkCount) events nodeId := by
  induction events using List.reverseRecOn generalizing job with
  | nil => cases found
  | append_singleton events event ih =>
      rw [run_append, List.foldl_cons, List.foldl_nil] at found
      rw [replay_snoc]
      cases creates : server.creates jobId event with
      | true =>
          rcases new_of_creates creates found with ⟨manifest, policy, rfl⟩
          simp [historyEffect, creates, TableEffect.apply, Job.new]
      | false =>
          rcases nodes_step creates (run_coherent server events) found with
            ⟨earlier, known, count, nodes⟩
          rw [nodes, ih known, historyEffect_of_not_creates creates, count]

/-! ### Standing heartbeats -/

/-- Nothing behind a heartbeat takes the entry of its node away or replaces it: the job is not created
again, the node does not report again, and every eviction pass comes in time. -/
structure Undisturbed (server : Server) (jobId nodeId : String) (sentAt : Nat)
    (later : List TrackerEvent) : Prop where
  sameJob : ∀ event ∈ later, server.creates jobId event = false
  lastReport : ∀ event ∈ later, ¬ Reports jobId nodeId event
  inTime : ∀ now timeoutSecs, TrackerEvent.evict now timeoutSecs ∈ later →
    (now - sentAt) / 10 ^ 9 ≤ timeoutSecs.toNat

/-- The report of a heartbeat that stands for its node behind the events. -/
def Stands (server : Server) (jobId : String) (events : List TrackerEvent) (sentAt : Nat)
    (report : NodeReport) : Prop :=
  ∃ earlier freshId request later,
    events = earlier ++ .request sentAt freshId request :: later ∧
    reportOf request = some (jobId, report) ∧
    server.Undisturbed jobId report.nodeId sentAt later

theorem not_creates_of_reports (reports : Reports jobId nodeId event) :
    server.creates jobId event = false := by
  rcases reports with ⟨now, freshId, request, report, rfl, heartbeat, _⟩
  cases request with
  | createJob => cases heartbeat
  | _ => rfl

theorem puts_history_iff :
    Puts (server.historyEffect jobId chunkCount) nodeId event ↔ Reports jobId nodeId event := by
  cases creates : server.creates jobId event with
  | true =>
      constructor
      · rintro ⟨value, put⟩
        simp [historyEffect, creates] at put
      · intro reports
        rw [not_creates_of_reports reports] at creates
        cases creates
  | false =>
      have reports : Puts (tableEffect jobId chunkCount) nodeId event ↔ Reports jobId nodeId event :=
        puts_iff_reports
      rw [← reports]
      simp only [Puts, historyEffect_of_not_creates creates]

theorem survives_history_iff :
    Survives (server.historyEffect jobId chunkCount) state event ↔
      server.creates jobId event = false ∧ ∀ now timeoutSecs, event = .evict now timeoutSecs →
        state.elapsedSecs now ≤ timeoutSecs.toNat := by
  cases creates : server.creates jobId event with
  | true => simp [Survives, historyEffect, creates]
  | false =>
      have survives : Survives (tableEffect jobId chunkCount) state event ↔ _ := survives_iff
      rw [← survives]
      simp [Survives, historyEffect_of_not_creates creates]

/-- After every run, the entries of a job are those of the heartbeats that stand. -/
theorem registered_iff (found : (server.run events).jobs.get? jobId = some job) :
    job.nodes.get? nodeId = some state ↔
      ∃ sentAt report, server.Stands jobId events sentAt report ∧ report.nodeId = nodeId ∧
        state = .ofReport job.manifest.chunkCount sentAt report := by
  rw [nodes_of_run found, replay_eq_some_iff]
  simp only [puts_history_iff, survives_history_iff]
  constructor
  · rintro ⟨earlier, event, later, split, put, quiet, kept⟩
    have reports := puts_history_iff.mp ⟨state, put⟩
    rw [historyEffect_of_not_creates (not_creates_of_reports reports)] at put
    rcases reports with ⟨sentAt, freshId, request, report, rfl, heartbeat, rfl⟩
    rw [tableEffect_report heartbeat, TableEffect.put.injEq] at put
    refine ⟨sentAt, report, ⟨earlier, freshId, request, later, split, heartbeat, ?_⟩, rfl,
      put.2.symm⟩
    constructor
    · exact fun event mem => (kept event mem).1
    · exact quiet
    · intro now timeoutSecs mem
      have young := (kept _ mem).2 now timeoutSecs rfl
      rw [← put.2] at young
      exact young
  · rintro ⟨sentAt, report, ⟨earlier, freshId, request, later, split, heartbeat, undisturbed⟩, rfl,
      rfl⟩
    refine ⟨earlier, _, later, split, ?_, undisturbed.lastReport, ?_⟩
    · have reports : Reports jobId report.nodeId (.request sentAt freshId request) :=
        ⟨sentAt, freshId, request, report, rfl, heartbeat, rfl⟩
      rw [historyEffect_of_not_creates (not_creates_of_reports reports)]
      exact tableEffect_report heartbeat
    · intro event mem
      refine ⟨undisturbed.sameJob event mem, ?_⟩
      rintro now timeoutSecs rfl
      exact undisturbed.inTime now timeoutSecs mem

end History

end Server

/-! ### What a query names -/

/-- What a query names of the node that has sent the report. -/
def NodeReport.candidate (report : NodeReport) : CandidatePeer where
  nodeId := report.nodeId
  peerAddr := report.peerAddr
  rackId := report.rackId
  uploadBwMbps := report.uploadBwMbps

/-- A query that scheduling has answered has found its holders. -/
theorem Scheduler.holders_of_schedule {layout : Layout String NodeState} {job : Job}
    {requesterId requesterRack : String} {chunkIndex : UInt32} {topN : UInt64}
    {candidates : List CandidatePeer}
    (returned : Tracker.schedule layout job requesterId requesterRack chunkIndex topN =
      .ok candidates) : ∃ found, holders layout job requesterId chunkIndex = .ok found := by
  unfold Tracker.schedule at returned
  cases listed : holders layout job requesterId chunkIndex with
  | ok found => exact ⟨found, rfl⟩
  | error panic =>
      cases policy : job.policy with
      | rarityFirst =>
          simp only [policy, rarityFirst_eq, listed] at returned
          cases returned
      | topologyAware =>
          simp only [policy, topologyAware_eq_firstBy, listed] at returned
          cases returned

namespace Server

/-- The report is from another node than the requester and carries the chunk. -/
def Offers (job : Job) (requesterId : String) (chunkIndex : UInt32) (report : NodeReport) : Prop :=
  report.nodeId ≠ requesterId ∧ Carries job.manifest.chunkCount report.bitmapBytes chunkIndex

/-- The node of the report is named, or as many others are as were asked for, and it ranks above none of
them. -/
def Named (job : Job) (requesterRack : String) (topN : UInt64) (candidates : List CandidatePeer)
    (report : NodeReport) : Prop :=
  report.candidate ∈ candidates ∨ (candidates.length = topN.toNat ∧
    ∀ peer ∈ candidates, ¬ Scheduler.Outranks job.policy requesterRack report.candidate peer)

/-- The candidates are distinct nodes with standing heartbeats that offer the chunk, at most as many as
were asked for, and every such node is named unless better ones fill the list. -/
structure NamesHolders (server : Server) (jobId : String) (events : List TrackerEvent) (job : Job)
    (requesterId requesterRack : String) (chunkIndex : UInt32) (topN : UInt64)
    (candidates : List CandidatePeer) : Prop where
  standing : ∀ peer ∈ candidates, ∃ sentAt report, server.Stands jobId events sentAt report ∧
    Offers job requesterId chunkIndex report ∧ peer = report.candidate
  named : ∀ sentAt report, server.Stands jobId events sentAt report →
    Offers job requesterId chunkIndex report → Named job requesterRack topN candidates report
  distinct : (candidates.map CandidatePeer.nodeId).Nodup
  length : candidates.length ≤ topN.toNat

section Query

variable {server : Server} {jobId requesterId requesterRack : String} {chunkIndex : UInt32}
  {topN : UInt64} {events : List TrackerEvent} {job : Job}

/-- The entries that a query may name are those of the standing heartbeats that offer the chunk. -/
theorem eligible_iff (found : (server.run events).jobs.get? jobId = some job)
    {entry : String × NodeState} :
    entry ∈ job.nodes.entries ∧ Scheduler.Eligible requesterId chunkIndex entry.2 ↔
      ∃ sentAt report, server.Stands jobId events sentAt report ∧
        Offers job requesterId chunkIndex report ∧
        entry = (report.nodeId, .ofReport job.manifest.chunkCount sentAt report) := by
  rw [← ShardedMap.get?_eq_some_iff, registered_iff found]
  constructor
  · rintro ⟨⟨sentAt, report, stands, sameNode, sameState⟩, eligible⟩
    rw [sameState] at eligible
    exact ⟨sentAt, report, stands, eligible, Prod.ext sameNode.symm sameState⟩
  · rintro ⟨sentAt, report, stands, offers, rfl⟩
    exact ⟨⟨sentAt, report, stands, rfl, rfl⟩, offers⟩

theorem namesHolders_of_schedule (found : (server.run events).jobs.get? jobId = some job)
    {candidates : List CandidatePeer}
    (returned : Tracker.schedule (server.layouts.nodes jobId) job requesterId requesterRack chunkIndex
      topN = .ok candidates) :
    server.NamesHolders jobId events job requesterId requesterRack chunkIndex topN candidates := by
  rcases Scheduler.holders_of_schedule returned with ⟨listed, holders⟩
  rcases Scheduler.schedule_ranked requesterRack topN holders with ⟨ranked, perm, sorted, scheduled⟩
  rw [scheduled, Except.ok.injEq] at returned
  subst returned
  rw [Scheduler.holders_eq_filter holders] at perm
  have member : ∀ entry, entry ∈ ranked ↔ entry ∈ job.nodes.entries ∧
      Scheduler.Eligible requesterId chunkIndex entry.2 := by
    intro entry
    rw [perm.mem_iff, List.mem_filter, Layout.mem_iter, decide_eq_true_iff]
  constructor
  · intro peer named
    rcases List.mem_map.mp named with ⟨entry, kept, rfl⟩
    rcases (eligible_iff found).mp ((member entry).mp (List.mem_of_mem_take kept)) with
      ⟨sentAt, report, stands, offers, rfl⟩
    exact ⟨sentAt, report, stands, offers, rfl⟩
  · intro sentAt report stands offers
    have listed := (member _).mpr ((eligible_iff found).mpr ⟨sentAt, report, stands, offers, rfl⟩)
    rw [← List.take_append_drop topN.toNat ranked, List.mem_append] at listed
    rcases listed with kept | cut
    · exact .inl (List.mem_map_of_mem kept)
    · right
      constructor
      · -- something is left out, so the cut is full
        have longer : topN.toNat < ranked.length := by
          have nonempty := List.length_pos_of_mem cut
          rw [List.length_drop] at nonempty
          omega
        rw [List.length_map, List.length_take, Nat.min_eq_left (Nat.le_of_lt longer)]
      · intro peer named
        rw [List.map_take] at named
        exact rel_of_mem_take_of_mem_drop sorted named (List.map_drop .. ▸ List.mem_map_of_mem cut)
  · have keys : (ranked.map Prod.fst).Nodup := by
      have all : (((server.layouts.nodes jobId).iter job.nodes).map Prod.fst).Nodup :=
        ((Layout.iter_perm _ _).map Prod.fst).nodup_iff.mpr job.nodes.nodup
      exact ((perm.map Prod.fst).nodup_iff).mpr (all.sublist (List.filter_sublist.map _))
    have same : ((ranked.take topN.toNat).map fun entry => Scheduler.candidatePeer entry.2).map
        CandidatePeer.nodeId = (ranked.take topN.toNat).map Prod.fst := by
      rw [List.map_map]
      apply List.map_congr_left
      intro entry kept
      rcases (eligible_iff found).mp ((member entry).mp (List.mem_of_mem_take kept)) with
        ⟨_, _, _, _, rfl⟩
      rfl
    rw [same]
    exact keys.sublist ((List.take_sublist _ _).map _)
  · rw [List.length_map]
    exact List.length_take_le _ _

/-- A query that is answered with peers names holders. -/
theorem namesHolders_of_answer {now : Nat} {freshId : String} {peers : List PeerInfo}
    (answered : (server.dispatch (server.run events) now freshId
      (.getPeers jobId requesterId requesterRack chunkIndex topN)).2 = .ok (.peers peers)) :
    ∃ job candidates, (server.run events).jobs.get? jobId = some job ∧
      peers = candidates.map PeerInfo.fromCandidate ∧
      server.NamesHolders jobId events job requesterId requesterRack chunkIndex topN candidates := by
  rcases Tracker.getPeers_spec server.layouts (server.run events) jobId requesterId requesterRack
    chunkIndex topN with ⟨_, refused⟩ | ⟨job, found, returned⟩
  · simp only [dispatch, refused] at answered
    cases answered
  · cases scheduled : Tracker.schedule (server.layouts.nodes jobId) job requesterId requesterRack
        chunkIndex topN with
    | error panic =>
        simp only [dispatch, returned, scheduled, Except.map] at answered
        cases answered
    | ok candidates =>
        simp only [dispatch, returned, scheduled, Except.map] at answered
        cases answered
        exact ⟨job, candidates, found, rfl, namesHolders_of_schedule found scheduled⟩

end Query

end Server

end ModelDistribution
