/-
Module: ModelDistribution.Proofs.ChunkOrigin
Layer: Proofs
Purpose: Where the chunks of a swarm come from. A task gets past the tracker only for a chunk that
  somebody has reported, and nodes report only what they have downloaded, so every chunk of a node
  goes back to a report from outside. Nodes alone never obtain, write or report anything.
Imports: ModelDistribution.Proofs.TruthfulPeers, ModelDistribution.Swarm
Trusted boundary: none
Main exports: Outsider, Credited, Known, PastTracker, Downloader.Confined, step_confined,
  SwarmInvariant, swarm_invariant, chunks_come_from_outside
-/
import ModelDistribution.Proofs.TruthfulPeers
import ModelDistribution.Swarm

namespace ModelDistribution

open Foundation

/-! ### One download -/

/-- The chunks of the tasks that are past the tracker have the property. -/
def PastTracker (P : UInt32 → Prop) (tasks : List Task) : Prop :=
  ∀ task ∈ tasks, task.pc ≠ .askTracker → P task.chunk

/-- From the one state to the other only bits of chunks with the property are set and only files of
such chunks are written. -/
structure Downloader.Confined (P : UInt32 → Prop) (cfg : DownloaderConfig)
    (before after : Downloader) : Prop where
  bits : ∀ i, after.bitmap.has i = .ok true → before.bitmap.has i = .ok true ∨ P i
  files : ∀ i, ¬ P i → after.disk (cfg.path i) = before.disk (cfg.path i)

section Download

variable {P : UInt32 → Prop} {platform : Platform} {cfg : DownloaderConfig}
  {state next : Downloader} {tasks : List Task} {task moved : Task} {k : Nat}

theorem failAttempt_asks (failed : task.failAttempt = some moved) : moved.pc = .askTracker := by
  unfold Task.failAttempt at failed
  split at failed
  · cases failed
    rfl
  · cases failed

/-- An error and an empty list send a task back to the tracker. -/
theorem afterTracker_asks {answer : Except DistError (List PeerInfo)}
    (noPeers : ∀ peers, answer = .ok peers → peers = [])
    (moves : task.afterTracker answer = some moved) : moved.pc = .askTracker := by
  cases answer with
  | error e => exact failAttempt_asks moves
  | ok peers =>
      cases noPeers peers rfl
      exact failAttempt_asks moves

theorem PastTracker.putTask (past : PastTracker P tasks) {result : Option Task}
    (allowed : ∀ moved, result = some moved → moved.pc ≠ .askTracker → P moved.chunk) :
    PastTracker P (putTask tasks k result) := by
  intro task mem pc
  cases result with
  | none => exact past task (List.mem_of_mem_eraseIdx mem) pc
  | some moved =>
      rcases List.mem_or_eq_of_mem_set mem with old | rfl
      · exact past task old pc
      · exact allowed _ rfl pc

/-- A task that is past the tracker may become any task of its chunk. -/
theorem PastTracker.putTask_moves (past : PastTracker P tasks) (found : tasks[k]? = some task)
    (pc : task.pc ≠ .askTracker) {result : Option Task}
    (moves : ∀ moved, result = some moved → Moves platform cfg.manifest task moved) :
    PastTracker P (ModelDistribution.putTask tasks k result) := by
  apply past.putTask
  intro moved eq _
  rw [(moves moved eq).sameChunk]
  exact past task (List.mem_of_getElem? found) pc

theorem writeFile_confined (written : P task.chunk) (content : Option (List UInt8)) :
    ∀ i, ¬ P i → writeFile state.disk (cfg.path task.chunk) content (cfg.path i) =
      state.disk (cfg.path i) := by
  intro i other
  apply writeFile_other
  rintro rfl
  exact other written

/-- The loop starts tasks in front of the tracker and touches neither bits nor files. -/
theorem loopStep_confined (past : PastTracker P state.tasks)
    (stepped : state.loopStep cfg = some next) :
    PastTracker P next.tasks ∧ Downloader.Confined P cfg state next := by
  have same : ∀ loop, PastTracker P { state with loop := loop }.tasks ∧
      Downloader.Confined P cfg state { state with loop := loop } := fun _ =>
    ⟨past, fun _ set => .inl set, fun _ _ => rfl⟩
  unfold Downloader.loopStep at stepped
  split at stepped
  · split at stepped <;> cases stepped <;> exact same _
  · cases stepped
    exact same _
  · split at stepped
    · cases stepped
      exact same _
    · cases stepped
      exact same _
    · cases stepped
  · split at stepped
    · cases stepped
      refine ⟨?_, fun _ set => .inl set, fun _ _ => rfl⟩
      intro task mem pc
      rcases List.mem_append.mp mem with old | new
      · exact past task old pc
      · cases List.mem_singleton.mp new
        exact absurd rfl pc
    · cases stepped
  · split at stepped
    · cases stepped
      exact same _
    · cases stepped
  · cases stepped

/-- One step sets bits and writes files only for chunks with the property, when tasks get past the
tracker only for such chunks. -/
theorem step_confined (past : PastTracker P state.tasks) {event : DownloadEvent}
    (answered : ∀ k peers task, event = .tracker k (.ok peers) → state.tasks[k]? = some task →
      peers ≠ [] → P task.chunk)
    (stepped : state.step platform cfg event = some next) :
    PastTracker P next.tasks ∧ Downloader.Confined P cfg state next := by
  have moving : ∀ {k : Nat} {task : Task} {result : Option Task}, state.tasks[k]? = some task →
      task.pc ≠ .askTracker →
      (∀ moved, result = some moved → Moves platform cfg.manifest task moved) →
      PastTracker P (putTask state.tasks k result) := fun found pc moves =>
    past.putTask_moves found pc moves
  have queried : ∀ {k : Nat} {task : Task}, state.tasks[k]? = some task → task.pc ≠ .askTracker →
      P task.chunk := fun found pc => past _ (List.mem_of_getElem? found) pc
  cases event with
  | loop => exact loopStep_confined past stepped
  | tracker k answer =>
      simp only [Downloader.step] at stepped
      split at stepped
      · rename_i task found
        split at stepped
        · cases stepped
          refine ⟨?_, fun _ set => .inl set, fun _ _ => rfl⟩
          apply past.putTask
          intro moved eq pc
          have moves : Moves platform cfg.manifest task moved := afterTracker_moves eq
          rw [moves.sameChunk]
          by_contra other
          apply pc
          apply afterTracker_asks _ eq
          intro peers same
          by_contra some_peer
          exact other (answered k peers task (by rw [same]) found some_peer)
        · cases stepped
      · cases stepped
  | exchange k exchange =>
      simp only [Downloader.step] at stepped
      split at stepped
      · rename_i task found
        split at stepped
        · rename_i peer rest pc
          cases stepped
          refine ⟨?_, fun _ set => .inl set, fun _ _ => rfl⟩
          exact moving found (by simp [pc]) fun _ eq => afterExchange_moves eq
        · cases stepped
      · cases stepped
  | writing k content =>
      simp only [Downloader.step] at stepped
      split at stepped
      · rename_i task found
        split at stepped
        · rename_i data rest pc
          cases stepped
          have owned := queried found (by simp [pc])
          exact ⟨past, fun _ set => .inl set, writeFile_confined owned content⟩
        · cases stepped
      · cases stepped
  | writeDone k =>
      simp only [Downloader.step] at stepped
      split at stepped
      · rename_i task found
        split at stepped
        · rename_i data rest pc
          cases stepped
          have owned := queried found (by simp [pc])
          have marking : PastTracker P
              (putTask state.tasks k (some { task with pc := .markBit })) := by
            apply past.putTask
            intro moved eq _
            cases eq
            exact owned
          exact ⟨marking, fun _ set => .inl set, writeFile_confined owned _⟩
        · cases stepped
      · cases stepped
  | writeFailed k left =>
      simp only [Downloader.step] at stepped
      split at stepped
      · rename_i task found
        split at stepped
        · rename_i data rest pc
          cases stepped
          have owned := queried found (by simp [pc])
          refine ⟨?_, fun _ set => .inl set, writeFile_confined owned left⟩
          exact moving found (by simp [pc]) fun _ eq => tryRest_moves eq
        · cases stepped
      · cases stepped
  | mark k =>
      simp only [Downloader.step] at stepped
      split at stepped
      · rename_i task found
        split at stepped
        · rename_i pc
          have owned := queried found (by simp [pc])
          have ended : PastTracker P (putTask state.tasks k none) := past.putTask (by simp)
          split at stepped
          · rename_i fresh marked result
            cases stepped
            refine ⟨ended, ?_, fun _ _ => rfl⟩
            intro i set
            by_cases same : i = task.chunk
            · exact .inr (same ▸ owned)
            · exact .inl (ChunkBitmap.has_markComplete_of_ne result same ▸ set)
          · cases stepped
            exact ⟨ended, fun _ set => .inl set, fun _ _ => rfl⟩
        · cases stepped
      · cases stepped

end Download

/-! ### What the tracker is told -/

/-- An event from outside has reported the chunk for the node of this identifier and address. -/
def Outsider (deployment : Deployment) (past : List SwarmEvent) (nodeId peerAddr : String)
    (i : UInt32) : Prop :=
  ∃ event ∈ past, ∃ report, event.outsideReport deployment.jobId = some report ∧
    report.nodeId = nodeId ∧ report.peerAddr = peerAddr ∧
    (ChunkBitmap.fromBytes report.bitmapBytes deployment.manifest.chunkCount).has i = .ok true

/-- An event from outside has reported the chunk for some node. -/
def Credited (deployment : Deployment) (past : List SwarmEvent) (i : UInt32) : Prop :=
  ∃ nodeId peerAddr, Outsider deployment past nodeId peerAddr i

/-- The node of the identifier is started under the address and has the bit of the chunk. -/
def NodeHas (members : String → Option Member) (nodeId peerAddr : String) (i : UInt32) : Prop :=
  ∃ member, members nodeId = some member ∧ member.node.config.peerAddr = peerAddr ∧
    member.process.download.bitmap.has i = .ok true

/-- What the tracker may know of a node: it has the chunk, or an event from outside has said so. -/
def Known (deployment : Deployment) (past : List SwarmEvent) (members : String → Option Member)
    (nodeId peerAddr : String) (i : UInt32) : Prop :=
  Outsider deployment past nodeId peerAddr i ∨ NodeHas members nodeId peerAddr i

/-- What holds of a node: its bits, the tasks that are past the tracker and the files that differ from
those it started over are all of reported chunks. -/
structure MemberSeeded (deployment : Deployment) (past : List SwarmEvent) (member : Member) :
    Prop where
  bits : ∀ i, member.process.download.bitmap.has i = .ok true → Credited deployment past i
  tasks : PastTracker (Credited deployment past) member.process.download.tasks
  files : ∃ disk, .join member.node disk ∈ past ∧ ∀ i, ¬ Credited deployment past i →
    member.process.download.disk ((member.config deployment).path i) =
      disk ((member.config deployment).path i)

/-- What holds of the job: every entry of its node table tells what may be known, and the job is
complete only when every chunk was reported. -/
structure JobSourced (deployment : Deployment) (past : List SwarmEvent)
    (members : String → Option Member) (job : Job) : Prop where
  manifest_eq : job.manifest = deployment.manifest
  entries : ∀ nodeId state, (nodeId, state) ∈ job.nodes.entries → state.nodeId = nodeId ∧
    ∀ i, state.bitmap.has i = .ok true → Known deployment past members nodeId state.peerAddr i
  status : job.status = .complete →
    ∀ i < deployment.manifest.chunkCount, Credited deployment past i

/-- What holds of the swarm behind the events of a run. -/
structure SwarmInvariant (deployment : Deployment) (past : List SwarmEvent) (swarm : Swarm) :
    Prop where
  members : ∀ nodeId member, swarm.cluster.members nodeId = some member →
    MemberInvariant deployment nodeId member
  seeded : ∀ nodeId member, swarm.cluster.members nodeId = some member →
    MemberSeeded deployment past member
  job : ∃ job, swarm.cluster.tracker.jobs.get? deployment.jobId = some job ∧
    JobSourced deployment past swarm.cluster.members job
  answers : ∀ answer ∈ swarm.answers, ∀ peer ∈ answer.peers,
    Known deployment past swarm.cluster.members peer.nodeId peer.peerAddr answer.chunk

section Knowledge

variable {deployment : Deployment} {past later : List SwarmEvent}
  {members members' : String → Option Member} {nodeId peerAddr : String} {i : UInt32}

theorem Outsider.mono (told : Outsider deployment past nodeId peerAddr i) (longer : past ⊆ later) :
    Outsider deployment later nodeId peerAddr i := by
  rcases told with ⟨event, mem, report⟩
  exact ⟨event, longer mem, report⟩

theorem Credited.mono (credited : Credited deployment past i) (longer : past ⊆ later) :
    Credited deployment later i := by
  rcases credited with ⟨nodeId, peerAddr, told⟩
  exact ⟨nodeId, peerAddr, told.mono longer⟩

/-- Every node keeps its address and its bits. -/
def MembersGrow (members members' : String → Option Member) : Prop :=
  ∀ nodeId member, members nodeId = some member → ∃ member', members' nodeId = some member' ∧
    member'.node.config.peerAddr = member.node.config.peerAddr ∧
    ∀ i, member.process.download.bitmap.has i = .ok true →
      member'.process.download.bitmap.has i = .ok true

theorem MembersGrow.refl (members : String → Option Member) : MembersGrow members members :=
  fun _ member found => ⟨member, found, rfl, fun _ set => set⟩

theorem Known.mono (known : Known deployment past members nodeId peerAddr i)
    (longer : past ⊆ later) (grow : MembersGrow members members') :
    Known deployment later members' nodeId peerAddr i := by
  rcases known with told | ⟨member, found, address, set⟩
  · exact .inl (told.mono longer)
  · rcases grow nodeId member found with ⟨member', found', sameAddress, bits⟩
    exact .inr ⟨member', found', sameAddress.trans address, bits i set⟩

theorem JobSourced.mono {job : Job} (sourced : JobSourced deployment past members job)
    (longer : past ⊆ later) (grow : MembersGrow members members') :
    JobSourced deployment later members' job where
  manifest_eq := sourced.manifest_eq
  entries nodeId state mem :=
    ⟨(sourced.entries nodeId state mem).1, fun i set =>
      ((sourced.entries nodeId state mem).2 i set).mono longer grow⟩
  status complete i below := (sourced.status complete i below).mono longer

theorem MemberSeeded.mono {member : Member} (seeded : MemberSeeded deployment past member)
    (longer : past ⊆ later) : MemberSeeded deployment later member where
  bits i set := (seeded.bits i set).mono longer
  tasks task mem pc := (seeded.tasks task mem pc).mono longer
  files := by
    rcases seeded.files with ⟨disk, joined, kept⟩
    exact ⟨disk, longer joined, fun i other => kept i fun credited => other (credited.mono longer)⟩

/-- Where all nodes have only reported chunks, what is known was reported. -/
theorem Known.credited (known : Known deployment past members nodeId peerAddr i)
    (seeded : ∀ nodeId member, members nodeId = some member →
      MemberSeeded deployment past member) : Credited deployment past i := by
  rcases known with told | ⟨member, found, _, set⟩
  · exact ⟨nodeId, peerAddr, told⟩
  · exact (seeded nodeId member found).bits i set

end Knowledge

/-! ### The tracker -/

section Tracker

variable {deployment : Deployment} {past later : List SwarmEvent}
  {members : String → Option Member} {job : Job}

/-- A report of what may be known leaves a table of what may be known. -/
theorem JobSourced.afterReport (sourced : JobSourced deployment past members job)
    (seeded : ∀ nodeId member, members nodeId = some member →
      MemberSeeded deployment past member)
    {layout : Layout String NodeState} {now : Nat} {report : NodeReport}
    (known : ∀ i, (ChunkBitmap.fromBytes report.bitmapBytes deployment.manifest.chunkCount).has i =
      .ok true → Known deployment past members report.nodeId report.peerAddr i) :
    JobSourced deployment past members (job.afterReport layout now report) := by
  refine ⟨(Job.afterReport_manifest _ _ _).trans sourced.manifest_eq, ?_, ?_⟩
  · intro nodeId state mem
    rw [Job.afterReport_nodes, ShardedMap.mem_insert] at mem
    rcases mem with ⟨rfl, rfl⟩ | ⟨_, old⟩
    · constructor
      · -- The entry keeps the identifier it was registered with, which is its key.
        show ((job.nodes.get? report.nodeId).getD _).nodeId = report.nodeId
        cases registered : job.nodes.get? report.nodeId with
        | none => rfl
        | some entry =>
            exact (sourced.entries _ entry (ShardedMap.get?_eq_some_iff.mp registered)).1
      · intro i set
        rw [Job.reportedState_bitmap, sourced.manifest_eq] at set
        exact known i set
    · exact sourced.entries nodeId state old
  · intro complete i below
    rw [Job.afterReport_status] at complete
    split at complete
    · rename_i completes
      have own := ((Job.reportCompletes_iff _ _ _ _).mp completes).1
      rw [sourced.manifest_eq] at own
      exact (known i (ChunkBitmap.isComplete_iff.mp own i below)).credited seeded
    · exact sourced.status complete i below

/-- One event of the tracker keeps the job sourced when its reports for the job are of what may be
known. -/
theorem JobSourced.step {tracker : Tracker} (stored : tracker.jobs.get? deployment.jobId = some job)
    (sourced : JobSourced deployment past members job)
    (seeded : ∀ nodeId member, members nodeId = some member →
      MemberSeeded deployment past member) {event : TrackerEvent}
    (created : ∀ now bytes policyText,
      event ≠ .request now deployment.jobId (.createJob bytes policyText))
    (reported : ∀ now freshId request report, event = .request now freshId request →
      Server.reportOf request = some (deployment.jobId, report) →
      ∀ i, (ChunkBitmap.fromBytes report.bitmapBytes deployment.manifest.chunkCount).has i =
        .ok true → Known deployment past members report.nodeId report.peerAddr i) :
    ∃ after, (deployment.server.step tracker event).jobs.get? deployment.jobId = some after ∧
      JobSourced deployment past members after := by
  have change := deployment.server.step_jobChange tracker event deployment.jobId
  generalize (deployment.server.step tracker event).jobs.get? deployment.jobId = after at change ⊢
  cases change with
  | created _ _ => exact absurd rfl (created _ _ _)
  | reported heartbeat found =>
      rw [stored] at found
      cases found
      exact ⟨_, rfl, sourced.afterReport seeded (reported _ _ _ _ rfl heartbeat)⟩
  | cancelled found =>
      rw [stored] at found
      cases found
      refine ⟨_, rfl, sourced.manifest_eq, sourced.entries, ?_⟩
      intro complete
      cases complete
  | evicted =>
      rw [stored]
      refine ⟨_, rfl, sourced.manifest_eq, ?_, sourced.status⟩
      intro nodeId state mem
      exact sourced.entries nodeId state (Job.mem_evictStale.mp mem).1
  | untouched _ _ _ => exact ⟨job, stored, sourced⟩

/-- What the tracker answers to the query of a node for a chunk names only what is in its table. -/
theorem mem_answer_to_query {debugText : Response → String} {server : Server} {tracker : Tracker}
    {now : Nat} {freshId nodeId : String} {cfg : DownloaderConfig} {chunk : UInt32}
    {answer : PeersAnswer}
    (given : answer ∈ PeersAnswer.ofResponse debugText nodeId chunk
      (server.dispatch tracker now freshId (cfg.peersQuery chunk)).2) :
    answer.chunk = chunk ∧ ∃ job, tracker.jobs.get? cfg.jobId = some job ∧
      ∀ peer ∈ answer.peers, ∃ key state, (key, state) ∈ job.nodes.entries ∧
        peer.nodeId = state.nodeId ∧ peer.peerAddr = state.peerAddr ∧
        state.bitmap.has chunk = .ok true := by
  rcases tracker.getPeers_spec server.layouts cfg.jobId cfg.nodeId cfg.rackId chunk 5 with
    ⟨_, refused⟩ | ⟨job, found, returned⟩
  · simp [DownloaderConfig.peersQuery, Server.dispatch, refused, PeersAnswer.ofResponse,
      TrackerClient.getPeers, TrackerClient.refuse, bind, Except.bind] at given
  · cases scheduled : Tracker.schedule (server.layouts.nodes cfg.jobId) job cfg.nodeId cfg.rackId
        chunk 5 with
    | error panic =>
        simp [DownloaderConfig.peersQuery, Server.dispatch, returned, scheduled, Except.map,
          PeersAnswer.ofResponse] at given
    | ok peers =>
        simp [DownloaderConfig.peersQuery, Server.dispatch, returned, scheduled, Except.map,
          PeersAnswer.ofResponse, TrackerClient.getPeers, bind, Except.bind, pure,
          Except.pure] at given
        subst given
        refine ⟨rfl, job, found, ?_⟩
        intro peer named
        rcases List.mem_map.mp named with ⟨candidate, listed, rfl⟩
        rcases Tracker.holder_of_mem_schedule scheduled listed with
          ⟨⟨key, state⟩, mem, rfl, _, credited⟩
        exact ⟨key, state, mem, rfl, rfl, credited⟩

/-- A query leaves the table of jobs as it is. -/
theorem get?_dispatch_query (server : Server) (tracker : Tracker) (now : Nat) (freshId : String)
    (cfg : DownloaderConfig) (chunk : UInt32) (jobId : String) :
    (server.dispatch tracker now freshId (cfg.peersQuery chunk)).1.jobs.get? jobId =
      tracker.jobs.get? jobId :=
  server.get?_step tracker (.request now freshId (cfg.peersQuery chunk)) jobId

end Tracker

/-! ### The swarm -/

section Steps

variable {debugText : Response → String} {deployment : Deployment} {past later : List SwarmEvent}
  {swarm next : Swarm}

/-- A node that takes candidates only for reported chunks goes on with reported chunks. -/
theorem MemberSeeded.step {member : Member} (seeded : MemberSeeded deployment past member)
    {event : NodeEvent} {process : NodeProcess}
    (answered : ∀ k peers task, event = .download (.tracker k (.ok peers)) →
      member.process.download.tasks[k]? = some task → peers ≠ [] →
      Credited deployment past task.chunk)
    (stepped : member.process.step deployment.platform (member.config deployment) event =
      some process) : MemberSeeded deployment past { member with process } := by
  rcases NodeProcess.step_effect stepped with ⟨_, effect⟩
  cases effect with
  | @downloads event download downloaded =>
      have confined := step_confined seeded.tasks (fun k peers task same => by
        subst same
        exact answered k peers task rfl) downloaded
      refine ⟨?_, confined.1, ?_⟩
      · intro i set
        rcases confined.2.bits i set with old | new
        · exact seeded.bits i old
        · exact new
      · rcases seeded.files with ⟨disk, joined, kept⟩
        refine ⟨disk, joined, ?_⟩
        intro i other
        exact (confined.2.files i other).trans (kept i other)
  | ticks _ => exact ⟨seeded.bits, seeded.tasks, seeded.files⟩
  | sends _ => exact ⟨seeded.bits, seeded.tasks, seeded.files⟩
  | fails _ => exact ⟨seeded.bits, seeded.tasks, seeded.files⟩

/-- A node starts without bits and without tasks. -/
theorem memberSeeded_start {node : PeerNode} {disk : String → Option (List UInt8)}
    {process : NodeProcess} (joined : .join node disk ∈ past)
    (started : NodeProcess.start (node.downloaderConfig deployment.manifest) disk =
      some process) : MemberSeeded deployment past { node, process } := by
  rcases Option.map_eq_some_iff.mp started with ⟨download, begun, rfl⟩
  unfold Downloader.start at begun
  split at begun
  · cases begun
    refine ⟨?_, ?_, disk, joined, fun _ _ => rfl⟩
    · intro i set
      rw [ChunkBitmap.has_new] at set
      cases set
    · intro task mem
      cases mem
  · cases begun

/-- Adding a node, or replacing one that keeps its address and its bits. -/
theorem SwarmInvariant.setMember (inv : SwarmInvariant deployment past swarm)
    (longer : past ⊆ later) {nodeId : String} {member : Member}
    (sound : MemberInvariant deployment nodeId member)
    (seeded : MemberSeeded deployment later member)
    (grows : ∀ old, swarm.cluster.members nodeId = some old →
      member.node.config.peerAddr = old.node.config.peerAddr ∧
        ∀ i, old.process.download.bitmap.has i = .ok true →
          member.process.download.bitmap.has i = .ok true) :
    SwarmInvariant deployment later
      { swarm with cluster := swarm.cluster.setMember nodeId member } := by
  have grow : MembersGrow swarm.cluster.members
      (swarm.cluster.setMember nodeId member).members := by
    intro other old found
    rw [Cluster.setMember_members]
    split
    · rename_i same
      rw [same] at found
      exact ⟨member, rfl, grows old found⟩
    · exact ⟨old, found, rfl, fun _ set => set⟩
  refine ⟨?_, ?_, ?_, ?_⟩
  · intro other found hasFound
    rw [Cluster.setMember_members] at hasFound
    split at hasFound
    · rename_i same
      cases hasFound
      rw [same]
      exact sound
    · exact inv.members other found hasFound
  · intro other found hasFound
    rw [Cluster.setMember_members] at hasFound
    split at hasFound
    · cases hasFound
      exact seeded
    · exact (inv.seeded other found hasFound).mono longer
  · rcases inv.job with ⟨job, stored, sourced⟩
    exact ⟨job, stored, sourced.mono longer grow⟩
  · intro answer mem peer named
    exact (inv.answers answer mem peer named).mono longer grow

/-- A step of the process of one node. -/
theorem SwarmInvariant.process (inv : SwarmInvariant deployment past swarm)
    (longer : past ⊆ later) {nodeId : String} {member : Member} {event : NodeEvent}
    {process : NodeProcess} (found : swarm.cluster.members nodeId = some member)
    (answered : ∀ k peers task, event = .download (.tracker k (.ok peers)) →
      member.process.download.tasks[k]? = some task → peers ≠ [] →
      Credited deployment past task.chunk)
    (stepped : member.process.step deployment.platform (member.config deployment) event =
      some process) :
    SwarmInvariant deployment later
      { swarm with cluster := swarm.cluster.setMember nodeId { member with process } } := by
  have sound := inv.members nodeId member found
  apply inv.setMember longer (member_step sound stepped)
    (((inv.seeded nodeId member found).step answered stepped).mono longer)
  intro old found'
  rw [found] at found'
  cases found'
  exact ⟨rfl, process_bits_kept sound.download stepped⟩

/-- The nodes stay as they are while the tracker handles an event whose reports are of what may be
known. -/
theorem SwarmInvariant.tracks (inv : SwarmInvariant deployment past swarm) (longer : past ⊆ later)
    {event : TrackerEvent}
    (created : ∀ now bytes policyText,
      event ≠ .request now deployment.jobId (.createJob bytes policyText))
    (reported : ∀ now freshId request report, event = .request now freshId request →
      Server.reportOf request = some (deployment.jobId, report) →
      ∀ i, (ChunkBitmap.fromBytes report.bitmapBytes deployment.manifest.chunkCount).has i =
        .ok true →
        Known deployment later swarm.cluster.members report.nodeId report.peerAddr i) :
    SwarmInvariant deployment later
      { swarm with
        cluster := { swarm.cluster with
          tracker := deployment.server.step swarm.cluster.tracker event } } := by
  have seeded : ∀ nodeId member, swarm.cluster.members nodeId = some member →
      MemberSeeded deployment later member := fun nodeId member found =>
    (inv.seeded nodeId member found).mono longer
  refine ⟨inv.members, seeded, ?_, ?_⟩
  · rcases inv.job with ⟨job, stored, sourced⟩
    exact (sourced.mono longer (MembersGrow.refl _)).step stored seeded created reported
  · intro answer mem peer named
    exact (inv.answers answer mem peer named).mono longer (MembersGrow.refl _)

/-- One step keeps the invariant: one case for each effect. -/
theorem SwarmInvariant.step (inv : SwarmInvariant deployment past swarm) {event : SwarmEvent}
    (stepped : swarm.step debugText deployment event = some next) :
    SwarmInvariant deployment (past ++ [event]) next := by
  have longer : past ⊆ past ++ [event] := List.subset_append_left past [event]
  have last : event ∈ past ++ [event] := List.mem_append_right past (List.mem_singleton_self event)
  cases Swarm.step_effect stepped with
  | joins sameJob fresh started =>
      apply inv.setMember longer (member_start sameJob started) (memberSeeded_start last started)
      intro old found
      rw [fresh] at found
      cases found
  | moves noPeers found moved =>
      apply inv.process longer found _ moved
      intro k peers task same
      subst same
      cases noPeers
  | queries now freshId found asking pc =>
      rename_i nodeId k member task
      have sameJob : (member.config deployment).jobId = deployment.jobId :=
        (inv.members nodeId member found).jobId_eq
      refine ⟨inv.members, fun other old known => (inv.seeded other old known).mono longer, ?_, ?_⟩
      · rcases inv.job with ⟨job, stored, sourced⟩
        refine ⟨job, ?_, sourced.mono longer (MembersGrow.refl _)⟩
        exact (get?_dispatch_query _ _ _ _ _ _ _).trans stored
      · intro answer mem peer named
        rcases List.mem_append.mp mem with old | new
        · exact (inv.answers answer old peer named).mono longer (MembersGrow.refl _)
        · rcases mem_answer_to_query new with ⟨sameChunk, job, stored, listed⟩
          rcases listed peer named with ⟨key, state, entry, sameId, address, credited⟩
          rcases inv.job with ⟨job', stored', sourced⟩
          rw [sameJob, stored'] at stored
          cases stored
          rcases sourced.entries key state entry with ⟨keyed, known⟩
          rw [sameChunk, sameId, keyed, address]
          exact (known _ credited).mono longer (MembersGrow.refl _)
  | answers found asking given sameChunk moved =>
      apply inv.process longer found _ moved
      intro k peers task same live somePeer
      cases same
      rw [asking] at live
      cases live
      rcases List.exists_mem_of_ne_nil _ somePeer with ⟨peer, named⟩
      rw [← sameChunk]
      exact (inv.answers _ given peer named).credited inv.seeded
  | delivers now freshId found sent =>
      rename_i nodeId k member bitmapBytes
      have sound := inv.members nodeId member found
      apply inv.tracks longer
      · intro _ _ _ same
        cases same
      · intro _ _ request report same heartbeat i set
        cases same
        rw [reportOf_heartbeat, Option.some.injEq, Prod.mk.injEq] at heartbeat
        rcases heartbeat with ⟨_, rfl⟩
        have held := (sound.sent bitmapBytes sent).within i set
        have named : (member.node.report bitmapBytes).nodeId = nodeId := sound.nodeId_eq
        rw [named]
        exact .inr ⟨member, found, rfl, held⟩
  | arrives other =>
      rename_i arriving
      apply inv.tracks longer
      · rintro now bytes policyText rfl
        simp [TrackerEvent.createsOther] at other
      · intro now freshId request report same heartbeat i set
        subst same
        refine .inl ⟨_, last, report, ?_, rfl, rfl, set⟩
        simp [SwarmEvent.outsideReport, heartbeat]

/-- The invariant holds after every run. -/
theorem swarm_invariant {policy : SchedulingPolicy} {tracker : Tracker} {final : Swarm}
    {events : List SwarmEvent}
    (ran : runEvents (Swarm.step debugText deployment) (.start deployment policy tracker) events =
      some final) : SwarmInvariant deployment events final := by
  apply runEvents_traced (SwarmInvariant deployment)
    (fun _ _ _ _ inv stepped => inv.step stepped) _ ran
  refine ⟨?_, ?_, ?_, ?_⟩
  · intro nodeId member found
    cases found
  · intro nodeId member found
    cases found
  · refine ⟨.new deployment.jobId deployment.manifest policy, ?_, rfl, ?_, ?_⟩
    · rw [Swarm.start, Cluster.start, Tracker.get?_createJob, if_pos rfl]
    · intro nodeId state mem
      cases mem
    · intro complete
      cases complete
  · intro answer mem
    cases mem

end Steps

/-- In every run of a swarm, a chunk that no event from outside has reported is nowhere: no node has
its bit, no node has changed its file since it started, the tracker names nobody for it, no download
has returned, and the job is not complete. -/
theorem chunks_come_from_outside (debugText : Response → String) (deployment : Deployment)
    (policy : SchedulingPolicy) (tracker : Tracker) (events : List SwarmEvent) (final : Swarm)
    (ran : runEvents (Swarm.step debugText deployment) (.start deployment policy tracker) events =
      some final) :
    (∀ nodeId member, final.cluster.members nodeId = some member →
      (∀ i, member.process.download.bitmap.has i = .ok true → Credited deployment events i) ∧
      (∃ disk, .join member.node disk ∈ events ∧ ∀ i, ¬ Credited deployment events i →
        member.process.download.disk ((member.config deployment).path i) =
          disk ((member.config deployment).path i)) ∧
      (member.process.download.loop = .returned →
        ∀ i < deployment.manifest.chunkCount, Credited deployment events i)) ∧
    (∀ answer ∈ final.answers, answer.peers ≠ [] → Credited deployment events answer.chunk) ∧
    ∀ job, final.cluster.tracker.jobs.get? deployment.jobId = some job → job.status = .complete →
      ∀ i < deployment.manifest.chunkCount, Credited deployment events i := by
  have inv : SwarmInvariant deployment events final := swarm_invariant ran
  refine ⟨?_, ?_, ?_⟩
  · intro nodeId member found
    have seeded := inv.seeded nodeId member found
    refine ⟨seeded.bits, seeded.files, ?_⟩
    intro returned i below
    have download := (inv.members nodeId member found).download
    have below' : i < member.process.download.bitmap.chunkCount := download.chunkCount.symm ▸ below
    exact seeded.bits i (ChunkBitmap.isComplete_iff.mp (download.done returned) i below')
  · intro answer given somePeer
    rcases List.exists_mem_of_ne_nil _ somePeer with ⟨peer, named⟩
    exact (inv.answers answer given peer named).credited inv.seeded
  · intro job stored
    rcases inv.job with ⟨job', stored', sourced⟩
    rw [stored'] at stored
    cases stored
    exact sourced.status

/-! ### A concrete swarm -/

/-- A heartbeat of a seed with the first chunk, which the nodes know nothing of. -/
def sampleSeed : SwarmEvent :=
  .outside (.request 0 "x" (.heartbeat "j" "s" "r" "b" [128] 10000))

/-- A node joins and fetches its first chunk from the candidate that the tracker gives it, and reports
it. -/
def sampleFetch : List SwarmEvent :=
  .join sampleNode (fun _ => none) ::
    List.replicate 6 (.member "n" (.download .loop)) ++
    [.query "n" 0 0 "y", .answer "n" 0 0,
      .member "n" (.download (.exchange 0 (sampleAnswer [1, 2]))),
      .member "n" (.download (.writeDone 0)), .member "n" (.download (.mark 0)),
      .member "n" .tick, .member "n" .heartbeatSent, .deliver "n" 0 0 "z"]

/-- The debug text of a response, for runs in which no client meets an unexpected one. -/
def noDebugText : Response → String := fun _ => ""

theorem sampleFetch_marks :
    ((runEvents (Swarm.step noDebugText sampleDeployment)
        (.start sampleDeployment .topologyAware .new) (sampleSeed :: sampleFetch)).bind fun swarm =>
      (swarm.cluster.members "n").map fun member =>
        decide (member.process.download.bitmap.has 0 = .ok true)) = some true := by
  decide +kernel

/-- The chunk of the sample node was reported by the seed. -/
theorem chunks_come_from_outside_sample :
    ∃ final member, runEvents (Swarm.step noDebugText sampleDeployment)
        (.start sampleDeployment .topologyAware .new) (sampleSeed :: sampleFetch) = some final ∧
      final.cluster.members "n" = some member ∧
      member.process.download.bitmap.has 0 = .ok true ∧
      Credited sampleDeployment (sampleSeed :: sampleFetch) 0 := by
  rcases Option.bind_eq_some_iff.mp sampleFetch_marks with ⟨final, ran, rest⟩
  rcases Option.map_eq_some_iff.mp rest with ⟨member, found, marked⟩
  have set := of_decide_eq_true marked
  have origin := (chunks_come_from_outside noDebugText sampleDeployment .topologyAware .new
    (sampleSeed :: sampleFetch) final ran).1 "n" member found
  exact ⟨final, member, ran, found, set, origin.1 0 set⟩

end ModelDistribution
