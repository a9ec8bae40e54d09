/-
Module: ModelDistribution.Tracker.Scheduler
Layer: Model
Purpose: The two peer schedulers and the rarity ranking. Both schedulers look the chunk up in the
  bitmap of every node except the requester, so they panic on a bitmap that is too short.
Imports: ModelDistribution.Tracker.Types, Mathlib.Data.List.Sort
Trusted boundary: human-reviewed spec
Main exports: eligible, rarityFirst, topologyAware, rarityOrder

[src/tracker/scheduler.rs]
-/
import ModelDistribution.Tracker.Types
import Mathlib.Data.List.Sort

namespace ModelDistribution

open Foundation

namespace Scheduler

/-- What a requester is told about a node. -/
def candidatePeer (state : NodeState) : CandidatePeer where
  nodeId := state.nodeId
  peerAddr := state.peerAddr
  rackId := state.rackId
  uploadBwMbps := state.uploadBwMbps

/-- The node is not the requester and has the chunk; the bitmap of the requester is not read. -/
def eligible (requesterId : String) (chunkIndex : UInt32) (state : NodeState) : Checked Bool :=
  if state.nodeId = requesterId then .ok false else state.bitmap.has chunkIndex

/-- Stable sort, highest bandwidth first. -/
def sortByBandwidth (peers : List CandidatePeer) : List CandidatePeer :=
  peers.insertionSort fun a b => b.uploadBwMbps ≤ a.uploadBwMbps

/-- `rarity_first`. -/
def rarityFirst (layout : Layout String NodeState) (job : Job) (requesterId : String)
    (chunkIndex : UInt32) (topN : UInt64) : Checked (List CandidatePeer) := do
  let holders ← filterChecked (fun entry => eligible requesterId chunkIndex entry.2)
    (layout.iter job.nodes)
  let candidates := holders.map fun entry => candidatePeer entry.2
  return (sortByBandwidth candidates).take topN.toNat

/-- One round of the loop in `topology_aware`: a holder goes to the local or to the remote group. -/
def placeCandidate (requesterId requesterRack : String) (chunkIndex : UInt32)
    (groups : List CandidatePeer × List CandidatePeer) (entry : String × NodeState) :
    Checked (List CandidatePeer × List CandidatePeer) := do
  let state := entry.2
  if ← eligible requesterId chunkIndex state then
    if state.rackId = requesterRack then return (groups.1 ++ [candidatePeer state], groups.2)
    else return (groups.1, groups.2 ++ [candidatePeer state])
  else
    return groups

/-- `topology_aware`. -/
def topologyAware (layout : Layout String NodeState) (job : Job)
    (requesterId requesterRack : String) (chunkIndex : UInt32) (topN : UInt64) :
    Checked (List CandidatePeer) := do
  let (near, remote) ← (layout.iter job.nodes).foldlM
    (placeCandidate requesterId requesterRack chunkIndex) ([], [])
  return (sortByBandwidth near ++ sortByBandwidth remote).take topN.toNat

/-- `rarity_order`: the missing chunks with their replica counts, rarest first. -/
def rarityOrder (profile : Profile) (layout : Layout String NodeState) (job : Job)
    (missing : List UInt32) : Checked (List (UInt32 × UInt32)) := do
  let counts ← job.replicaCounts profile layout
  let ranked := missing.map fun i => (i, counts.getD i.toNat 0)
  return ranked.insertionSort fun a b => a.2 ≤ b.2

/-! ### When the schedulers return -/

variable {layout : Layout String NodeState} {job : Job} {requesterId requesterRack : String}
  {chunkIndex : UInt32} {topN : UInt64}

/-- The bitmap of a node decides eligibility without a panic when it is full. -/
theorem eligible_returns (requesterId : String) (chunkIndex : UInt32) {state : NodeState}
    (full : state.bitmap.Full) :
    ∃ answer, eligible requesterId chunkIndex state = .ok answer := by
  unfold eligible
  split
  · exact ⟨false, rfl⟩
  · exact ⟨_, full.has_eq chunkIndex⟩

theorem rarityFirst_returns
    (full : ∀ entry ∈ job.nodes.entries, entry.2.bitmap.Full) :
    ∃ peers, rarityFirst layout job requesterId chunkIndex topN = .ok peers := by
  have checks : ∀ entry ∈ layout.iter job.nodes,
      ∃ keep, eligible requesterId chunkIndex entry.2 = .ok keep := by
    intro entry mem
    exact eligible_returns requesterId chunkIndex (full entry (Layout.mem_iter.mp mem))
  have holders := filterChecked_eq_ok_iff.mpr ⟨checks, rfl⟩
  simp [rarityFirst, holders, bind, Except.bind, pure, Except.pure]

/-- One round of the loop leaves the groups as they are, or adds a node that is eligible. -/
theorem placeCandidate_spec {groups : List CandidatePeer × List CandidatePeer}
    {entry : String × NodeState} :
    placeCandidate requesterId requesterRack chunkIndex groups entry =
      (eligible requesterId chunkIndex entry.2).map fun answer =>
        if answer = false then groups
        else if entry.2.rackId = requesterRack then
          (groups.1 ++ [candidatePeer entry.2], groups.2)
        else (groups.1, groups.2 ++ [candidatePeer entry.2]) := by
  cases decided : eligible requesterId chunkIndex entry.2 with
  | error panic => simp [placeCandidate, decided, bind, Except.bind, Except.map]
  | ok answer =>
      by_cases sameRack : entry.2.rackId = requesterRack <;> cases answer <;>
        simp [placeCandidate, decided, sameRack, bind, Except.bind, pure, Except.pure, Except.map]

theorem topologyAware_returns
    (full : ∀ entry ∈ job.nodes.entries, entry.2.bitmap.Full) :
    ∃ peers, topologyAware layout job requesterId requesterRack chunkIndex topN = .ok peers := by
  have round : ∀ groups, ∀ entry ∈ layout.iter job.nodes, True →
      ∃ next, placeCandidate requesterId requesterRack chunkIndex groups entry = .ok next ∧
        True := by
    intro groups entry mem _
    obtain ⟨answer, decided⟩ := eligible_returns requesterId chunkIndex
      (full entry (Layout.mem_iter.mp mem))
    rw [placeCandidate_spec, decided]
    exact ⟨_, rfl, trivial⟩
  have looped : ∃ groups, (layout.iter job.nodes).foldlM
      (placeCandidate requesterId requesterRack chunkIndex) ([], []) = .ok groups ∧ True :=
    foldlM_returns round trivial
  obtain ⟨groups, placed, _⟩ := looped
  simp [topologyAware, placed, bind, Except.bind, pure, Except.pure]

/-! ### Whom the schedulers name -/

/-- A peer that a scheduler may name: a registered node other than the requester that has the
chunk. -/
def Holder (job : Job) (requesterId : String) (chunkIndex : UInt32) (peer : CandidatePeer) : Prop :=
  ∃ entry ∈ job.nodes.entries, peer = candidatePeer entry.2 ∧ entry.2.nodeId ≠ requesterId ∧
    entry.2.bitmap.has chunkIndex = .ok true

theorem eligible_eq_true {state : NodeState}
    (decided : eligible requesterId chunkIndex state = .ok true) :
    state.nodeId ≠ requesterId ∧ state.bitmap.has chunkIndex = .ok true := by
  unfold eligible at decided
  split at decided
  · cases decided
  · rename_i other
    exact ⟨other, decided⟩

theorem mem_sortByBandwidth {peers : List CandidatePeer} {peer : CandidatePeer} :
    peer ∈ sortByBandwidth peers ↔ peer ∈ peers :=
  List.mem_insertionSort _

theorem holder_of_mem_rarityFirst {peers : List CandidatePeer}
    (returned : rarityFirst layout job requesterId chunkIndex topN = .ok peers)
    {peer : CandidatePeer} (named : peer ∈ peers) : Holder job requesterId chunkIndex peer := by
  unfold rarityFirst at returned
  cases filtered : filterChecked
      (fun entry : String × NodeState => eligible requesterId chunkIndex entry.2)
      (layout.iter job.nodes) with
  | error panic => simp [filtered, bind, Except.bind] at returned
  | ok holders =>
      simp only [filtered, bind, Except.bind, pure, Except.pure, Except.ok.injEq] at returned
      subst returned
      have sorted := mem_sortByBandwidth.mp (List.mem_of_mem_take named)
      obtain ⟨entry, mem, rfl⟩ := List.mem_map.mp sorted
      obtain ⟨_, rfl⟩ := filterChecked_eq_ok_iff.mp filtered
      obtain ⟨visited, decided⟩ := List.mem_filter.mp mem
      obtain ⟨other, present⟩ := eligible_eq_true (Checked.holds_eq_true_iff.mp decided)
      exact ⟨entry, Layout.mem_iter.mp visited, rfl, other, present⟩

/-- A round adds only holders to the groups. -/
theorem holder_of_placeCandidate {groups next : List CandidatePeer × List CandidatePeer}
    {entry : String × NodeState} (visited : entry ∈ layout.iter job.nodes)
    (known : ∀ peer ∈ groups.1 ++ groups.2, Holder job requesterId chunkIndex peer)
    (placed : placeCandidate requesterId requesterRack chunkIndex groups entry = .ok next) :
    ∀ peer ∈ next.1 ++ next.2, Holder job requesterId chunkIndex peer := by
  rw [placeCandidate_spec] at placed
  cases decided : eligible requesterId chunkIndex entry.2 with
  | error panic => simp [decided, Except.map] at placed
  | ok answer =>
      rw [decided] at placed
      simp only [Except.map, Except.ok.injEq] at placed
      subst placed
      cases answer with
      | false => exact known
      | true =>
          obtain ⟨other, present⟩ := eligible_eq_true decided
          have added : Holder job requesterId chunkIndex (candidatePeer entry.2) :=
            ⟨entry, Layout.mem_iter.mp visited, rfl, other, present⟩
          intro peer mem
          have oldOrNew : peer ∈ groups.1 ++ groups.2 ∨ peer = candidatePeer entry.2 := by
            simp only [Bool.true_eq_false, if_false] at mem
            split at mem <;> simp at mem ⊢ <;> grind
          rcases oldOrNew with old | rfl
          · exact known peer old
          · exact added

theorem holder_of_mem_topologyAware {peers : List CandidatePeer}
    (returned : topologyAware layout job requesterId requesterRack chunkIndex topN = .ok peers)
    {peer : CandidatePeer} (named : peer ∈ peers) : Holder job requesterId chunkIndex peer := by
  unfold topologyAware at returned
  cases placed : (layout.iter job.nodes).foldlM
      (placeCandidate requesterId requesterRack chunkIndex) ([], []) with
  | error panic => simp [placed, bind, Except.bind] at returned
  | ok groups =>
      have holders : ∀ peer ∈ groups.1 ++ groups.2, Holder job requesterId chunkIndex peer := by
        apply foldlM_preserves _ _ placed
        · intro acc next entry visited known stepped
          exact holder_of_placeCandidate visited known stepped
        · simp
      simp only [placed, bind, Except.bind, pure, Except.pure, Except.ok.injEq] at returned
      subst returned
      apply holders
      have listed := List.mem_of_mem_take named
      rw [List.mem_append, mem_sortByBandwidth, mem_sortByBandwidth] at listed
      exact List.mem_append.mpr listed

end Scheduler

end ModelDistribution
