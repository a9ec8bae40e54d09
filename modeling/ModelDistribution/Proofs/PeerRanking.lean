/-
Module: ModelDistribution.Proofs.PeerRanking
Layer: Proofs
Purpose: Both schedulers as one ranking. The two groups of the topology-aware scheduler, sorted apart
  and joined, are one stable sort by rack and bandwidth, panics included; so either policy answers a
  query with the best holders, as many as were asked for, and no better one is left out.
Imports: ModelDistribution.Foundation.StableSort, ModelDistribution.Proofs.TrackerInvariants
Trusted boundary: none
Main exports: Scheduler.Eligible, Scheduler.Outranks, Scheduler.referenceCmp,
  Scheduler.topologyAwareOneSort, Scheduler.schedule_ranked, Scheduler.topology_rankings_agree,
  Tracker.getPeers_best
-/
import ModelDistribution.Foundation.StableSort
import ModelDistribution.Proofs.TrackerInvariants

namespace ModelDistribution

open Foundation

namespace Scheduler

variable {layout : Layout String NodeState} {job : Job} {requesterId requesterRack : String}
  {chunkIndex : UInt32} {topN : UInt64}

/-! ### Who may be named -/

/-- The node is not the requester and has the chunk. -/
def Eligible (requesterId : String) (chunkIndex : UInt32) (state : NodeState) : Prop :=
  state.nodeId ≠ requesterId ∧ state.bitmap.has chunkIndex = .ok true

instance (requesterId : String) (chunkIndex : UInt32) (state : NodeState) :
    Decidable (Eligible requesterId chunkIndex state) :=
  inferInstanceAs (Decidable (state.nodeId ≠ requesterId ∧ state.bitmap.has chunkIndex = .ok true))

/-- The check of the schedulers holds exactly for these nodes. -/
theorem eligible_holds_iff {state : NodeState} :
    (eligible requesterId chunkIndex state).holds = true ↔
      Eligible requesterId chunkIndex state := by
  rw [Checked.holds_eq_true_iff]
  constructor
  · exact eligible_eq_true
  · rintro ⟨other, present⟩
    rw [eligible, if_neg other, present]

/-- The holders in the order of the node table. -/
def holders (layout : Layout String NodeState) (job : Job) (requesterId : String)
    (chunkIndex : UInt32) : Checked (List (String × NodeState)) :=
  filterChecked (fun entry => eligible requesterId chunkIndex entry.2) (layout.iter job.nodes)

theorem holders_of_full (layout : Layout String NodeState) {job : Job}
    (full : ∀ entry ∈ job.nodes.entries, entry.2.bitmap.Full) (requesterId : String)
    (chunkIndex : UInt32) :
    holders layout job requesterId chunkIndex =
      .ok ((layout.iter job.nodes).filter fun entry => Eligible requesterId chunkIndex entry.2) := by
  refine filterChecked_eq_ok_iff.mpr ⟨?_, ?_⟩
  · intro entry visited
    exact eligible_returns requesterId chunkIndex (full entry (Layout.mem_iter.mp visited))
  · refine List.filter_congr fun entry _ => ?_
    rw [Bool.eq_iff_iff, decide_eq_true_iff, eligible_holds_iff]

/-- Whatever the table looks like, the holders that are found are the eligible nodes. -/
theorem holders_eq_filter {found : List (String × NodeState)}
    (returned : holders layout job requesterId chunkIndex = .ok found) :
    found = (layout.iter job.nodes).filter fun entry =>
      Eligible requesterId chunkIndex entry.2 := by
  obtain ⟨_, rfl⟩ := filterChecked_eq_ok_iff.mp returned
  refine List.filter_congr fun entry _ => ?_
  rw [Bool.eq_iff_iff, decide_eq_true_iff, eligible_holds_iff]

theorem rarityFirst_eq :
    rarityFirst layout job requesterId chunkIndex topN =
      (holders layout job requesterId chunkIndex).map fun found =>
        (sortByBandwidth (found.map fun entry => candidatePeer entry.2)).take topN.toNat := by
  unfold rarityFirst holders
  cases filterChecked (fun entry : String × NodeState => eligible requesterId chunkIndex entry.2)
      (layout.iter job.nodes) <;> rfl

/-! ### The two groups are one sort -/

/-- The peer is on the requester's rack. -/
def isLocal (requesterRack : String) (peer : CandidatePeer) : Bool := peer.rackId = requesterRack

/-- The loop sends each holder to the group of its rack, and panics where the filter does. -/
theorem placeAll_eq (entries : List (String × NodeState))
    (groups : List CandidatePeer × List CandidatePeer) :
    entries.foldlM (placeCandidate requesterId requesterRack chunkIndex) groups =
      (filterChecked (fun entry => eligible requesterId chunkIndex entry.2) entries).map
        fun found =>
          (groups.1 ++ (found.map fun entry => candidatePeer entry.2).filter
            (isLocal requesterRack),
           groups.2 ++ (found.map fun entry => candidatePeer entry.2).filter
            fun peer => !isLocal requesterRack peer) := by
  induction entries generalizing groups with
  | nil => simp [filterChecked, Except.map, pure, Except.pure]
  | cons entry entries ih =>
      rw [List.foldlM_cons, placeCandidate_spec, filterChecked]
      cases decided : eligible requesterId chunkIndex entry.2 with
      | error panic => simp [bind, Except.bind, Except.map]
      | ok answer =>
          simp only [bind, Except.bind, Except.map, ih]
          cases filterChecked (fun entry : String × NodeState =>
              eligible requesterId chunkIndex entry.2) entries with
          | error panic => rfl
          | ok found =>
              cases answer with
              | false => simp [pure, Except.pure]
              | true =>
                  by_cases sameRack : entry.2.rackId = requesterRack <;>
                    simp [sameRack, isLocal, candidatePeer, pure, Except.pure]

theorem topologyAware_eq :
    topologyAware layout job requesterId requesterRack chunkIndex topN =
      (holders layout job requesterId chunkIndex).map fun found =>
        let candidates := found.map fun entry => candidatePeer entry.2
        (sortByBandwidth (candidates.filter (isLocal requesterRack)) ++
          sortByBandwidth (candidates.filter fun peer => !isLocal requesterRack peer)).take
            topN.toNat := by
  unfold topologyAware
  rw [placeAll_eq]
  unfold holders
  cases filterChecked (fun entry : String × NodeState => eligible requesterId chunkIndex entry.2)
      (layout.iter job.nodes) <;> rfl

/-- The comparator of the reference example: `b_local.cmp(&a_local)`, then bandwidth. -/
def referenceCmp (requesterRack : String) (a b : CandidatePeer) : Ordering :=
  let aLocal : Bool := a.rackId = requesterRack
  let bLocal : Bool := b.rackId = requesterRack
  (compare bLocal aLocal).then (compare b.uploadBwMbps a.uploadBwMbps)

/-- Topology-aware selection with one stable sort by the comparator of the reference example. -/
def topologyAwareOneSort (layout : Layout String NodeState) (job : Job)
    (requesterId requesterRack : String) (chunkIndex : UInt32) (topN : UInt64) :
    Checked (List CandidatePeer) := do
  let found ← filterChecked (fun entry => eligible requesterId chunkIndex entry.2)
    (layout.iter job.nodes)
  let candidates := found.map fun entry => candidatePeer entry.2
  return (candidates.insertionSort fun a b => (referenceCmp requesterRack a b).isLE).take topN.toNat

/-- Higher bandwidth stands first. -/
abbrev ByBandwidth (a b : CandidatePeer) : Prop := b.uploadBwMbps ≤ a.uploadBwMbps

instance : Std.Total ByBandwidth where
  total a b := UInt64.le_total b.uploadBwMbps a.uploadBwMbps

instance : IsTrans CandidatePeer ByBandwidth where
  trans _ _ _ ab bc := UInt64.le_trans bc ab

theorem referenceCmp_isLE_iff {a b : CandidatePeer} :
    (referenceCmp requesterRack a b).isLE = true ↔
      FirstBy (isLocal requesterRack) ByBandwidth a b := by
  have ranked : (compare b.uploadBwMbps a.uploadBwMbps).isLE = true ↔ ByBandwidth a b :=
    Std.isLE_compare
  unfold referenceCmp FirstBy isLocal
  by_cases nearA : a.rackId = requesterRack <;> by_cases nearB : b.rackId = requesterRack <;>
    simp [nearA, nearB, compare, ← ranked]

/-- Relations that rank alike sort alike. -/
theorem insertionSort_congr {α : Type} {r s : α → α → Prop} [DecidableRel r] [DecidableRel s]
    (alike : ∀ a b, r a b ↔ s a b) (l : List α) : l.insertionSort r = l.insertionSort s := by
  simpa using List.map_insertionSort r s id l fun a _ b _ => alike a b

theorem topologyAware_eq_oneSort :
    topologyAware layout job requesterId requesterRack chunkIndex topN =
      topologyAwareOneSort layout job requesterId requesterRack chunkIndex topN := by
  rw [topologyAware_eq]
  unfold topologyAwareOneSort holders
  cases filterChecked (fun entry : String × NodeState => eligible requesterId chunkIndex entry.2)
      (layout.iter job.nodes) with
  | error panic => rfl
  | ok found =>
      have joined := insertionSort_firstBy (isLocal requesterRack) ByBandwidth
        (found.map fun entry => candidatePeer entry.2)
      simp only [Except.map, bind, Except.bind, pure, Except.pure,
        insertionSort_congr fun a b => referenceCmp_isLE_iff, joined]
      rfl

/-! ### Topology-aware against rarity-first -/

/-- A sort by rack and bandwidth with no rack to tell apart is one by bandwidth. -/
theorem insertionSort_firstBy_of_const {α : Type} {p : α → Bool} {le : α → α → Prop}
    [DecidableRel le] [Std.Total le] [IsTrans α le] {l : List α} {b : Bool}
    (const : ∀ a ∈ l, p a = b) : l.insertionSort (FirstBy p le) = l.insertionSort le := by
  have alike : ∀ x ∈ l, ∀ y ∈ l, FirstBy p le x y ↔ le x y := fun x hx y hy =>
    firstBy_of_eq ((const x hx).trans (const y hy).symm)
  simpa using List.map_insertionSort (FirstBy p le) le id l alike

theorem topologyAware_eq_firstBy :
    topologyAware layout job requesterId requesterRack chunkIndex topN =
      (holders layout job requesterId chunkIndex).map fun found =>
        ((found.map fun entry => candidatePeer entry.2).insertionSort
          (FirstBy (isLocal requesterRack) ByBandwidth)).take topN.toNat := by
  rw [topologyAware_eq]
  cases holders layout job requesterId chunkIndex with
  | error panic => rfl
  | ok found =>
      simp only [Except.map, insertionSort_firstBy]
      rfl

/-- With all holders on one side of the rack boundary the policies answer alike. -/
theorem topologyAware_eq_rarityFirst (near : Bool)
    (oneSide : ∀ entry ∈ job.nodes.entries, Eligible requesterId chunkIndex entry.2 →
      decide (entry.2.rackId = requesterRack) = near) :
    topologyAware layout job requesterId requesterRack chunkIndex topN =
      rarityFirst layout job requesterId chunkIndex topN := by
  rw [topologyAware_eq_firstBy, rarityFirst_eq]
  cases found : holders layout job requesterId chunkIndex with
  | error panic => rfl
  | ok entries =>
      have const : ∀ peer ∈ entries.map fun entry => candidatePeer entry.2,
          isLocal requesterRack peer = near := by
        intro peer mem
        obtain ⟨entry, listed, rfl⟩ := List.mem_map.mp mem
        rw [holders_eq_filter found, List.mem_filter, decide_eq_true_iff] at listed
        exact oneSide entry (Layout.mem_iter.mp listed.1) listed.2
      simp only [Except.map, insertionSort_firstBy_of_const const]
      rfl

/-- The number of nodes that may be named. -/
def eligibleCount (job : Job) (requesterId : String) (chunkIndex : UInt32) : Nat :=
  job.nodes.entries.countP fun entry => Eligible requesterId chunkIndex entry.2

theorem length_holders {found : List (String × NodeState)}
    (returned : holders layout job requesterId chunkIndex = .ok found) :
    found.length = eligibleCount job requesterId chunkIndex := by
  rw [holders_eq_filter returned, ← List.countP_eq_length_filter]
  exact (Layout.iter_perm layout job.nodes).countP_eq _

/-- The split into local and remote holders, sorted apart and joined, answers like one stable sort by
the comparator of the reference example. So with all holders on the requester's rack, or none, both
policies answer alike, and when all holders are asked for they name the same peers. -/
theorem topology_rankings_agree (layout : Layout String NodeState) (job : Job)
    (requesterId requesterRack : String) (chunkIndex : UInt32) (topN : UInt64) :
    topologyAware layout job requesterId requesterRack chunkIndex topN =
        topologyAwareOneSort layout job requesterId requesterRack chunkIndex topN ∧
      (((∀ entry ∈ job.nodes.entries, Eligible requesterId chunkIndex entry.2 →
          entry.2.rackId = requesterRack) ∨
        ∀ entry ∈ job.nodes.entries, Eligible requesterId chunkIndex entry.2 →
          entry.2.rackId ≠ requesterRack) →
        topologyAware layout job requesterId requesterRack chunkIndex topN =
          rarityFirst layout job requesterId chunkIndex topN) ∧
      (eligibleCount job requesterId chunkIndex ≤ topN.toNat →
        ∀ near best,
          topologyAware layout job requesterId requesterRack chunkIndex topN = .ok near →
          rarityFirst layout job requesterId chunkIndex topN = .ok best → near.Perm best) := by
  refine ⟨topologyAware_eq_oneSort, ?_, ?_⟩
  · rintro (allNear | allFar)
    · refine topologyAware_eq_rarityFirst true fun entry mem named => ?_
      exact decide_eq_true (allNear entry mem named)
    · refine topologyAware_eq_rarityFirst false fun entry mem named => ?_
      exact decide_eq_false (allFar entry mem named)
  · intro enough near best returnedNear returnedBest
    rw [topologyAware_eq_firstBy] at returnedNear
    rw [rarityFirst_eq] at returnedBest
    cases found : holders layout job requesterId chunkIndex with
    | error panic => simp [found, Except.map] at returnedNear
    | ok entries =>
        simp only [found, Except.map, Except.ok.injEq] at returnedNear returnedBest
        subst returnedNear returnedBest
        have all : entries.length ≤ topN.toNat := length_holders found ▸ enough
        unfold sortByBandwidth
        rw [List.take_of_length_le (by simpa using all), List.take_of_length_le (by simpa using all)]
        exact (List.perm_insertionSort _ _).trans (List.perm_insertionSort _ _).symm

/-! ### The best holders -/

/-- `a` stands strictly above `b` in the ranking of the policy. -/
def Outranks (policy : SchedulingPolicy) (requesterRack : String) (a b : CandidatePeer) : Prop :=
  match policy with
  | .rarityFirst => b.uploadBwMbps < a.uploadBwMbps
  | .topologyAware =>
      (a.rackId = requesterRack ∧ b.rackId ≠ requesterRack) ∨
        ((a.rackId = requesterRack ↔ b.rackId = requesterRack) ∧
          b.uploadBwMbps < a.uploadBwMbps)

/-- Sorting what is known of the nodes is sorting the nodes. -/
theorem exists_ranked (le : CandidatePeer → CandidatePeer → Prop) [DecidableRel le] [Std.Total le]
    [IsTrans CandidatePeer le] (found : List (String × NodeState)) (n : Nat) :
    ∃ ranked : List (String × NodeState), ranked.Perm found ∧
      (ranked.map fun entry => candidatePeer entry.2).Pairwise le ∧
      ((found.map fun entry => candidatePeer entry.2).insertionSort le).take n =
        (ranked.take n).map fun entry => candidatePeer entry.2 := by
  let leEntry := fun a b : String × NodeState => le (candidatePeer a.2) (candidatePeer b.2)
  have mapped := List.map_insertionSort leEntry le (fun entry => candidatePeer entry.2) found
    fun _ _ _ _ => Iff.rfl
  refine ⟨found.insertionSort leEntry, List.perm_insertionSort _ found, ?_, ?_⟩
  · rw [mapped]
    exact List.pairwise_insertionSort le _
  · rw [List.map_take, mapped]

/-- The answer of either policy is a cut of its holders, sorted by the policy's rank. -/
theorem schedule_ranked {found : List (String × NodeState)} (requesterRack : String) (topN : UInt64)
    (returned : holders layout job requesterId chunkIndex = .ok found) :
    ∃ ranked : List (String × NodeState), ranked.Perm found ∧
      (ranked.map fun entry => candidatePeer entry.2).Pairwise
        (fun a b => ¬ Outranks job.policy requesterRack b a) ∧
      Tracker.schedule layout job requesterId requesterRack chunkIndex topN =
        .ok ((ranked.take topN.toNat).map fun entry => candidatePeer entry.2) := by
  unfold Tracker.schedule
  cases job.policy with
  | rarityFirst =>
      obtain ⟨ranked, perm, sorted, cut⟩ := exists_ranked ByBandwidth found topN.toNat
      refine ⟨ranked, perm, sorted.imp fun le => UInt64.not_lt.mpr le, ?_⟩
      rw [rarityFirst_eq, returned, ← cut]
      rfl
  | topologyAware =>
      obtain ⟨ranked, perm, sorted, cut⟩ :=
        exists_ranked (FirstBy (isLocal requesterRack) ByBandwidth) found topN.toNat
      refine ⟨ranked, perm, sorted.imp ?_, ?_⟩
      · rintro a b ⟨rack, bandwidth⟩ (⟨nearB, farA⟩ | ⟨sameSide, faster⟩)
        · exact farA (by simpa [isLocal, nearB] using rack)
        · have sameRack : isLocal requesterRack a = isLocal requesterRack b := by
            simp [isLocal, sameSide]
          exact UInt64.not_lt.mpr (bandwidth sameRack) faster
      · rw [← cut]
        simp only [topologyAware_eq_firstBy, returned, Except.map]

end Scheduler

/-- A query for a registered job whose bitmaps are full is answered with distinct eligible nodes, as
many as there are up to `topN`, in the order of the policy, and no eligible node that is left out
ranks strictly above a named one. -/
theorem Tracker.getPeers_best (layouts : TableLayouts) (tracker : Tracker) {jobId : String}
    {job : Job} (registered : tracker.jobs.get? jobId = some job)
    (full : ∀ entry ∈ job.nodes.entries, entry.2.bitmap.Full)
    (requesterId requesterRack : String) (chunkIndex : UInt32) (topN : UInt64) :
    ∃ (chosen : List (String × NodeState)) (peers : List CandidatePeer) (after : Tracker),
      getPeers layouts tracker jobId requesterId requesterRack chunkIndex topN =
        .ok (.ok (peers, after)) ∧
      peers = chosen.map (fun entry => Scheduler.candidatePeer entry.2) ∧
      (chosen.map Prod.fst).Nodup ∧
      (∀ entry ∈ chosen, entry ∈ job.nodes.entries ∧
        Scheduler.Eligible requesterId chunkIndex entry.2) ∧
      peers.length = min topN.toNat (Scheduler.eligibleCount job requesterId chunkIndex) ∧
      peers.Pairwise (fun a b => ¬ Scheduler.Outranks job.policy requesterRack b a) ∧
      (∀ entry ∈ job.nodes.entries, Scheduler.Eligible requesterId chunkIndex entry.2 →
        entry ∉ chosen → ∀ peer ∈ peers,
          ¬ Scheduler.Outranks job.policy requesterRack (Scheduler.candidatePeer entry.2) peer) ∧
      ((∀ entry ∈ job.nodes.entries, entry.2.nodeId = entry.1) →
        (peers.map CandidatePeer.nodeId).Nodup) := by
  obtain ⟨unknown, _⟩ | ⟨job₀, found, answered⟩ :=
    getPeers_spec layouts tracker jobId requesterId requesterRack chunkIndex topN
  · rw [registered] at unknown
    cases unknown
  · rw [registered] at found
    cases found
    have returned := Scheduler.holders_of_full (layouts.nodes jobId) full requesterId chunkIndex
    obtain ⟨ranked, perm, sorted, scheduled⟩ := Scheduler.schedule_ranked requesterRack topN returned
    have member : ∀ entry, entry ∈ ranked ↔ entry ∈ job.nodes.entries ∧
        Scheduler.Eligible requesterId chunkIndex entry.2 := by
      intro entry
      rw [perm.mem_iff, List.mem_filter, Layout.mem_iter, decide_eq_true_iff]
    have distinct : (ranked.map Prod.fst).Nodup := by
      have keys : ((layouts.nodes jobId).iter job.nodes |>.map Prod.fst).Nodup :=
        ((Layout.iter_perm _ _).map Prod.fst).nodup_iff.mpr job.nodes.nodup
      exact ((perm.map Prod.fst).nodup_iff).mpr (keys.sublist (List.filter_sublist.map _))
    have chosenDistinct : ((ranked.take topN.toNat).map Prod.fst).Nodup :=
      distinct.sublist ((List.take_sublist _ _).map _)
    rw [scheduled] at answered
    refine ⟨ranked.take topN.toNat, _, _, answered, rfl, chosenDistinct, ?_, ?_, ?_, ?_, ?_⟩
    · intro entry mem
      exact (member entry).mp (List.mem_of_mem_take mem)
    · rw [List.length_map, List.length_take, perm.length_eq, Scheduler.length_holders returned]
    · rw [List.map_take]
      exact sorted.sublist (List.take_sublist _ _)
    · intro entry mem eligible leftOut peer named
      have behind : entry ∈ ranked.drop topN.toNat := by
        have listed := (member entry).mpr ⟨mem, eligible⟩
        rw [← List.take_append_drop topN.toNat ranked, List.mem_append] at listed
        exact listed.resolve_left leftOut
      rw [List.map_take] at named
      exact rel_of_mem_take_of_mem_drop sorted named
        (List.map_drop .. ▸ List.mem_map_of_mem behind)
    · intro keyed
      have same : ((ranked.take topN.toNat).map fun entry => Scheduler.candidatePeer entry.2).map
          CandidatePeer.nodeId = (ranked.take topN.toNat).map Prod.fst := by
        rw [List.map_map]
        refine List.map_congr_left fun entry mem => ?_
        exact keyed entry ((member entry).mp (List.mem_of_mem_take mem)).1
      rw [same]
      exact chosenDistinct

/-- A job with two nodes that hold the first of its two chunks, on different racks. -/
def twoHolders : Job :=
  let state (nodeId rackId : String) (uploadBwMbps : UInt64) : NodeState :=
    { nodeId, rackId, peerAddr := nodeId ++ ":9000", bitmap := .fromBytes [0x80] 2, uploadBwMbps,
      lastSeen := 0 }
  { Job.new "job" ⟨"m", "1", 3, 2, 2, ["", ""]⟩ .topologyAware with
    nodes := (ShardedMap.empty.insert "a" (state "a" "r1" 10)).insert "b" (state "b" "r2" 100) }

/-- The slower node of the requester's rack is named when one peer is asked for. -/
theorem Tracker.getPeers_best_two :
    (Tracker.new.setJob "job" twoHolders).jobs.get? "job" = some twoHolders ∧
      (∀ entry ∈ twoHolders.nodes.entries, entry.2.bitmap.Full) ∧
      ∃ peers after, getPeers sampleServer.layouts
          (Tracker.new.setJob "job" twoHolders) "job" "c" "r1" 0 1 = .ok (.ok (peers, after)) ∧
        peers.length = 1 := by
  have registered : (Tracker.new.setJob "job" twoHolders).jobs.get? "job" = some twoHolders := by
    rw [get?_setJob, if_pos rfl]
  have full : ∀ entry ∈ twoHolders.nodes.entries, entry.2.bitmap.Full := by decide
  have two : Scheduler.eligibleCount twoHolders "c" 0 = 2 := by decide
  obtain ⟨_, peers, after, answered, _, _, _, length, _⟩ :=
    getPeers_best sampleServer.layouts _ registered full
      "c" "r1" 0 1
  exact ⟨registered, full, peers, after, answered, by rw [length, two]; rfl⟩

end ModelDistribution
