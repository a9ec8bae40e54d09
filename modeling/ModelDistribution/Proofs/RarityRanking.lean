/-
Module: ModelDistribution.Proofs.RarityRanking
Layer: Proofs
Purpose: Three counts of the holders of a chunk. The counter of `replica_counts`, the length of an
  uncut candidate list and the cached counters of the nodes count the same pairs of a node and a
  chunk, and `rarity_order` sorts by the first of them, stably. All of it holds while no chunk has
  as many holders as a 32-bit counter has values.
Imports: ModelDistribution.Proofs.PeerRanking, ModelDistribution.Proofs.ReplicaCounts,
  Mathlib.Algebra.Order.Ring.Nat, Mathlib.Algebra.BigOperators.Group.List.Basic
Trusted boundary: none
Main exports: Job.replicaCount, Job.registeredHolder, Job.replicaCounts_getD,
  Job.replicaCount_eq_eligibleCount, Job.sum_holders, Scheduler.rarityOrder_stable,
  Job.replica_counts_agree
-/
import ModelDistribution.Proofs.PeerRanking
import ModelDistribution.Proofs.ReplicaCounts
import Mathlib.Algebra.Order.Ring.Nat
import Mathlib.Algebra.BigOperators.Group.List.Basic

namespace ModelDistribution

open Foundation

namespace Job

/-- The number of registered nodes that have chunk `i`. -/
def replicaCount (job : Job) (i : UInt32) : Nat :=
  job.nodes.entries.countP fun entry => entry.2.bitmap.has i = .ok true

/-- The node is registered and has chunk `i`. -/
def registeredHolder (job : Job) (nodeId : String) (i : UInt32) : Bool :=
  (job.nodes.get? nodeId).any fun state => state.bitmap.has i = .ok true

section Counts

variable {job : Job} (full : ∀ entry ∈ job.nodes.entries, entry.2.bitmap.Full ∧
  entry.2.bitmap.chunkCount = job.manifest.chunkCount)
include full

/-- The counter of a chunk counts its lookups. -/
theorem holders_eq_replicaCount {i : UInt32} (below : i < job.manifest.chunkCount) :
    job.holders i.toNat = job.replicaCount i := by
  unfold holders holdersIn replicaCount
  rw [← List.countP_eq_length_filter]
  refine List.countP_congr fun entry mem => ?_
  obtain ⟨isFull, count⟩ := full entry mem
  rw [isFull.has_eq, count]
  simp [below]

/-- Behind the last chunk nobody has anything. -/
theorem replicaCount_of_ge {i : UInt32} (outside : job.manifest.chunkCount ≤ i) :
    job.replicaCount i = 0 := by
  refine List.countP_eq_zero.mpr fun entry mem => ?_
  rw [ChunkBitmap.has_of_ge ((full entry mem).2 ▸ outside)]
  simp

/-- With room in the counters `replica_counts` returns, in either build profile. -/
theorem replicaCounts_of_fits (profile : Profile) (layout : Layout String NodeState)
    (fits : ∀ i, job.replicaCount i < 2 ^ 32) :
    job.replicaCounts profile layout =
      .ok ((List.range job.manifest.chunkCount.toNat).map fun i => UInt32.ofNat (job.holders i)) := by
  have room : ¬ (profile = .debug ∧
      ∃ i < job.manifest.chunkCount.toNat, ¬ job.holders i < 2 ^ 32) := by
    rintro ⟨_, i, below, exceeds⟩
    have roundTrip : (UInt32.ofNat i).toNat = i :=
      ChunkBitmap.toNat_of_mem_range (List.mem_range.mpr below)
    have counted := holders_eq_replicaCount full (i := .ofNat i)
      (UInt32.lt_iff_toNat_lt.mpr (roundTrip.symm ▸ below))
    rw [roundTrip] at counted
    exact exceeds (counted ▸ fits _)
  rw [replicaCounts_eq full, if_neg room]

/-- Each counter is the number of holders of its chunk, and zero behind the last one. -/
theorem replicaCounts_getD (fits : ∀ i, job.replicaCount i < 2 ^ 32) (i : UInt32) :
    (((List.range job.manifest.chunkCount.toNat).map fun i => UInt32.ofNat (job.holders i)).getD
      i.toNat 0).toNat = job.replicaCount i := by
  by_cases below : i < job.manifest.chunkCount
  · have inside : i.toNat < job.manifest.chunkCount.toNat := UInt32.lt_iff_toNat_lt.mp below
    have counted := holders_eq_replicaCount full below
    simp only [List.getD_eq_getElem?_getD, List.getElem?_map, List.getElem?_range inside,
      Option.map_some, Option.getD_some, counted]
    exact UInt32.toNat_ofNat_of_lt (fits i)
  · have outside := UInt32.not_lt.mp below
    have noCounter : job.manifest.chunkCount.toNat ≤ i.toNat := UInt32.le_iff_toNat_le.mp outside
    rw [replicaCount_of_ge full outside]
    simp [List.getD_eq_getElem?_getD, noCounter]

end Counts

/-! ### Holders and candidates -/

private theorem countP_split {α : Type} (p q : α → Bool) (l : List α) :
    l.countP p = l.countP (fun a => !q a && p a) + l.countP fun a => q a && p a := by
  rw [List.countP_eq_countP_filter_add l p q, List.countP_filter, List.countP_filter, Nat.add_comm]
  simp only [Bool.and_comm]

/-- The holders of a chunk are the candidates for a requester and, if it has the chunk, itself. -/
theorem replicaCount_eq_eligibleCount {job : Job}
    (keyed : ∀ entry ∈ job.nodes.entries, entry.2.nodeId = entry.1) (requesterId : String)
    (i : UInt32) :
    job.replicaCount i = Scheduler.eligibleCount job requesterId i +
      (job.registeredHolder requesterId i).toNat := by
  have own := ShardedMap.countP_key job.nodes requesterId fun state =>
    decide (state.bitmap.has i = .ok true)
  rw [replicaCount, countP_split _ (fun entry => decide (entry.1 = requesterId)), own,
    Scheduler.eligibleCount, registeredHolder]
  congr 1
  refine List.countP_congr fun entry mem => ?_
  rw [← keyed entry mem, decide_eq_true_iff, Scheduler.Eligible]
  simp

/-! ### Double counting -/

private theorem sum_toNat {α : Type} (f : α → Bool) (l : List α) :
    (l.map fun a => (f a).toNat).sum = l.countP f := by
  induction l with
  | nil => rfl
  | cons a l ih =>
      rw [List.map_cons, List.sum_cons, ih, List.countP_cons]
      cases f a <;> simp [Nat.add_comm]

/-- Counting the holders of each chunk counts the chunks of each node. -/
theorem sum_holdersIn (n : Nat) (entries : List (String × NodeState)) :
    ((List.range n).map (holdersIn entries)).sum =
      (entries.map fun entry => (List.range n).countP entry.2.bitmap.bits.bit).sum := by
  induction entries with
  | nil =>
      have nobody : holdersIn [] = fun _ => 0 := rfl
      simp [nobody]
  | cons entry entries ih =>
      rw [List.map_cons, List.sum_cons, ← ih, ← sum_toNat, ← List.sum_map_add]
      simp only [← holdersIn_cons]

theorem sum_holders {job : Job} (full : ∀ entry ∈ job.nodes.entries, entry.2.bitmap.Full ∧
    entry.2.bitmap.chunkCount = job.manifest.chunkCount) :
    ((List.range job.manifest.chunkCount.toNat).map job.holders).sum =
      (job.nodes.entries.map fun entry => entry.2.bitmap.completedCount.toNat).sum := by
  have counted : ∀ entry ∈ job.nodes.entries,
      (List.range job.manifest.chunkCount.toNat).countP entry.2.bitmap.bits.bit =
        entry.2.bitmap.completedCount.toNat := by
    intro entry mem
    obtain ⟨isFull, count⟩ := full entry mem
    rw [ChunkBitmap.completedCount, entry.2.bitmap.counted, BitBuffer.countOnes, BitBuffer.toList,
      List.count, List.countP_map, isFull, count]
    exact List.countP_congr fun i _ => by simp
  rw [← List.map_congr_left counted, ← sum_holdersIn]
  rfl

end Job

/-! ### The rarity order -/

/-- The rarer chunk stands first. -/
abbrev ByRarity (a b : UInt32 × UInt32) : Prop := a.2 ≤ b.2

instance : Std.Total ByRarity where
  total a b := UInt32.le_total a.2 b.2

instance : IsTrans (UInt32 × UInt32) ByRarity where
  trans _ _ _ ab bc := UInt32.le_trans ab bc

/-- Elements of one rank are those with one count. -/
theorem filter_count_of_stableSorted {ranked : List (UInt32 × UInt32)} {missing : List UInt32}
    {count : UInt32 → UInt32}
    (stable : StableSorted ByRarity (missing.map fun i => (i, count i)) ranked) (c : UInt32) :
    (ranked.filter fun entry => entry.2 = c).map Prod.fst = missing.filter fun i => count i = c := by
  have tied : ∀ entries : List (UInt32 × UInt32),
      entries.filter (fun y => ByRarity (0, c) y ∧ ByRarity y (0, c)) =
        entries.filter fun y => y.2 = c := by
    intro entries
    refine List.filter_congr fun y _ => decide_eq_decide.mpr ?_
    constructor
    · rintro ⟨above, below⟩
      exact UInt32.le_antisymm below above
    · rintro rfl
      exact ⟨UInt32.le_refl _, UInt32.le_refl _⟩
  rw [← tied, stable.ties, tied, List.filter_map, List.map_map]
  exact List.map_id _

theorem Scheduler.rarityOrder_stable {profile : Profile} {layout : Layout String NodeState}
    {job : Job} {counts : List UInt32} (counted : job.replicaCounts profile layout = .ok counts)
    (missing : List UInt32) :
    ∃ ranked, rarityOrder profile layout job missing = .ok ranked ∧
      StableSorted ByRarity (missing.map fun i => (i, counts.getD i.toNat 0)) ranked := by
  refine ⟨_, ?_, stableSorted_insertionSort ByRarity _⟩
  simp only [rarityOrder, counted, bind, Except.bind, pure, Except.pure]

/-! ### The three counts -/

/-- On bitmaps with a bit for each chunk, and fewer than `2 ^ 32` holders a chunk, `replica_counts`
counts the holders: as many as an uncut candidate list has, plus the requester if it is one, and in
total as many as the cached counters say. `rarity_order` re-orders its argument by these counts,
stably. -/
theorem Job.replica_counts_agree (profile : Profile) (layout : Layout String NodeState) {job : Job}
    (full : ∀ entry ∈ job.nodes.entries, entry.2.bitmap.Full ∧
      entry.2.bitmap.chunkCount = job.manifest.chunkCount)
    (fits : ∀ i, job.replicaCount i < 2 ^ 32) :
    ∃ counts, job.replicaCounts profile layout = .ok counts ∧
      counts.length = job.manifest.chunkCount.toNat ∧
      (∀ i, (counts.getD i.toNat 0).toNat = job.replicaCount i) ∧
      ((∀ entry ∈ job.nodes.entries, entry.2.nodeId = entry.1) →
        ∀ (requesterId : String) (i : UInt32) (topN : UInt64),
          job.nodes.entries.length ≤ topN.toNat →
          ∃ peers, Scheduler.rarityFirst layout job requesterId i topN = .ok peers ∧
            job.replicaCount i = peers.length + (job.registeredHolder requesterId i).toNat) ∧
      (counts.map UInt32.toNat).sum =
        (job.nodes.entries.map fun entry => entry.2.bitmap.completedCount.toNat).sum ∧
      ∀ missing : List UInt32, ∃ ranked,
        Scheduler.rarityOrder profile layout job missing = .ok ranked ∧
        ranked.Perm (missing.map fun i => (i, counts.getD i.toNat 0)) ∧
        ranked.Pairwise (fun a b => a.2 ≤ b.2) ∧
        ∀ c, (ranked.filter fun entry => entry.2 = c).map Prod.fst =
          missing.filter fun i => counts.getD i.toNat 0 = c := by
  have counted := replicaCounts_of_fits full profile layout fits
  have looked := replicaCounts_getD full fits
  refine ⟨_, counted, by simp, looked, ?_, ?_, ?_⟩
  · intro keyed requesterId i topN enough
    have found := Scheduler.holders_of_full layout (fun entry mem => (full entry mem).1)
      requesterId i
    refine ⟨_, by rw [Scheduler.rarityFirst_eq, found]; rfl, ?_⟩
    have all := Scheduler.length_holders found
    have few : Scheduler.eligibleCount job requesterId i ≤ topN.toNat :=
      Nat.le_trans List.countP_le_length enough
    rw [replicaCount_eq_eligibleCount keyed requesterId i, List.length_take,
      Scheduler.sortByBandwidth, List.length_insertionSort, List.length_map, all,
      Nat.min_eq_right few]
  · rw [List.map_map, ← sum_holders full]
    congr 1
    refine List.map_congr_left fun k mem => ?_
    have roundTrip := ChunkBitmap.toNat_of_mem_range mem
    have below : UInt32.ofNat k < job.manifest.chunkCount := by
      rw [UInt32.lt_iff_toNat_lt, roundTrip]
      exact List.mem_range.mp mem
    have here := holders_eq_replicaCount full below
    rw [roundTrip] at here
    exact UInt32.toNat_ofNat_of_lt (here ▸ fits _)
  · intro missing
    obtain ⟨ranked, returned, stable⟩ := Scheduler.rarityOrder_stable counted missing
    exact ⟨ranked, returned, stable.perm, stable.sorted, filter_count_of_stableSorted stable⟩

/-- Two nodes with the first of two chunks. -/
theorem Job.replica_counts_agree_two :
    (∀ entry ∈ twoHolders.nodes.entries, entry.2.bitmap.Full ∧
        entry.2.bitmap.chunkCount = twoHolders.manifest.chunkCount) ∧
      (∀ i, twoHolders.replicaCount i < 2 ^ 32) ∧
      ∃ counts, twoHolders.replicaCounts .debug (.byLength NodeState) = .ok counts := by
  have full : ∀ entry ∈ twoHolders.nodes.entries, entry.2.bitmap.Full ∧
      entry.2.bitmap.chunkCount = twoHolders.manifest.chunkCount := by decide
  have fits : ∀ i, twoHolders.replicaCount i < 2 ^ 32 := fun i =>
    Nat.lt_of_le_of_lt List.countP_le_length (by decide)
  obtain ⟨counts, counted, _⟩ :=
    replica_counts_agree .debug (.byLength NodeState) full fits
  exact ⟨full, fits, counts, counted⟩

/-! ### More holders than a counter has values -/

/-- Node `k` of a crowd, with the only chunk of its job. -/
def crowdedEntry (k : Nat) : String × NodeState :=
  let nodeId := String.ofList (paddedDecimal 1 k)
  (nodeId,
    { nodeId, rackId := "r", peerAddr := nodeId ++ ":9000", bitmap := .fromBytes [0x80] 1,
      uploadBwMbps := 10, lastSeen := 0 })

/-- A job of one chunk that `count` nodes have. -/
def crowdedJob (count : Nat) : Job :=
  { Job.new "job" ⟨"m", "1", 1, 1, 1, [""]⟩ .rarityFirst with
    nodes :=
      { entries := (List.range count).map crowdedEntry
        nodup := by
          rw [List.map_map]
          refine List.nodup_range.map fun a b same => ?_
          exact paddedDecimal_injective 1 (String.ofList_injective same) } }

theorem crowdedJob_full (count : Nat) : ∀ entry ∈ (crowdedJob count).nodes.entries,
    entry.2.bitmap.Full ∧ entry.2.bitmap.chunkCount = (crowdedJob count).manifest.chunkCount := by
  intro entry mem
  obtain ⟨k, _, rfl⟩ := List.mem_map.mp mem
  have full : (ChunkBitmap.fromBytes [0x80] 1).Full := by decide
  exact ⟨full, rfl⟩

theorem crowdedJob_holders (count : Nat) : (crowdedJob count).holders 0 = count := by
  have raised : (ChunkBitmap.fromBytes [0x80] 1).bits.bit 0 = true := by decide
  have all : ((List.range count).map crowdedEntry).filter
      (fun entry => entry.2.bitmap.bits.bit 0) = (List.range count).map crowdedEntry := by
    refine List.filter_eq_self.mpr fun entry mem => ?_
    obtain ⟨k, _, rfl⟩ := List.mem_map.mp mem
    exact raised
  unfold Job.holders holdersIn
  rw [crowdedJob, all, List.length_map, List.length_range]

/-- The only counter of the crowd, in a build that does not check it. -/
theorem crowdedJob_replicaCounts (layout : Layout String NodeState) (count : Nat) :
    (crowdedJob count).replicaCounts .release layout = .ok [UInt32.ofNat count] := by
  rw [Job.replicaCounts_eq (crowdedJob_full count), if_neg fun stopped => by cases stopped.1]
  have one : (crowdedJob count).manifest.chunkCount.toNat = 1 := rfl
  rw [one, List.range_one, List.map_cons, List.map_nil, crowdedJob_holders]

/-- A debug build stops at the holder that the counter has no value for. -/
theorem crowdedJob_panics (layout : Layout String NodeState) {count : Nat}
    (many : ¬ count < 2 ^ 32) :
    (crowdedJob count).replicaCounts .debug layout = .error .arithmeticOverflow := by
  have one : (crowdedJob count).manifest.chunkCount.toNat = 1 := rfl
  rw [Job.replicaCounts_eq (crowdedJob_full count), if_pos]
  exact ⟨rfl, 0, by rw [one]; exact Nat.one_pos, by rwa [crowdedJob_holders]⟩

/-- With `2 ^ 32` holders of one chunk the counter says that nobody has it, or panics. -/
theorem Job.replica_counts_wrap :
    (∀ entry ∈ (crowdedJob (2 ^ 32)).nodes.entries, entry.2.bitmap.Full ∧
        entry.2.bitmap.chunkCount = (crowdedJob (2 ^ 32)).manifest.chunkCount) ∧
      (crowdedJob (2 ^ 32)).replicaCount 0 = 2 ^ 32 ∧
      (crowdedJob (2 ^ 32)).replicaCounts .release (.byLength NodeState) = .ok [0] ∧
      (crowdedJob (2 ^ 32)).replicaCounts .debug (.byLength NodeState) =
        .error .arithmeticOverflow := by
  have full := crowdedJob_full (2 ^ 32)
  refine ⟨full, ?_, crowdedJob_replicaCounts _ (2 ^ 32), crowdedJob_panics _ (Nat.lt_irrefl _)⟩
  have counted := holders_eq_replicaCount full (i := 0) Nat.one_pos
  exact counted.symm.trans (crowdedJob_holders (2 ^ 32))

end ModelDistribution
