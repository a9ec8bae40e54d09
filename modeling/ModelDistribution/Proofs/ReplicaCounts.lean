/-
Module: ModelDistribution.Proofs.ReplicaCounts
Layer: Proofs
Purpose: What `Job::replica_counts` computes. On full bitmaps it never leaves a bound; each counter
  is the number of registered holders of its chunk, and a debug build panics exactly when one of
  these numbers does not fit the 32-bit counter. A short bitmap always makes it panic.
Imports: ModelDistribution.Tracker.Operations
Trusted boundary: none
Main exports: Job.holders, Job.replicaCounts_eq, Job.replicaCounts_returns_iff,
  Job.replicaCounts_panics
-/
import ModelDistribution.Tracker.Operations

namespace ModelDistribution

open Foundation

/-- How many entries of a list have the bit of chunk `i`. -/
def holdersIn (entries : List (String × NodeState)) (i : Nat) : Nat :=
  (entries.filter fun entry => entry.2.bitmap.bits.bit i).length

/-- How many registered nodes have the bit of chunk `i`. -/
def Job.holders (job : Job) (i : Nat) : Nat := holdersIn job.nodes.entries i

/-- No counter of the job leaves 32 bits; only a debug build checks. -/
def Job.CountersFit (profile : Profile) (job : Job) : Prop :=
  profile = .debug → ∀ i < job.manifest.chunkCount.toNat, job.holders i < 2 ^ 32

theorem holdersIn_cons (entry : String × NodeState) (entries : List (String × NodeState)) (i : Nat) :
    holdersIn (entry :: entries) i =
      (entry.2.bitmap.bits.bit i).toNat + holdersIn entries i := by
  unfold holdersIn
  cases raised : entry.2.bitmap.bits.bit i with
  | true => simp [raised, Nat.add_comm]
  | false => simp [raised]

namespace Job

/-- A counter that is at its end panics in a debug build and otherwise goes up. -/
theorem bumpCount_eq (profile : Profile) (count : UInt32) :
    bumpCount profile count =
      if profile = .debug ∧ ¬ count.toNat + 1 < 2 ^ 32 then .error .arithmeticOverflow
      else .ok (count + 1) := by
  unfold bumpCount
  by_cases fits : count.toNat + 1 < 2 ^ 32
  · rw [decide_eq_true fits, if_neg fun raised => raised.2 fits]
    cases profile <;> rfl
  · rw [decide_eq_false fits]
    cases profile with
    | debug => rw [if_pos ⟨rfl, fits⟩]
    | release => rw [if_neg fun raised => Profile.noConfusion raised.1]

private theorem map_range_set {n k : Nat} (f : Nat → UInt32) (value : UInt32) :
    ((List.range n).map f).set k value =
      (List.range n).map fun i => if i = k then value else f i := by
  apply List.ext_getElem
  · simp
  · intro i _ _
    by_cases same : k = i
    · simp [same]
    · have other : i ≠ k := fun e => same e.symm
      simp [same, other]

/-- One round of the inner loop on a full bitmap. -/
theorem countReplica_eq {profile : Profile} {bitmap : ChunkBitmap} {n k : Nat}
    (full : bitmap.Full) (count : bitmap.chunkCount.toNat = n) (below : k < n) (f : Nat → UInt32) :
    countReplica profile bitmap ((List.range n).map f) k =
      if bitmap.bits.bit k = true then
        (bumpCount profile (f k)).map fun bumped =>
          (List.range n).map fun i => if i = k then bumped else f i
      else .ok ((List.range n).map f) := by
  have index : (UInt32.ofNat k).toNat = k :=
    UInt32.toNat_ofNat_of_lt (Nat.lt_trans (count ▸ below) bitmap.chunkCount.toNat_lt)
  have inside : (UInt32.ofNat k).toNat < bitmap.bits.len := by
    rw [index, full, count]
    exact below
  have present : bitmap.has (UInt32.ofNat k) = .ok (bitmap.bits.bit k) := by
    rw [ChunkBitmap.has_of_lt_len inside, index]
  have looked : indexList ((List.range n).map f) k = .ok (f k) := by
    rw [indexList_of_lt (by simpa using below)]
    simp
  cases raised : bitmap.bits.bit k with
  | false => simp [countReplica, present, raised, bind, Except.bind, pure, Except.pure]
  | true =>
      cases bumped : bumpCount profile (f k) with
      | error panic =>
          simp [countReplica, present, raised, looked, bumped, bind, Except.bind, Except.map]
      | ok value =>
          simp [countReplica, present, raised, looked, bumped, bind, Except.bind, pure,
            Except.pure, Except.map, map_range_set]

/-- The inner loop over the first `k` chunks: it raises the counters of the chunks that the node
has, and a debug build stops at the first counter that is full. -/
theorem countChunks_eq {profile : Profile} {bitmap : ChunkBitmap} {n : Nat} (full : bitmap.Full)
    (count : bitmap.chunkCount.toNat = n) (f : Nat → UInt32) (k : Nat) (bounded : k ≤ n) :
    (List.range k).foldlM (countReplica profile bitmap) ((List.range n).map f) =
      if profile = .debug ∧ ∃ i < k, bitmap.bits.bit i = true ∧ ¬ (f i).toNat + 1 < 2 ^ 32 then
        .error .arithmeticOverflow
      else
        .ok ((List.range n).map fun i =>
          if i < k ∧ bitmap.bits.bit i = true then f i + 1 else f i) := by
  induction k with
  | zero => simp [pure, Except.pure]
  | succ k ih =>
      have stops : (profile = .debug ∧
            ∃ i < k + 1, bitmap.bits.bit i = true ∧ ¬ (f i).toNat + 1 < 2 ^ 32) ↔
          (profile = .debug ∧ ∃ i < k, bitmap.bits.bit i = true ∧ ¬ (f i).toNat + 1 < 2 ^ 32) ∨
            (profile = .debug ∧ bitmap.bits.bit k = true ∧ ¬ (f k).toNat + 1 < 2 ^ 32) := by
        rw [Nat.exists_lt_succ_right, and_or_left]
      rw [List.range_succ, List.foldlM_append, ih (by omega)]
      by_cases stopped : profile = .debug ∧
          ∃ i < k, bitmap.bits.bit i = true ∧ ¬ (f i).toNat + 1 < 2 ^ 32
      · rw [if_pos stopped, if_pos (stops.mpr (.inl stopped))]
        rfl
      · rw [if_neg stopped]
        simp only [bind, Except.bind, List.foldlM_cons, List.foldlM_nil]
        rw [countReplica_eq full count (by omega)]
        simp only [Nat.lt_irrefl, false_and, if_false]
        cases raised : bitmap.bits.bit k with
        | false =>
            have notNow := fun now => (stops.mp now).elim stopped fun here => by
              rw [raised] at here
              cases here.2.1
            rw [if_neg notNow]
            simp only [Bool.false_eq_true, if_false, pure, Except.pure, Except.ok.injEq]
            apply List.map_congr_left
            intro i _
            grind
        | true =>
            simp only [if_true, bumpCount_eq]
            by_cases filled : profile = .debug ∧ ¬ (f k).toNat + 1 < 2 ^ 32
            · rw [if_pos filled, if_pos (stops.mpr (.inr ⟨filled.1, raised, filled.2⟩))]
              rfl
            · have notNow := fun now => (stops.mp now).elim stopped fun here =>
                filled ⟨here.1, here.2.2⟩
              rw [if_neg filled, if_neg notNow]
              simp only [Except.map, pure, Except.pure, Except.ok.injEq]
              apply List.map_congr_left
              intro i _
              grind

/-- With room a counter goes up by what the node has. -/
theorem toNat_bumped {raised : Bool} {count : UInt32}
    (room : raised = true → count.toNat + 1 < 2 ^ 32) :
    (if raised = true then count + 1 else count).toNat = count.toNat + raised.toNat := by
  cases raised with
  | false => rfl
  | true =>
      rw [if_pos rfl, UInt32.toNat_add, UInt32.toNat_one, Bool.toNat_true]
      exact Nat.mod_eq_of_lt (room rfl)

/-- Counting on from a counter is adding to it. -/
theorem bumped_add_ofNat (raised : Bool) (count : UInt32) (others : Nat) :
    (if raised = true then count + 1 else count) + UInt32.ofNat others =
      count + UInt32.ofNat (raised.toNat + others) := by
  cases raised with
  | false => simp
  | true =>
      rw [if_pos rfl, Bool.toNat_true, UInt32.ofNat_add, UInt32.add_assoc]
      rfl

/-- The whole loop over a list of nodes with full bitmaps. -/
theorem countNodes_eq {profile : Profile} {n : Nat} :
    ∀ {entries : List (String × NodeState)},
      (∀ entry ∈ entries, entry.2.bitmap.Full ∧ entry.2.bitmap.chunkCount.toNat = n) →
      ∀ f : Nat → UInt32,
      entries.foldlM
        (fun counts entry => (List.range n).foldlM (countReplica profile entry.2.bitmap) counts)
        ((List.range n).map f) =
      if profile = .debug ∧ ∃ i < n, ¬ (f i).toNat + holdersIn entries i < 2 ^ 32 then
        .error .arithmeticOverflow
      else .ok ((List.range n).map fun i => f i + UInt32.ofNat (holdersIn entries i))
  | [], _, f => by
      have fits : ¬ (profile = .debug ∧ ∃ i < n, ¬ (f i).toNat + holdersIn [] i < 2 ^ 32) := by
        rintro ⟨_, i, _, exceeds⟩
        exact exceeds (by simpa [holdersIn] using (f i).toNat_lt)
      rw [if_neg fits]
      simp [holdersIn, pure, Except.pure]
  | entry :: entries, fullCount, f => by
      obtain ⟨full, count⟩ := fullCount entry (by simp)
      rw [List.foldlM_cons, countChunks_eq full count f n (Nat.le_refl n)]
      by_cases stopped : profile = .debug ∧
          ∃ i < n, entry.2.bitmap.bits.bit i = true ∧ ¬ (f i).toNat + 1 < 2 ^ 32
      · obtain ⟨debug, i, before, raised, filled⟩ := stopped
        have exceeds : ¬ (f i).toNat + holdersIn (entry :: entries) i < 2 ^ 32 := by
          rw [holdersIn_cons, raised]
          simp only [Bool.toNat_true]
          omega
        rw [if_pos ⟨debug, i, before, raised, filled⟩, if_pos ⟨debug, i, before, exceeds⟩]
        rfl
      · rw [if_neg stopped]
        have inRange : (List.range n).map (fun i =>
              if i < n ∧ entry.2.bitmap.bits.bit i = true then f i + 1 else f i) =
            (List.range n).map fun i =>
              if entry.2.bitmap.bits.bit i = true then f i + 1 else f i :=
          List.map_congr_left fun i mem => by simp only [List.mem_range.mp mem, true_and]
        simp only [bind, Except.bind, inRange]
        rw [countNodes_eq (fun other mem => fullCount other (List.mem_cons_of_mem entry mem))]
        -- The counter of chunk `i` after this node is exact whenever the build checks it.
        have bumped : profile = .debug → ∀ i < n,
            (if entry.2.bitmap.bits.bit i = true then f i + 1 else f i).toNat +
                holdersIn entries i = (f i).toNat + holdersIn (entry :: entries) i := by
          intro debug i before
          rw [holdersIn_cons, toNat_bumped fun raised => by_contra fun filled =>
            stopped ⟨debug, i, before, raised, filled⟩, Nat.add_assoc]
        have sameCondition : (profile = .debug ∧ ∃ i < n,
              ¬ (if entry.2.bitmap.bits.bit i = true then f i + 1 else f i).toNat +
                holdersIn entries i < 2 ^ 32) ↔
            (profile = .debug ∧ ∃ i < n,
              ¬ (f i).toNat + holdersIn (entry :: entries) i < 2 ^ 32) := by
          refine and_congr_right fun debug => exists_congr fun i => and_congr_right fun before => ?_
          rw [bumped debug i before]
        simp only [sameCondition, bumped_add_ofNat, holdersIn_cons]

theorem holdersIn_perm {left right : List (String × NodeState)} (same : left.Perm right)
    (i : Nat) : holdersIn left i = holdersIn right i :=
  (same.filter _).length_eq

section Counts

variable {profile : Profile} {layout : Layout String NodeState} {job : Job}

/-- On full bitmaps `replica_counts` is the number of holders of each chunk. -/
theorem replicaCounts_eq
    (full : ∀ entry ∈ job.nodes.entries, entry.2.bitmap.Full ∧
      entry.2.bitmap.chunkCount = job.manifest.chunkCount) :
    job.replicaCounts profile layout =
      if profile = .debug ∧ ∃ i < job.manifest.chunkCount.toNat, ¬ job.holders i < 2 ^ 32 then
        .error .arithmeticOverflow
      else
        .ok ((List.range job.manifest.chunkCount.toNat).map fun i =>
          UInt32.ofNat (job.holders i)) := by
  have started : List.replicate job.manifest.chunkCount.toNat (0 : UInt32) =
      (List.range job.manifest.chunkCount.toNat).map fun _ => 0 := by
    rw [List.map_const', List.length_range]
  have sameHolders : ∀ i, holdersIn (layout.iter job.nodes) i = job.holders i :=
    holdersIn_perm (layout.iter_perm job.nodes)
  rw [replicaCounts, started, countNodes_eq (fun entry mem => by
    obtain ⟨isFull, count⟩ := full entry (Layout.mem_iter.mp mem)
    exact ⟨isFull, by rw [count]⟩)]
  simp [sameHolders]

theorem replicaCounts_returns_iff
    (full : ∀ entry ∈ job.nodes.entries, entry.2.bitmap.Full ∧
      entry.2.bitmap.chunkCount = job.manifest.chunkCount) :
    (∃ counts, job.replicaCounts profile layout = .ok counts) ↔ job.CountersFit profile := by
  rw [replicaCounts_eq full]
  unfold CountersFit
  by_cases stopped : profile = .debug ∧
      ∃ i < job.manifest.chunkCount.toNat, ¬ job.holders i < 2 ^ 32
  · rw [if_pos stopped]
    obtain ⟨debug, i, below, exceeds⟩ := stopped
    simp only [reduceCtorEq, exists_false, false_iff]
    intro fits
    exact exceeds (fits debug i below)
  · rw [if_neg stopped]
    simp only [Except.ok.injEq, exists_eq', true_iff]
    intro debug i below
    by_contra exceeds
    exact stopped ⟨debug, i, below, exceeds⟩

/-- A bitmap that is short of bits makes `replica_counts` panic. -/
theorem replicaCounts_panics (profile : Profile) (layout : Layout String NodeState)
    {entry : String × NodeState} (mem : entry ∈ job.nodes.entries)
    (short : entry.2.bitmap.bits.len < job.manifest.chunkCount.toNat)
    (count : entry.2.bitmap.chunkCount = job.manifest.chunkCount) :
    ∃ panic, job.replicaCounts profile layout = .error panic := by
  have index : (UInt32.ofNat entry.2.bitmap.bits.len).toNat = entry.2.bitmap.bits.len :=
    UInt32.toNat_ofNat_of_lt (Nat.lt_trans short job.manifest.chunkCount.toNat_lt)
  have outside : entry.2.bitmap.has (UInt32.ofNat entry.2.bitmap.bits.len) =
      .error .indexOutOfBounds := by
    apply ChunkBitmap.has_of_len_le
    · exact Nat.le_of_eq index.symm
    · rw [count, UInt32.lt_iff_toNat_lt, index]
      exact short
  apply foldlM_panics (Layout.mem_iter.mpr mem)
  intro counts
  apply foldlM_panics (List.mem_range.mpr short)
  intro counts
  refine ⟨.indexOutOfBounds, ?_⟩
  simp [countReplica, outside, bind, Except.bind]

end Counts

end Job

end ModelDistribution
