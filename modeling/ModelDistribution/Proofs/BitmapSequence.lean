/-
Module: ModelDistribution.Proofs.BitmapSequence
Layer: Proofs
Purpose: Bitmaps under sequences of `mark_complete`. Wherever a bitmap of enough bits comes from and
  whatever indices are marked on it, its bits, its counter and its chunk count stay in step; the
  answers and the final bitmap depend on which chunks were marked, not on the order.
Imports: ModelDistribution.ChunkBitmap, Mathlib.Data.List.Perm.Basic
Trusted boundary: none
Main exports: ChunkBitmap.markAll, ChunkBitmap.Origin, ChunkBitmap.Raised, ChunkBitmap.InStep,
  ChunkBitmap.markAll_raises, ChunkBitmap.Raised.perm, ChunkBitmap.marks_keep_inStep
-/
import ModelDistribution.ChunkBitmap
import Mathlib.Data.List.Perm.Basic

namespace ModelDistribution

open Foundation

namespace ChunkBitmap

/-- A sequence of `mark_complete` calls: what each of them answers, and the bitmap after the last. -/
def markAll (bitmap : ChunkBitmap) : List UInt32 → Checked (List Bool × ChunkBitmap)
  | [] => .ok ([], bitmap)
  | index :: rest => do
      let (fresh, marked) ← bitmap.markComplete index
      let (answers, final) ← marked.markAll rest
      return (fresh :: answers, final)

/-- Where a bitmap of `n` chunks comes from: `new`, or `from_bytes` on at least `n` bits. -/
inductive Origin (n : UInt32) : ChunkBitmap → Prop where
  | new : Origin n (.new n)
  | fromBytes (bytes : List UInt8) (enough : n.toNat ≤ 8 * bytes.length) :
      Origin n (.fromBytes bytes n)

theorem Origin.chunkCount {n : UInt32} {bitmap : ChunkBitmap} (origin : Origin n bitmap) :
    bitmap.chunkCount = n := by
  cases origin <;> rfl

theorem Origin.full {n : UInt32} {bitmap : ChunkBitmap} (origin : Origin n bitmap) :
    bitmap.Full := by
  cases origin with
  | new => exact full_new n
  | fromBytes bytes enough => exact full_fromBytes_iff.mpr enough

/-! ### What a sequence of calls raises -/

/-- `after` is `before` with the chunks of the calls raised, in place. -/
structure Raised (before : ChunkBitmap) (calls : List UInt32) (after : ChunkBitmap) : Prop where
  chunkCount : after.chunkCount = before.chunkCount
  len : after.bits.len = before.bits.len
  storage : after.bits.raw.length = before.bits.raw.length
  bit : ∀ j, after.bits.bit j = true ↔
    before.bits.bit j = true ∨ ∃ i ∈ calls, i < before.chunkCount ∧ i.toNat = j

theorem Raised.nil (bitmap : ChunkBitmap) : Raised bitmap [] bitmap where
  chunkCount := rfl
  len := rfl
  storage := rfl
  bit := by simp

theorem Raised.cons {before middle after : ChunkBitmap} {index : UInt32} {rest : List UInt32}
    (first : Raised before [index] middle) (others : Raised middle rest after) :
    Raised before (index :: rest) after where
  chunkCount := others.chunkCount.trans first.chunkCount
  len := others.len.trans first.len
  storage := others.storage.trans first.storage
  bit := by
    intro j
    rw [others.bit, first.bit, first.chunkCount]
    simp [or_assoc]

theorem Raised.full {before after : ChunkBitmap} {calls : List UInt32} (full : before.Full)
    (raised : Raised before calls after) : after.Full := by
  rw [Full, raised.len, raised.chunkCount, full]

/-- Only the set of chunks counts, so any order of the calls raises the same bits. -/
theorem Raised.perm {before after : ChunkBitmap} {calls reordered : List UInt32}
    (raised : Raised before calls after) (reorder : reordered.Perm calls) :
    Raised before reordered after where
  chunkCount := raised.chunkCount
  len := raised.len
  storage := raised.storage
  bit := by
    intro j
    rw [raised.bit]
    simp only [reorder.mem_iff]

/-- The raised bits determine the bitmap, counter included. -/
theorem Raised.unique {before a b : ChunkBitmap} {calls : List UInt32}
    (raisedA : Raised before calls a) (raisedB : Raised before calls b) : a = b := by
  have sameBits : a.bits = b.bits := by
    apply BitBuffer.ext_bit
    · exact raisedA.storage.trans raisedB.storage.symm
    · exact raisedA.len.trans raisedB.len.symm
    · intro j
      exact Bool.eq_iff_iff.mpr ((raisedA.bit j).trans (raisedB.bit j).symm)
  have sameComplete : a.complete = b.complete := by
    apply UInt32.toNat_inj.mp
    rw [a.counted, b.counted, sameBits]
  have sameCount : a.chunkCount = b.chunkCount := raisedA.chunkCount.trans raisedB.chunkCount.symm
  cases a
  cases b
  simp_all

/-- What one raised chunk changes about the lookups. -/
theorem Raised.has_eq {before after : ChunkBitmap} {index : UInt32} (full : before.Full)
    (raised : Raised before [index] after) (j : UInt32) :
    after.has j = if j = index then .ok (decide (index < before.chunkCount)) else before.has j := by
  rw [(raised.full full).has_eq, full.has_eq, raised.chunkCount]
  have bit : after.bits.bit j.toNat =
      (before.bits.bit j.toNat || decide (index < before.chunkCount ∧ index = j)) := by
    rw [Bool.eq_iff_iff, raised.bit]
    simp [UInt32.toNat_inj]
  rw [bit]
  by_cases same : j = index
  · subst same
    by_cases below : j < before.chunkCount <;> simp [below]
  · have other : index ≠ j := fun e => same e.symm
    simp [same, other]

/-- One call on a full bitmap returns and raises its chunk. -/
theorem markComplete_raises {bitmap : ChunkBitmap} (full : bitmap.Full) (index : UInt32) :
    ∃ fresh marked, bitmap.markComplete index = .ok (fresh, marked) ∧
      Raised bitmap [index] marked ∧
      (fresh = true ↔ index < bitmap.chunkCount ∧ bitmap.has index = .ok false) := by
  by_cases missing : index < bitmap.chunkCount ∧ bitmap.has index = .ok false
  · obtain ⟨below, absent⟩ := missing
    obtain ⟨marked, returned, updated, _, sameCount⟩ := markComplete_of_missing below absent
    have inside : index.toNat < bitmap.bits.len := full ▸ UInt32.lt_iff_toNat_lt.mp below
    obtain ⟨bits, updated', sameLen, changed⟩ := BitBuffer.set_of_lt inside
    have sameBits : marked.bits = bits := by
      rw [updated] at updated'
      injection updated'
    refine ⟨true, marked, returned, ⟨sameCount, ?_, BitBuffer.length_raw_of_set updated, ?_⟩,
      by simp [below, absent]⟩
    · rw [sameBits, sameLen]
    · intro j
      rw [sameBits, changed]
      simp [below, eq_comm (b := index.toNat)]
  · have held : bitmap.chunkCount ≤ index ∨ bitmap.has index = .ok true := by
      by_cases below : index < bitmap.chunkCount
      · rw [full.has_eq] at missing ⊢
        simp_all
      · exact .inl (UInt32.not_lt.mp below)
    refine ⟨false, bitmap, markComplete_of_held held, ⟨rfl, rfl, rfl, ?_⟩, by simp [missing]⟩
    intro j
    constructor
    · exact Or.inl
    · rintro (already | ⟨i, only, below, rfl⟩)
      · exact already
      · have here : i = index := by simpa using only
        subst here
        have present := held.resolve_left (UInt32.not_le.mpr below)
        rw [full.has_eq] at present
        simp_all

/-- A whole sequence returns, answers every call and raises the chunks of the calls. -/
theorem markAll_raises {bitmap : ChunkBitmap} (full : bitmap.Full) (calls : List UInt32) :
    ∃ answers final, bitmap.markAll calls = .ok (answers, final) ∧
      answers.length = calls.length ∧ Raised bitmap calls final := by
  induction calls generalizing bitmap with
  | nil => exact ⟨[], bitmap, rfl, rfl, .nil bitmap⟩
  | cons index rest ih =>
      obtain ⟨fresh, marked, returned, first, _⟩ := markComplete_raises full index
      obtain ⟨answers, final, looped, sameLength, others⟩ := ih (first.full full)
      refine ⟨fresh :: answers, final, ?_, by simp [sameLength], first.cons others⟩
      simp [markAll, returned, looped, bind, Except.bind, pure, Except.pure]

/-- A chunk is reported as new at most once, and never when it was there before. -/
theorem count_fresh_le {bitmap final : ChunkBitmap} {calls : List UInt32} {answers : List Bool}
    (full : bitmap.Full) (returned : bitmap.markAll calls = .ok (answers, final)) (i : UInt32) :
    (calls.zip answers).count (i, true) + (bitmap.has i).holds.toNat ≤ 1 := by
  induction calls generalizing bitmap answers with
  | nil => simpa using Bool.toNat_le _
  | cons index rest ih =>
      obtain ⟨fresh, marked, marks, first, freshIff⟩ := markComplete_raises full index
      obtain ⟨later, final', looped, _, _⟩ := markAll_raises (first.full full) rest
      simp only [markAll, marks, looped, bind, Except.bind, pure, Except.pure,
        Except.ok.injEq, Prod.mk.injEq] at returned
      obtain ⟨rfl, rfl⟩ := returned
      have bounded := ih (first.full full) looped
      rw [List.zip_cons_cons, List.count_cons]
      by_cases same : i = index
      · subst same
        rw [first.has_eq full, if_pos rfl] at bounded
        cases fresh with
        | true =>
            obtain ⟨below, absent⟩ := freshIff.mp rfl
            simpa [absent, below, Checked.holds] using bounded
        | false =>
            by_cases present : bitmap.has i = .ok true
            · have below := has_lt present
              simpa [present, below, Checked.holds] using bounded
            · have absent : (bitmap.has i).holds = false := by
                rw [full.has_eq] at present ⊢
                simpa [Checked.holds] using present
              simp only [absent, Bool.toNat_false]
              simp
              omega
      · have other : ¬ (index, fresh) = (i, true) := by
          intro e
          exact same (Prod.mk.inj e).1.symm
        rw [first.has_eq full, if_neg same] at bounded
        simpa [other] using bounded

/-! ### The three representations -/

/-- The chunk indices below `n` in order. -/
def indices (n : UInt32) : List UInt32 := (List.range n.toNat).map UInt32.ofNat

theorem mem_indices {n i : UInt32} : i ∈ indices n ↔ i < n := by
  rw [UInt32.lt_iff_toNat_lt]
  constructor
  · intro mem
    obtain ⟨k, inside, rfl⟩ := List.mem_map.mp mem
    rw [toNat_of_mem_range inside]
    exact List.mem_range.mp inside
  · intro below
    exact List.mem_map.mpr ⟨i.toNat, List.mem_range.mpr below, UInt32.ofNat_toNat⟩

theorem length_indices (n : UInt32) : (indices n).length = n.toNat := by
  simp [indices]

theorem pairwise_indices (n : UInt32) : (indices n).Pairwise (· < ·) := by
  rw [indices, List.pairwise_map]
  refine List.Pairwise.imp_of_mem ?_ List.pairwise_lt_range
  intro a b ha hb ordered
  rw [UInt32.lt_iff_toNat_lt, toNat_of_mem_range ha, toNat_of_mem_range hb]
  exact ordered

/-- The bits, the counter and the chunk count of a bitmap of `n` chunks say the same. -/
structure InStep (n : UInt32) (bitmap : ChunkBitmap) : Prop where
  /-- No lookup panics. -/
  answers : ∀ i, ∃ held, bitmap.has i = .ok held
  counted : bitmap.completedCount.toNat =
    ((indices n).filter fun i => (bitmap.has i).holds).length
  bounded : bitmap.completedCount ≤ n
  increasing : bitmap.missing.Pairwise (· < ·)
  absent : ∀ i, i ∈ bitmap.missing ↔ i < n ∧ bitmap.has i = .ok false
  partitioned : bitmap.completedCount.toNat + bitmap.missing.length = n.toNat
  complete_iff_none : bitmap.isComplete = true ↔ bitmap.missing = []
  complete_iff_all : bitmap.isComplete = true ↔ ∀ i < n, bitmap.has i = .ok true

/-- What a full bitmap misses, read off its lookups. -/
theorem missing_eq_filter {bitmap : ChunkBitmap} (full : bitmap.Full) :
    bitmap.missing = (indices bitmap.chunkCount).filter fun i => !(bitmap.has i).holds := by
  rw [missing_eq, indices, List.filter_map, full]
  congr 1
  refine List.filter_congr fun k inside => ?_
  have roundTrip := toNat_of_mem_range inside
  have below : UInt32.ofNat k < bitmap.chunkCount := by
    rw [UInt32.lt_iff_toNat_lt, roundTrip]
    exact List.mem_range.mp inside
  simp [full.has_eq, below, roundTrip, Checked.holds]

/-- The counter of a full bitmap, read off its lookups. -/
theorem completedCount_eq_filter {bitmap : ChunkBitmap} (full : bitmap.Full) :
    bitmap.completedCount.toNat =
      ((indices bitmap.chunkCount).filter fun i => (bitmap.has i).holds).length := by
  rw [completedCount, bitmap.counted, BitBuffer.countOnes, BitBuffer.toList, List.count,
    List.countP_map, indices, List.filter_map, List.length_map, full, ← List.countP_eq_length_filter]
  refine List.countP_congr fun k inside => ?_
  have roundTrip := toNat_of_mem_range inside
  have below : UInt32.ofNat k < bitmap.chunkCount := by
    rw [UInt32.lt_iff_toNat_lt, roundTrip]
    exact List.mem_range.mp inside
  simp [full.has_eq, below, roundTrip, Checked.holds]

theorem completedCount_add_missing {bitmap : ChunkBitmap} (full : bitmap.Full) :
    bitmap.completedCount.toNat + bitmap.missing.length = bitmap.chunkCount.toNat := by
  have split := List.length_eq_length_filter_add (l := indices bitmap.chunkCount)
    fun i => (bitmap.has i).holds
  rw [completedCount_eq_filter full, missing_eq_filter full, ← length_indices, split]

theorem Full.inStep {bitmap : ChunkBitmap} (full : bitmap.Full) :
    InStep bitmap.chunkCount bitmap := by
  have partitioned := completedCount_add_missing full
  exact
    { answers := fun i => ⟨_, full.has_eq i⟩
      counted := completedCount_eq_filter full
      bounded := by
        rw [UInt32.le_iff_toNat_le]
        omega
      increasing := by
        rw [missing_eq_filter full]
        exact (pairwise_indices _).filter _
      absent := fun _ => mem_missing
      partitioned := partitioned
      complete_iff_none := by
        rw [isComplete, decide_eq_true_iff, ← UInt32.toNat_inj, ← List.length_eq_zero_iff]
        unfold completedCount at partitioned
        omega
      complete_iff_all := isComplete_iff }

/-! ### The representation invariant over a whole sequence -/

/-- Every sequence of marks on a bitmap of `n` chunks returns and leaves its representations in step.
The next mark is fresh exactly on a missing chunk and touches no other; over the sequence no chunk is
fresh twice, and in any other order the calls end in the same bitmap. -/
theorem marks_keep_inStep {n : UInt32} {bitmap : ChunkBitmap} (origin : Origin n bitmap)
    (calls : List UInt32) :
    ∃ answers final, bitmap.markAll calls = .ok (answers, final) ∧
      answers.length = calls.length ∧ InStep n final ∧
      (∀ i, ∃ fresh marked, final.markComplete i = .ok (fresh, marked) ∧
        (fresh = true ↔ i < n ∧ final.has i = .ok false) ∧
        marked.has i = .ok (decide (i < n)) ∧ ∀ j, j ≠ i → marked.has j = final.has j) ∧
      (∀ i, (calls.zip answers).count (i, true) ≤ 1) ∧
      ∀ reordered, reordered.Perm calls →
        ∃ answers', bitmap.markAll reordered = .ok (answers', final) := by
  obtain ⟨answers, final, returned, sameLength, raised⟩ := markAll_raises origin.full calls
  have full := raised.full origin.full
  have sameCount : final.chunkCount = n := raised.chunkCount.trans origin.chunkCount
  refine ⟨answers, final, returned, sameLength, sameCount ▸ full.inStep, ?_, ?_, ?_⟩
  · intro i
    obtain ⟨fresh, marked, marks, first, freshIff⟩ := markComplete_raises full i
    refine ⟨fresh, marked, marks, sameCount ▸ freshIff, ?_, ?_⟩
    · rw [first.has_eq full, if_pos rfl, sameCount]
    · intro j other
      rw [first.has_eq full, if_neg other]
  · intro i
    exact Nat.le_trans (Nat.le_add_right _ _) (count_fresh_le origin.full returned i)
  · intro reordered reorder
    obtain ⟨answers', final', returned', _, raised'⟩ := markAll_raises origin.full reordered
    exact ⟨answers', raised'.unique (raised.perm reorder) ▸ returned'⟩

/-- Two bytes decoded for eleven chunks, marked past the end, twice and once. -/
theorem marks_keep_inStep_eleven :
    Origin 11 (.fromBytes [0xA0, 0xFF] 11) ∧
      ∃ answers final, (fromBytes [0xA0, 0xFF] 11).markAll [11, 3, 3, 0] = .ok (answers, final) ∧
        InStep 11 final := by
  have origin : Origin 11 (.fromBytes [0xA0, 0xFF] 11) := .fromBytes _ (by decide)
  obtain ⟨answers, final, returned, _, inStep, _⟩ := marks_keep_inStep origin [11, 3, 3, 0]
  exact ⟨origin, answers, final, returned, inStep⟩

example :
    (fromBytes [0xA0, 0xFF] 11).markAll [11, 3, 3, 0] =
      .ok ([false, true, false, false], fromBytes [0xB0, 0xFF] 11) := by
  decide

end ChunkBitmap

end ModelDistribution
